import Mathlib.Data.List.Basic
import Mathlib.Data.Nat.Notation

/-!
# Searching start codes

`find_next_start_code` and `yang_send_p` of `YangIpcEncoder.c`.  A frame is the bytes up to its
declared length; a read at or behind the length is the end of a run, so that it cannot go
unnoticed.

## Main definitions

* `findNextStartCode`, `yangSendP`: the functions
* `CodeAt`, `FirstCode`: a start code of three bytes at an offset, and the first one from an
  offset on
* `Found`: what a search may find

## Main results

* `frameLength_eq`, `frameLength_of_sign`: the bound of the searches
-/

namespace YangIpc

namespace Encoder

/-- `buf[i]`, compared with one byte after the other up to the first difference; `none` if a byte
is read behind the frame. -/
def matchesAt (frame : List UInt8) : ℕ → List UInt8 → Option Bool
  | _, [] => some true
  | i, c :: rest => do
    let b ← frame[i]?
    if b = c then matchesAt frame (i + 1) rest else some false

/-- The loop of `find_next_start_code` from `i` on: the place and the length of a start code.
`fuel` bounds the iterations. -/
def findLoop (frame : List UInt8) (fin : ℕ) : ℕ → ℕ → Option (Option (ℕ × ℕ))
  | 0, _ => some none
  | fuel + 1, i =>
    if i + 3 ≤ fin then do
      if ← matchesAt frame i [0, 0, 3] then findLoop frame fin fuel (i + 3)
      else if ← matchesAt frame i [0, 0, 1] then some (some (i, 3))
      else
        let zeros ← matchesAt frame i [0, 0, 0]
        if zeros ∧ i + 3 < fin then
          if ← matchesAt frame (i + 3) [1] then some (some (i, 4))
          else findLoop frame fin fuel (i + 1)
        else findLoop frame fin fuel (i + 1)
    else some none

/-- `find_next_start_code`. -/
def findNextStartCode (frame : List UInt8) (start fin : ℕ) : Option (Option (ℕ × ℕ)) :=
  findLoop frame fin (fin + 1 - start) start

/-- `int32_t len = frame->length`; a negative bound ends every search, as zero does. -/
def frameLength (frame : List UInt8) : ℕ := (BitVec.ofNat 32 frame.length).toInt.toNat

/-- `yang_send_p`: the calls of `onVideoData`, by the offset of the payload and `nb`. -/
def yangSendP (frame : List UInt8) : Option (List (ℕ × ℕ)) := do
  let len := frameLength frame
  match ← findNextStartCode frame 0 len with
  | none => some []
  | some (scPos, scLen) =>
    let header ← frame[scLen]?
    if header &&& 0x1F = 1 then some [(scLen, frame.length - scLen)]
    else
      match ← findNextStartCode frame (scPos + scLen) len with
      | none => some []
      | some (scPos, scLen) =>
        if scPos > len then some [] else some [(scPos + scLen, frame.length - scPos - scLen)]

/-! ## Start codes -/

variable {frame : List UInt8} {i j k : ℕ}

/-- The three bytes of a start code are at an offset. -/
def CodeAt (frame : List UInt8) (k : ℕ) : Prop :=
  frame[k]? = some 0 ∧ frame[k + 1]? = some 0 ∧ frame[k + 2]? = some 1

/-- The first start code from an offset on. -/
def FirstCode (frame : List UInt8) (i k : ℕ) : Prop :=
  i ≤ k ∧ CodeAt frame k ∧ ∀ j, i ≤ j → j < k → ¬CodeAt frame j

theorem CodeAt.lt (h : CodeAt frame k) : k + 3 ≤ frame.length := by
  have := (List.getElem?_eq_some_iff.mp h.2.2).1
  omega

theorem FirstCode.unique (h : FirstCode frame i j) (h' : FirstCode frame i k) : j = k := by
  rcases Nat.lt_trichotomy j k with hlt | heq | hgt
  · exact absurd h.2.1 (h'.2.2 j h.1 hlt)
  · exact heq
  · exact absurd h'.2.1 (h.2.2 k h'.1 hgt)

/-- What a search from an offset may find. -/
def Found (frame : List UInt8) (i : ℕ) (result : Option (Option (ℕ × ℕ))) : Prop :=
  (∃ p l k, result = some (some (p, l)) ∧ i ≤ p ∧ p + l = k + 3 ∧ FirstCode frame i k ∧
    (l = 3 ∨ (l = 4 ∧ frame[p]? = some 0))) ∨
  (result = some none ∧ ∀ k, i ≤ k → ¬CodeAt frame k)

/-- The bound of the searches is the length of a frame, unless the sign bit is set. -/
theorem frameLength_eq (h : 2 * frame.length < UInt32.size) : frameLength frame = frame.length := by
  have hlt : frame.length < UInt32.size := by omega
  unfold frameLength
  rw [BitVec.toInt_eq_toNat_of_lt] <;> rw [BitVec.toNat_ofNat, Nat.mod_eq_of_lt hlt]
  · rfl
  · exact h

theorem frameLength_of_sign (h : UInt32.size ≤ 2 * frame.length)
    (hlt : frame.length < UInt32.size) : frameLength frame = 0 := by
  unfold frameLength
  rw [BitVec.toInt_eq_toNat_cond, BitVec.toNat_ofNat, Nat.mod_eq_of_lt hlt,
    if_neg (Nat.not_lt.mpr h)]
  have hsize : UInt32.size = 4294967296 := rfl
  omega

end Encoder

end YangIpc
