import Mathlib.Data.List.Basic
import Mathlib.Data.Nat.Notation

/-!
# Blocks of slots

A block of memory as a list of slots of one width, with the operations of `string.h` on it.  Their
sizes and offsets are in bytes; an operation that leaves a block, or that splits a slot, is `none`.

## Main definitions

* `slots width b`: the slots of `b` bytes
* `memset`, `memcpy`, `memmove`: the operations

## Main results

* `memset_mul`, `memcpy_mul`, `memmove_mul`: what they do to whole slots inside of the blocks
-/

namespace Blocks

variable {β : Type} {width : ℕ} {block dst src : List β} {n d s : ℕ}

/-- The number of slots in some bytes. -/
def slots (width b : ℕ) : Option ℕ := if width ∣ b then some (b / width) else none

/-- `memset`, with the value of a slot. -/
def memset (width : ℕ) (block : List β) (value : β) (b : ℕ) : Option (List β) := do
  let n ← slots width b
  if n ≤ block.length then some (.replicate n value ++ block.drop n) else none

/-- `memcpy`, from the start of a block to the start of another. -/
def memcpy (width : ℕ) (dst src : List β) (b : ℕ) : Option (List β) := do
  let n ← slots width b
  if n ≤ src.length ∧ n ≤ dst.length then some (src.take n ++ dst.drop n) else none

/-- `memmove` within a block, from the offset `src` to the offset `dst`. -/
def memmove (width : ℕ) (block : List β) (dst src b : ℕ) : Option (List β) := do
  let d ← slots width dst
  let s ← slots width src
  let n ← slots width b
  if s + n ≤ block.length ∧ d + n ≤ block.length then
    some (block.take d ++ (block.drop s).take n ++ block.drop (d + n))
  else none

@[simp]
theorem slots_mul (hwidth : 0 < width) (n : ℕ) : slots width (n * width) = some n := by
  rw [slots, if_pos (Nat.dvd_mul_left width n), Nat.mul_div_cancel n hwidth]

theorem memset_mul (hwidth : 0 < width) (hn : n ≤ block.length) (value : β) :
    memset width block value (n * width) = some (.replicate n value ++ block.drop n) := by
  rw [memset, slots_mul hwidth]
  exact if_pos hn

theorem memcpy_mul (hwidth : 0 < width) (hsrc : n ≤ src.length) (hdst : n ≤ dst.length) :
    memcpy width dst src (n * width) = some (src.take n ++ dst.drop n) := by
  rw [memcpy, slots_mul hwidth]
  exact if_pos ⟨hsrc, hdst⟩

theorem memmove_mul (hwidth : 0 < width) (hs : s + n ≤ block.length) (hd : d + n ≤ block.length) :
    memmove width block (d * width) (s * width) (n * width) =
      some (block.take d ++ (block.drop s).take n ++ block.drop (d + n)) := by
  rw [memmove, slots_mul hwidth, slots_mul hwidth, slots_mul hwidth]
  exact if_pos ⟨hs, hd⟩

end Blocks
