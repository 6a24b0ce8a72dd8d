import Mathlib.Tactic.Ring
import YangIpc.Library.Bytes
import YangIpc.Transmission.Socket

/-!
# The loops that send

`yangipc_socket_sendto` and `yangipc_socket_write` offer what is left of a region to a socket until
all of it is accepted.  Here the loops are those of the source with its integers, and what is
observed is the bytes that the socket accepts, in order, and the number of its calls.

## Main definitions

* `SendAnswer`, `Sent`: what an iteration finds, and what is observed of the loop
* `sendLoop`, `sendSocket`: the loop of both functions
* `yangipcSocketSendto`, `yangipcSocketWrite`: the functions
* `AllOrReported`: what is promised of them

## Main results

* `sendLoop_spec`: the rest of the region is accepted, or an error is returned
* `allOrReported`: the promise is kept
* `socketWrite_eq`: the writing loop with unbounded integers is this one
-/

namespace YangIpc

namespace Transmission

namespace SendLoop

open Bytes

/-! ## The loops -/

/-- What an iteration finds: the descriptor negative, or the result of the call.  An error is
`-1`, and `again` the one with `EAGAIN`; a socket accepts no more bytes than it is offered. -/
inductive SendAnswer
  | closed
  | error
  | again
  | accepts (count : ℕ)
deriving DecidableEq, Repr

/-- The bytes accepted out of `offered` ones, or `none` where the loop gives up: `sendto` is not
tried again after an error other than `EAGAIN`. -/
def SendAnswer.count (retryErrors : Bool) (offered : ℕ) : SendAnswer → Option ℕ
  | .closed => none
  | .error => if retryErrors then some 0 else none
  | .again => some 0
  | .accepts count => some (min count offered)

/-- What is observed: the bytes accepted, the calls of the socket, and the value returned. -/
structure Sent where
  accepted : List UInt8
  calls : ℕ
  ret : Int32
deriving DecidableEq, Repr

/-- A call that accepts `piece`, and the rest of the loop. -/
def Sent.after (piece : List UInt8) (s : Sent) : Sent := ⟨piece ++ s.accepted, s.calls + 1, s.ret⟩

section Loops

variable (retryErrors : Bool) (ptr : Memory) (size : UInt16) (offset : Int32)
  (answers : ℕ → SendAnswer)

/-- The loop, with `index` bytes accepted so far and `maxRetry` iterations left after this
one. -/
def sendLoop (maxRetry : ℕ) (index : UInt16) : Sent :=
  if answers maxRetry = .closed then ⟨[], 0, -1⟩
  else
    match (answers maxRetry).count retryErrors (size.toNat - index.toNat) with
    | none => ⟨[], 1, -1⟩
    | some ret =>
      let piece := load ptr index.toNat ret
      let next := index + UInt16.ofNat ret
      if next = size then ⟨piece, 1, Int32.ofNat size.toNat + offset⟩
      else
        match maxRetry with
        -- "reach max retry"
        | 0 => ⟨piece, 1, -1⟩
        | maxRetry + 1 =>
          if next < size then (sendLoop maxRetry next).after piece
          else ⟨piece, 1, Int32.ofNat ret⟩

end Loops

/-- What the two functions have in common.  `data` gives the bytes around the buffer, by their
distance from its start. -/
def sendSocket (retryErrors : Bool) (answers : ℕ → SendAnswer) (data : ℤ → UInt8)
    (length : UInt32) (offset : Int32) : Sent :=
  let ptr : Memory := fun i => data (offset.toInt + i)
  let size := (length - offset.toUInt32).toUInt16
  sendLoop retryErrors ptr size offset answers yangipcSendMaxRetry 0

/-- `yangipc_socket_sendto`. -/
def yangipcSocketSendto : (ℕ → SendAnswer) → (ℤ → UInt8) → UInt32 → Int32 → Sent :=
  sendSocket false

/-- `yangipc_socket_write`. -/
def yangipcSocketWrite : (ℕ → SendAnswer) → (ℤ → UInt8) → UInt32 → Int32 → Sent :=
  sendSocket true

/-- The region from `data + offset` to `data + length`. -/
def region (data : ℤ → UInt8) (length : UInt32) (offset : Int32) : List UInt8 :=
  load (fun i => data (offset.toInt + i)) 0 (length.toNat - offset.toInt).toNat

/-- The calls are bounded, what is accepted is the beginning of the region, and the result tells
whether it is all of it. -/
structure AllOrReported (data : ℤ → UInt8) (length : UInt32) (offset : Int32) (s : Sent) :
    Prop where
  calls : s.calls ≤ yangipcSendMaxRetry + 1
  accepted : s.accepted <+: region data length offset
  /-- As in C, the result is compared with the length as an unsigned number. -/
  ret_iff : s.ret.toUInt32 = length ↔ s.accepted = region data length offset
  /-- The lengths up to the largest signed number are returned as they are. -/
  ret : length.toNat < 2147483648 → s.accepted = region data length offset →
    s.ret.toInt = length.toNat
  failed : s.accepted ≠ region data length offset → s.ret < 0

/-! ## The loop -/

section Spec

variable {retryErrors : Bool} {ptr : Memory} {size index : UInt16} {offset : Int32}
  {answers : ℕ → SendAnswer} {n maxRetry : ℕ}

theorem SendAnswer.count_le {answer : SendAnswer} {offered : ℕ}
    (h : answer.count retryErrors offered = some n) : n ≤ offered := by
  cases answer with
  | closed => exact absurd h.symm (Option.some_ne_none n)
  | error =>
    simp only [count] at h
    split at h
    · exact Option.some.inj h ▸ Nat.zero_le _
    · exact absurd h.symm (Option.some_ne_none n)
  | again => exact Option.some.inj h ▸ Nat.zero_le _
  | accepts count => exact Option.some.inj h ▸ Nat.min_le_right _ _

/-- The index does not pass the size. -/
theorem toNat_next (hindex : index.toNat ≤ size.toNat) (hn : n ≤ size.toNat - index.toNat) :
    (index + UInt16.ofNat n).toNat = index.toNat + n := by
  have hsize := size.toNat_lt
  rw [UInt16.toNat_add, UInt16.toNat_ofNat']
  omega

/-- The rest of the region is accepted, or a piece of it and an error is returned. -/
structure LoopSpec (ptr : Memory) (size index : UInt16) (offset : Int32) (maxRetry : ℕ)
    (s : Sent) : Prop where
  calls : s.calls ≤ maxRetry + 1
  accepted : s.accepted <+: load ptr index.toNat (size.toNat - index.toNat)
  ret : s.accepted.length = size.toNat - index.toNat ∧ s.ret = Int32.ofNat size.toNat + offset ∨
    s.accepted.length < size.toNat - index.toNat ∧ s.ret = -1

theorem LoopSpec.stopped (hindex : index.toNat < size.toNat) {calls : ℕ} (hcalls : calls ≤ 1) :
    LoopSpec ptr size index offset maxRetry ⟨[], calls, -1⟩ :=
  ⟨hcalls.trans (Nat.le_add_left 1 _), List.nil_prefix, .inr ⟨Nat.sub_pos_of_lt hindex, rfl⟩⟩

/-- One call, and the rest of the loop. -/
theorem LoopSpec.after (hindex : index.toNat < size.toNat) (hn : n ≤ size.toNat - index.toNat)
    {s : Sent} (h : LoopSpec ptr size (index + UInt16.ofNat n) offset maxRetry s) :
    LoopSpec ptr size index offset (maxRetry + 1) (s.after (load ptr index.toNat n)) := by
  obtain ⟨hcalls, haccepted, hret⟩ := h
  rw [toNat_next hindex.le hn] at haccepted hret
  have hlength : (s.after (load ptr index.toNat n)).accepted.length =
      n + s.accepted.length := by simp [Sent.after]
  refine ⟨Nat.add_le_add_right hcalls 1, ?_, ?_⟩
  · have hsplit : size.toNat - index.toNat = n + (size.toNat - (index.toNat + n)) := by omega
    rw [hsplit, load_add]
    exact (List.prefix_append_right_inj _).mpr haccepted
  · rw [hlength]
    rcases hret with ⟨hall, hret⟩ | ⟨hless, hret⟩
    · exact .inl ⟨by omega, hret⟩
    · exact .inr ⟨by omega, hret⟩

theorem LoopSpec.piece (hn : n ≤ size.toNat - index.toNat)
    {ret : Int32} (hret : n = size.toNat - index.toNat ∧ ret = Int32.ofNat size.toNat + offset ∨
      n < size.toNat - index.toNat ∧ ret = -1) :
    LoopSpec ptr size index offset maxRetry ⟨load ptr index.toNat n, 1, ret⟩ :=
  ⟨Nat.le_add_left 1 _, load_isPrefix_load hn, by rwa [length_load]⟩

variable (retryErrors ptr offset answers maxRetry) in
/-- **One iteration**: the loop is left without a call or with an error, or a piece is accepted,
which is the last one, or the last one that was allowed, or followed by others. -/
theorem sendLoop_cases (hindex : index.toNat < size.toNat) :
    (∃ calls ≤ 1, sendLoop retryErrors ptr size offset answers maxRetry index =
      ⟨[], calls, -1⟩) ∨
    ∃ n ≤ size.toNat - index.toNat,
      (n = size.toNat - index.toNat ∧ sendLoop retryErrors ptr size offset answers maxRetry index =
        ⟨load ptr index.toNat n, 1, Int32.ofNat size.toNat + offset⟩) ∨
      (n < size.toNat - index.toNat ∧ maxRetry = 0 ∧
        sendLoop retryErrors ptr size offset answers maxRetry index =
          ⟨load ptr index.toNat n, 1, -1⟩) ∨
      (n < size.toNat - index.toNat ∧ ∃ left, maxRetry = left + 1 ∧
        sendLoop retryErrors ptr size offset answers maxRetry index =
          (sendLoop retryErrors ptr size offset answers left (index + UInt16.ofNat n)).after
            (load ptr index.toNat n)) := by
  rw [sendLoop.eq_def retryErrors ptr size offset answers maxRetry index]
  split
  case isTrue => exact .inl ⟨0, Nat.zero_le 1, rfl⟩
  split
  case h_1 => exact .inl ⟨1, le_rfl, rfl⟩
  case h_2 n hcount =>
    have hn := SendAnswer.count_le hcount
    have hnext := toNat_next hindex.le hn
    refine .inr ⟨n, hn, ?_⟩
    simp only
    split
    case isTrue hall =>
      rw [hall] at hnext
      exact .inl ⟨by omega, rfl⟩
    case isFalse hmore =>
      have hne : index.toNat + n ≠ size.toNat := fun h =>
        hmore (UInt16.toNat_inj.mp (hnext.trans h))
      have hlt : n < size.toNat - index.toNat := by omega
      cases maxRetry with
      | zero => exact .inr (.inl ⟨hlt, rfl, rfl⟩)
      | succ left =>
        refine .inr (.inr ⟨hlt, left, rfl, ?_⟩)
        simp only
        rw [if_pos (UInt16.lt_iff_toNat_lt.mpr (by omega))]

/-- **The loop.** -/
theorem sendLoop_spec (retryErrors : Bool) (ptr : Memory) (offset : Int32)
    (answers : ℕ → SendAnswer) (maxRetry : ℕ) (hindex : index.toNat < size.toNat) :
    LoopSpec ptr size index offset maxRetry
      (sendLoop retryErrors ptr size offset answers maxRetry index) := by
  -- Induction on the iterations left; the index is below the size in all of them.
  induction maxRetry generalizing index with
  | zero =>
    rcases sendLoop_cases retryErrors ptr offset answers 0 hindex with
      ⟨calls, hcalls, heq⟩ | ⟨n, hn, ⟨hall, heq⟩ | ⟨hlt, -, heq⟩ | ⟨-, left, hleft, -⟩⟩
    · rw [heq]
      exact .stopped hindex hcalls
    · rw [heq]
      exact .piece hn (.inl ⟨hall, rfl⟩)
    · rw [heq]
      exact .piece hn (.inr ⟨hlt, rfl⟩)
    · exact absurd hleft.symm (Nat.succ_ne_zero left)
  | succ maxRetry ih =>
    rcases sendLoop_cases retryErrors ptr offset answers (maxRetry + 1) hindex with
      ⟨calls, hcalls, heq⟩ | ⟨n, hn, ⟨hall, heq⟩ | ⟨-, hzero, -⟩ | ⟨hlt, left, hleft, heq⟩⟩
    · rw [heq]
      exact .stopped hindex hcalls
    · rw [heq]
      exact .piece hn (.inl ⟨hall, rfl⟩)
    · exact absurd hzero (Nat.succ_ne_zero maxRetry)
    · obtain rfl := Nat.succ.inj hleft
      rw [heq]
      refine .after hindex hn (ih ?_)
      rw [toNat_next hindex.le hn]
      omega

/-! ## The functions -/

variable {length : UInt32}

/-- The size of the region is not cut. -/
theorem toNat_size (hsize : 1 ≤ (length.toNat : ℤ) - offset.toInt)
    (hcut : (length.toNat : ℤ) - offset.toInt ≤ 65535) :
    ((length - offset.toUInt32).toUInt16.toNat : ℤ) = length.toNat - offset.toInt := by
  have hlength := length.toNat_lt
  have hoffset := offset.toUInt32.toNat_lt
  have htoInt := toInt_eq offset
  rw [UInt32.toNat_toUInt16, UInt32.toNat_sub]
  omega

/-- The size and the offset make the length again. -/
theorem toUInt32_size_add (hsize : 1 ≤ (length.toNat : ℤ) - offset.toInt)
    (hcut : (length.toNat : ℤ) - offset.toInt ≤ 65535) :
    (Int32.ofNat (length - offset.toUInt32).toUInt16.toNat + offset).toUInt32 = length := by
  have hlength := length.toNat_lt
  have hoffset := offset.toUInt32.toNat_lt
  have htoInt := toInt_eq offset
  have hnat := toNat_size hsize hcut
  apply UInt32.toNat_inj.mp
  rw [Int32.toUInt32_add, Int32.toUInt32_ofNat', UInt32.toNat_add, UInt32.toNat_ofNat']
  omega

/-- What the loop did, for the whole region. -/
theorem LoopSpec.whole {data : ℤ → UInt8} {s : Sent}
    (hsize : 1 ≤ (length.toNat : ℤ) - offset.toInt)
    (hcut : (length.toNat : ℤ) - offset.toInt ≤ 65535)
    (h : LoopSpec (fun i => data (offset.toInt + i)) (length - offset.toUInt32).toUInt16 0 offset
      yangipcSendMaxRetry s) : AllOrReported data length offset s := by
  have hnat := toNat_size hsize hcut
  obtain ⟨hcalls, haccepted, hret⟩ := h
  rw [UInt16.toNat_zero, Nat.sub_zero] at haccepted hret
  have hregion : region data length offset =
      load (fun i => data (offset.toInt + i)) 0 (length - offset.toUInt32).toUInt16.toNat := by
    rw [region, ← hnat, Int.toNat_natCast]
  have hlength : (region data length offset).length =
      (length - offset.toUInt32).toUInt16.toNat := by rw [hregion, length_load]
  rw [← hregion] at haccepted
  rw [← hlength] at hret
  rcases hret with ⟨hall, hret⟩ | ⟨hless, hret⟩
  · have hwhole : s.accepted = region data length offset := haccepted.eq_of_length hall
    have hunsigned : s.ret.toUInt32 = length := by
      rw [hret, hlength, toUInt32_size_add hsize hcut]
    refine ⟨hcalls, haccepted, iff_of_true hunsigned hwhole, fun hlt _ => ?_,
      fun hne => absurd hwhole hne⟩
    rw [toInt_eq, hunsigned, if_pos (by omega)]
  · have hpart : s.accepted ≠ region data length offset := by
      intro heq
      rw [heq] at hless
      exact Nat.lt_irrefl _ hless
    refine ⟨hcalls, haccepted, iff_of_false (fun hlast => ?_) hpart,
      fun _ hwhole => absurd hwhole hpart, fun _ => ?_⟩
    · -- the largest length has no region that is short enough
      have hmax : length.toNat = 4294967295 := by
        rw [← hlast, hret]
        rfl
      have hoffset := offset.toInt_lt
      omega
    · rw [hret]
      decide

/-- **Both functions** send everything, or report that they did not. -/
theorem allOrReported (answers : ℕ → SendAnswer) (data : ℤ → UInt8) (length : UInt32)
    (offset : Int32) (hsize : 1 ≤ (length.toNat : ℤ) - offset.toInt)
    (hcut : (length.toNat : ℤ) - offset.toInt ≤ 65535) :
    AllOrReported data length offset (yangipcSocketWrite answers data length offset) ∧
      AllOrReported data length offset (yangipcSocketSendto answers data length offset) := by
  have hindex : (0 : UInt16).toNat < (length - offset.toUInt32).toUInt16.toNat := by
    have hnat := toNat_size hsize hcut
    rw [UInt16.toNat_zero]
    omega
  constructor
  · exact (sendLoop_spec true _ offset answers _ hindex).whole hsize hcut
  · exact (sendLoop_spec false _ offset answers _ hindex).whole hsize hcut

/-- Three bytes behind an offset of one: two of them are accepted, then none, then the last. -/
theorem allOrReported_three :
    AllOrReported (fun i => UInt8.ofNat i.toNat) 4 1
        (yangipcSocketWrite (fun n => if n = 1999 then .again else .accepts 2)
          (fun i => UInt8.ofNat i.toNat) 4 1) ∧
      AllOrReported (fun i => UInt8.ofNat i.toNat) 4 1
        (yangipcSocketSendto (fun n => if n = 1999 then .again else .accepts 2)
          (fun i => UInt8.ofNat i.toNat) 4 1) :=
  allOrReported _ _ 4 1 (by decide) (by decide)

end Spec

/-! ## The loop with unbounded integers -/

section Unbounded

variable {ptr : Memory} {size index : UInt16} {offset : Int32} {off maxRetry : ℕ}
  {answers : ℕ → SocketAnswer}

/-- An answer of `write`, as an iteration finds it. -/
def ofAnswer : SocketAnswer → SendAnswer
  | .closed => .closed
  | .error => .error
  | .accepts count => .accepts count

theorem ofAnswer_eq_closed_iff {answer : SocketAnswer} :
    ofAnswer answer = .closed ↔ answer = .closed := by
  cases answer <;> simp [ofAnswer]

/-- Writing tries again after every error. -/
theorem count_ofAnswer {answer : SocketAnswer} (h : answer ≠ .closed) (offered : ℕ) :
    (ofAnswer answer).count true offered = some (answer.count offered) := by
  cases answer with
  | closed => exact absurd rfl h
  | error => rfl
  | accepts count => rfl

theorem SocketAnswer.count_le (answer : SocketAnswer) (offered : ℕ) :
    answer.count offered ≤ offered := by
  cases answer with
  | closed => exact Nat.zero_le _
  | error => exact Nat.zero_le _
  | accepts count => exact Nat.min_le_right _ _

/-- The unbounded loop returns the same, and has collected what was accepted before. -/
def Agree (ptr : Memory) (size : UInt16) (offset : Int32) (off : ℕ) (answers : ℕ → SocketAnswer)
    (maxRetry : ℕ) (index : UInt16) : Prop :=
  let s := sendLoop true ptr size offset (fun n => ofAnswer (answers n)) maxRetry index
  socketWriteLoop (load ptr 0 size.toNat) off answers maxRetry index.toNat =
    (load ptr 0 index.toNat ++ s.accepted, s.ret.toInt)

/-- One iteration, when the loops agree after it. -/
theorem agree_of_next (hret : (Int32.ofNat size.toNat + offset).toInt = (size.toNat + off : ℕ))
    (hindex : index.toNat ≤ size.toNat)
    (hnext : ∀ left, maxRetry = left + 1 → ∀ next : UInt16, next.toNat ≤ size.toNat →
      Agree ptr size offset off answers left next) :
    Agree ptr size offset off answers maxRetry index := by
  rw [Agree, socketWriteLoop.eq_def, sendLoop.eq_def, length_load]
  by_cases hclosed : answers maxRetry = .closed
  · rw [if_pos hclosed, if_pos (ofAnswer_eq_closed_iff.mpr hclosed), take_load hindex]
    simp
  have hn := SocketAnswer.count_le (answers maxRetry) (size.toNat - index.toNat)
  rw [if_neg hclosed, if_neg (ofAnswer_eq_closed_iff.not.mpr hclosed), count_ofAnswer hclosed]
  generalize (answers maxRetry).count (size.toNat - index.toNat) = n at hn
  have htoNat := toNat_next hindex hn
  have htake : (load ptr 0 size.toNat).take (index.toNat + n) =
      load ptr 0 index.toNat ++ load ptr index.toNat n := by
    rw [take_load (by omega), load_add, Nat.zero_add]
  by_cases hall : index + UInt16.ofNat n = size
  · have hall' : index.toNat + n = size.toNat := by rw [← htoNat, hall]
    simp only [if_pos hall, if_pos hall', htake, hret]
  · have hne : index.toNat + n ≠ size.toNat := fun h =>
      hall (UInt16.toNat_inj.mp (htoNat.trans h))
    simp only [if_neg hall, if_neg hne]
    cases maxRetry with
    | zero =>
      simp only [htake]
      rfl
    | succ left =>
      have hlt : index + UInt16.ofNat n < size := UInt16.lt_iff_toNat_lt.mpr (by omega)
      have hagree := hnext left rfl _ (UInt16.le_iff_toNat_le.mp (UInt16.le_of_lt hlt))
      rw [Agree, htoNat, load_add, Nat.zero_add, List.append_assoc] at hagree
      simp only [if_pos hlt]
      exact hagree

/-- **The two loops agree.** -/
theorem agree (hret : (Int32.ofNat size.toNat + offset).toInt = (size.toNat + off : ℕ))
    (maxRetry : ℕ) (hindex : index.toNat ≤ size.toNat) :
    Agree ptr size offset off answers maxRetry index := by
  induction maxRetry generalizing index with
  | zero => exact agree_of_next hret hindex fun left h => absurd h.symm (Nat.succ_ne_zero left)
  | succ maxRetry ih =>
    refine agree_of_next hret hindex fun left h next hle => ?_
    rw [Nat.succ.inj h.symm]
    exact ih hle

/-- **Writing** in both models, from a buffer with all the bytes. -/
theorem socketWrite_eq (answers : ℕ → SocketAnswer) (data : List UInt8) {length : UInt32}
    (hdata : length.toNat ≤ data.length) (hoffset : 0 ≤ offset.toInt)
    (hle : offset.toInt ≤ length.toNat) (hlength : length.toNat < 2147483648) :
    let s := yangipcSocketWrite (fun n => ofAnswer (answers n)) (fun i => data.getD i.toNat 0)
      length offset
    Transmission.yangipcSocketWrite answers data length.toNat offset.toInt.toNat =
      (s.accepted, s.ret.toInt) := by
  have htoInt := toInt_eq offset
  have hbits := offset.toUInt32.toNat_lt
  have hoff : offset.toInt.toNat = offset.toUInt32.toNat := by omega
  have hsize : (length - offset.toUInt32).toUInt16.toNat =
      (length.toNat - offset.toInt.toNat) % 65536 := by
    rw [UInt32.toNat_toUInt16, UInt32.toNat_sub]
    omega
  have hmod := Nat.mod_le (length.toNat - offset.toInt.toNat) 65536
  have hret : (Int32.ofNat (length - offset.toUInt32).toUInt16.toNat + offset).toInt =
      ((length - offset.toUInt32).toUInt16.toNat + offset.toInt.toNat : ℕ) := by
    rw [toInt_eq, Int32.toUInt32_add, Int32.toUInt32_ofNat', UInt32.toNat_add,
      UInt32.toNat_ofNat', hsize]
    omega
  have hregion : load (fun i => data.getD (offset.toInt + i).toNat 0) 0
      (length - offset.toUInt32).toUInt16.toNat =
        (data.drop offset.toInt.toNat).take ((length.toNat - offset.toInt.toNat) % 65536) := by
    have hsum (i : ℕ) : (offset.toInt + i).toNat = offset.toInt.toNat + i := by omega
    simp only [hsum]
    rw [load_getD (by omega), hsize]
  have hagree : Agree (fun i => data.getD (offset.toInt + i).toNat 0) _ offset _ answers
      yangipcSendMaxRetry 0 := agree hret yangipcSendMaxRetry (Nat.zero_le _)
  rw [Agree, hregion] at hagree
  exact hagree

end Unbounded

end SendLoop

end Transmission

end YangIpc
