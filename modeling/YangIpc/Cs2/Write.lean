import YangIpc.Library.Bytes
import Mathlib.Order.Basic

/-!
# Writing to a session

`yangipc_cs2_p2p_write` offers what is left of a packet to the library until all of it is accepted,
or the buffer of the channel holds too much.  The library is outside of the repository: what its
calls answer is an argument, and so is the number of bytes its buffers hold.

## Main definitions

* `P2pChannel.threshold`: how much the buffer of a channel may hold
* `PpcsOutcome`: the answers in an iteration
* `yangipcCs2P2pWrite`: the function
* `StopsAt`: answers with which the loop stops at a full buffer

## Main results

* `writeLoop_spec`: what is accepted, by the result
* `writeLoop_of_stopsAt`: a full buffer stops the loop
-/

namespace YangIpc

namespace Cs2

open Bytes

/-! ## The channels -/

/-- The channels of a session. -/
inductive P2pChannel
  | cmd
  | aud
  | img
deriving DecidableEq, Repr

/-- `CS2_IMG_MAX_TX_BUFFER_THD`, by `PPCS_TX_BUFFER_THD`. -/
def cs2ImgMaxTxBufferThd (thd : ℕ) : ℕ := thd * 12 / 16

/-- `CS2_AUD_MAX_TX_BUFFER_THD`. -/
def cs2AudMaxTxBufferThd (thd : ℕ) : ℕ := thd - cs2ImgMaxTxBufferThd thd

/-- `write_not_send_thr` of a channel. -/
def P2pChannel.threshold (thd : ℕ) : P2pChannel → ℕ
  | cmd => thd
  | aud => cs2AudMaxTxBufferThd thd
  | img => cs2ImgMaxTxBufferThd thd

/-! ## The function -/

/-- What `PPCS_Write` answers: an error, or the number of bytes it takes, which is at most the
number it is offered. -/
inductive PpcsWrite
  | error (ret : Int32) (negative : ret < 0)
  | accepts (count : ℕ)
deriving DecidableEq, Repr

/-- The answers in an iteration: those of `PPCS_Check_Buffer`, and the one of `PPCS_Write`. -/
structure PpcsOutcome where
  checkRet : Int32
  writeSize : UInt32
  write : PpcsWrite
deriving DecidableEq, Repr

/-- The loop with a threshold, `writeIndex` bytes having been accepted: those accepted from there on
and the result; `none` if there are not enough answers. -/
def writeLoop (thr : ℕ) (buff : Memory) (size : ℕ) :
    List PpcsOutcome → ℕ → Option (List UInt8 × Int32)
  | [], _ => none
  | outcome :: rest, writeIndex =>
    if outcome.checkRet < 0 then some ([], outcome.checkRet)
    else if outcome.writeSize.toNat ≤ thr then
      match outcome.write with
      | .error ret _ => some ([], ret)
      | .accepts count =>
        let ret := min count (size - writeIndex)
        let piece := load buff writeIndex ret
        if writeIndex + ret < size then
          (writeLoop thr buff size rest (writeIndex + ret)).map fun r => (piece ++ r.1, r.2)
        else some (piece, Int32.ofNat (writeIndex + ret))
    -- "full"
    else some ([], Int32.ofNat writeIndex)

/-- `yangipc_cs2_p2p_write`. -/
def yangipcCs2P2pWrite (thd : ℕ) (channel : P2pChannel) (buff : Memory) (size : ℕ)
    (outcomes : List PpcsOutcome) : Option (List UInt8 × Int32) :=
  if size = 0 then some ([], 0)
  else writeLoop (channel.threshold thd) buff size outcomes 0

/-! ## Stopping -/

/-- The iteration accepts `n` bytes. -/
def PpcsOutcome.Accepts (thr : ℕ) (outcome : PpcsOutcome) (n : ℕ) : Prop :=
  0 ≤ outcome.checkRet ∧ outcome.writeSize.toNat ≤ thr ∧ outcome.write = .accepts n

/-- The iteration finds the buffer full. -/
def PpcsOutcome.Full (thr : ℕ) (outcome : PpcsOutcome) : Prop :=
  0 ≤ outcome.checkRet ∧ thr < outcome.writeSize.toNat

/-- Bytes are accepted, `n` in all, before the buffer is found full. -/
def StopsAt (thr : ℕ) : List PpcsOutcome → ℕ → Prop
  | [], _ => False
  | outcome :: rest, n =>
    (n = 0 ∧ outcome.Full thr) ∨ ∃ k m, n = k + m ∧ outcome.Accepts thr k ∧ StopsAt thr rest m

variable {thr size writeIndex n : ℕ} {buff : Memory} {outcomes : List PpcsOutcome}
  {bytes : List UInt8} {ret : Int32}

/-! ## The result -/

/-- A result of the loop: an error, or the index reached, everything up to it having been accepted;
before the end, the loop stops at a full buffer. -/
structure Written (thr : ℕ) (buff : Memory) (size : ℕ) (outcomes : List PpcsOutcome)
    (writeIndex n : ℕ) (bytes : List UInt8) (ret : Int32) : Prop where
  le : writeIndex ≤ n
  le_size : n ≤ size
  bytes : bytes = load buff writeIndex (n - writeIndex)
  ret : ret = Int32.ofNat n
  stops : n < size → StopsAt thr outcomes (n - writeIndex)

theorem Written.cons {outcome : PpcsOutcome} {rest : List PpcsOutcome} {k : ℕ}
    (haccepts : writeIndex + k < size → outcome.Accepts thr k)
    (hlt : writeIndex + k < size) (h : Written thr buff size rest (writeIndex + k) n bytes ret) :
    Written thr buff size (outcome :: rest) writeIndex n (load buff writeIndex k ++ bytes) ret := by
  obtain ⟨hle, hsize, hbytes, hret, hstops⟩ := h
  have hsum : n - writeIndex = k + (n - (writeIndex + k)) := by omega
  refine ⟨by omega, hsize, ?_, hret, fun hn => .inr ⟨k, _, hsum, haccepts hlt, hstops hn⟩⟩
  rw [hsum, load_add, hbytes]

/-- **What is accepted**, by the result. -/
theorem writeLoop_spec (hlt : writeIndex < size)
    (h : writeLoop thr buff size outcomes writeIndex = some (bytes, ret)) :
    ret < 0 ∨ ∃ n, Written thr buff size outcomes writeIndex n bytes ret := by
  -- Induction on the answers; the index stays below the size.
  induction outcomes generalizing writeIndex bytes ret with
  | nil => exact absurd h.symm (Option.some_ne_none _)
  | cons outcome rest ih =>
    rw [writeLoop] at h
    split at h
    case isTrue hcheck =>
      obtain ⟨rfl, rfl⟩ := Prod.mk.inj (Option.some.inj h)
      exact .inl hcheck
    case isFalse hcheck =>
      have hcheck : 0 ≤ outcome.checkRet := Int32.not_lt.mp hcheck
      split at h
      case isTrue hroom =>
        cases hwrite : outcome.write with
        | error code negative =>
          rw [hwrite] at h
          obtain ⟨rfl, rfl⟩ := Prod.mk.inj (Option.some.inj h)
          exact .inl negative
        | accepts count =>
          rw [hwrite] at h
          simp only at h
          split at h
          case isTrue hmore =>
            have hmin : min count (size - writeIndex) = count := by omega
            rw [hmin] at h hmore
            obtain ⟨⟨bytes', ret'⟩, hrest, heq⟩ := Option.map_eq_some_iff.mp h
            obtain ⟨rfl, rfl⟩ := Prod.mk.inj heq
            refine (ih hmore hrest).imp_right fun ⟨n, hn⟩ => ⟨n, ?_⟩
            exact hn.cons (fun _ => ⟨hcheck, hroom, hwrite⟩) hmore
          case isFalse hend =>
            obtain ⟨rfl, rfl⟩ := Prod.mk.inj (Option.some.inj h)
            refine .inr ⟨writeIndex + min count (size - writeIndex), Nat.le_add_right _ _, by omega,
              ?_, rfl, fun hn => absurd hn hend⟩
            rw [Nat.add_sub_cancel_left]
      case isFalse hfull =>
        obtain ⟨rfl, rfl⟩ := Prod.mk.inj (Option.some.inj h)
        refine .inr ⟨writeIndex, le_rfl, hlt.le, ?_, rfl, fun _ => .inl ⟨?_, hcheck, ?_⟩⟩
        · rw [Nat.sub_self]
          rfl
        · exact Nat.sub_self _
        · exact Nat.not_le.mp hfull

/-- **A full buffer** stops the loop where it is. -/
theorem writeLoop_of_stopsAt (h : StopsAt thr outcomes n) (hlt : writeIndex + n < size) :
    writeLoop thr buff size outcomes writeIndex =
      some (load buff writeIndex n, Int32.ofNat (writeIndex + n)) := by
  induction outcomes generalizing writeIndex n with
  | nil => exact h.elim
  | cons outcome rest ih =>
    rcases h with ⟨rfl, hcheck, hfull⟩ | ⟨k, m, rfl, ⟨hcheck, hroom, hwrite⟩, hrest⟩
    · rw [writeLoop, if_neg (Int32.not_lt.mpr hcheck), if_neg (Nat.not_le.mpr hfull)]
      rfl
    · have hmin : min k (size - writeIndex) = k := by omega
      rw [writeLoop, if_neg (Int32.not_lt.mpr hcheck), if_pos hroom, hwrite]
      simp only [hmin]
      rw [if_pos (by omega), ih hrest (by omega), Option.map_some, load_add, Nat.add_assoc]

end Cs2

end YangIpc
