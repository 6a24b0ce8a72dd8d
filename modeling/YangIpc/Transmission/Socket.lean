import Mathlib.Data.Int.Notation
import Mathlib.Data.List.Infix
import Mathlib.Data.Nat.Notation

/-!
# Writing to a socket

The loop of `yangipc_network.c` that repeats `write` until all bytes are accepted.

## Main results

* `socketWrite_spec`: either all bytes are accepted, and their number is returned, or the result
  is `-1`
-/

namespace YangIpc

namespace Transmission

variable {region accepted : List UInt8} {ret : ℤ}

/-- `YANGIPC_SEND_MAX_RETRY`. -/
def yangipcSendMaxRetry : ℕ := 2000

/-- What an iteration of the loop finds: the descriptor closed, or the result of `write`.  A
socket never accepts more bytes than it is offered. -/
inductive SocketAnswer
  | closed
  | error
  | accepts (count : ℕ)
deriving DecidableEq, Repr

/-- The number of bytes accepted out of `offered` ones; an error counts as none. -/
def SocketAnswer.count (offered : ℕ) : SocketAnswer → ℕ
  | .closed => 0
  | .error => 0
  | .accepts count => min count offered

/-- The loop, with `index` bytes accepted so far and `maxRetry` iterations left after this one:
the bytes accepted in all, and the value returned.  `index` never passes the size, so the condition
of the loop is that they differ. -/
def socketWriteLoop (region : List UInt8) (offset : ℕ) (answers : ℕ → SocketAnswer)
    (maxRetry index : ℕ) : List UInt8 × ℤ :=
  if answers maxRetry = .closed then (region.take index, -1)
  else
    let next := index + (answers maxRetry).count (region.length - index)
    if next = region.length then (region.take next, (region.length + offset : ℕ))
    else
      match maxRetry with
      -- "reach max retry"
      | 0 => (region.take next, -1)
      | maxRetry + 1 => socketWriteLoop region offset answers maxRetry next

/-- `yangipc_socket_write`.  The iterations are numbered downwards.  The region is what is left of
`length` bytes behind `offset`, their number cut to 16 bits. -/
def yangipcSocketWrite (answers : ℕ → SocketAnswer) (data : List UInt8) (length offset : ℕ) :
    List UInt8 × ℤ :=
  socketWriteLoop ((data.drop offset).take ((length - offset) % 65536)) offset answers
    yangipcSendMaxRetry 0

/-- A result of the loop: all bytes accepted, or an error behind some of them. -/
def Written (region : List UInt8) (offset : ℕ) (r : List UInt8 × ℤ) : Prop :=
  r = (region, ((region.length + offset : ℕ) : ℤ)) ∨ r.2 = -1 ∧ r.1 <+: region

theorem socketWriteLoop_spec (offset : ℕ) (answers : ℕ → SocketAnswer) :
    ∀ maxRetry index,
      Written region offset (socketWriteLoop region offset answers maxRetry index) := by
  -- Induction on the iterations left; every one of them ends the loop or goes on.
  intro maxRetry
  induction maxRetry with
  | zero =>
    intro index
    rw [socketWriteLoop]
    split
    · exact .inr ⟨rfl, List.take_prefix _ _⟩
    · simp only
      split
      · rename_i hall
        exact .inl (by rw [hall, List.take_length])
      · exact .inr ⟨rfl, List.take_prefix _ _⟩
  | succ maxRetry ih =>
    intro index
    rw [socketWriteLoop]
    split
    · exact .inr ⟨rfl, List.take_prefix _ _⟩
    · simp only
      split
      · rename_i hall
        exact .inl (by rw [hall, List.take_length])
      · exact ih _

/-- **All bytes, or an error.** -/
theorem socketWrite_spec (answers : ℕ → SocketAnswer) (data : List UInt8) (length offset : ℕ) :
    Written ((data.drop offset).take ((length - offset) % 65536)) offset
      (yangipcSocketWrite answers data length offset) :=
  socketWriteLoop_spec offset answers _ _

end Transmission

end YangIpc
