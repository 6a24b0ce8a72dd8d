import Mathlib.Data.List.Basic

/-!
# Computations that read a memory

A computation that reads a memory at places which depend on what it has read before.  It can be
run on a memory, and what it reads there can be listed; on a memory with gaps it gets stuck at the
first one.

## Main definitions

* `Reading ι β α`: a computation with values in `α`, which reads elements of `β` at places in `ι`
* `Reading.eval`, `Reading.offsets`: its value on a memory, and the places it reads
* `Reading.run`: the computation on a memory with gaps

## Main results

* `Reading.eval_bind`, `Reading.offsets_bind`: one computation after another
* `Reading.eval_congr`: the value depends on the places that are read
* `Reading.run_eq_some`: without a gap at a place that is read, the computation has its value
-/

namespace Reads

/-- A computation that is done, or reads a place and goes on with what is there. -/
inductive Reading (ι β α : Type*)
  | done (value : α)
  | read (place : ι) (next : β → Reading ι β α)

namespace Reading

universe u

variable {ι β : Type} {α γ : Type u}

/-- One computation after another. -/
def andThen : Reading ι β α → (α → Reading ι β γ) → Reading ι β γ
  | done value, next => next value
  | read place rest, next => read place fun b => (rest b).andThen next

instance : Monad (Reading ι β) where
  pure := done
  bind := andThen

/-- The element at a place. -/
def fetch (place : ι) : Reading ι β β := read place done

/-- The value of a computation on a memory. -/
def eval (mem : ι → β) : Reading ι β α → α
  | done value => value
  | read place next => (next (mem place)).eval mem

/-- The places that a computation reads, in order. -/
def offsets (mem : ι → β) : Reading ι β α → List ι
  | done _ => []
  | read place next => place :: (next (mem place)).offsets mem

/-- A computation on a memory with gaps, where it gets stuck. -/
def run (mem : ι → Option β) : Reading ι β α → Option α
  | done value => some value
  | read place next =>
    match mem place with
    | some b => (next b).run mem
    | none => none

variable {mem : ι → β} {place : ι}

@[simp] theorem eval_pure (value : α) : (pure value : Reading ι β α).eval mem = value := rfl

@[simp] theorem offsets_pure (value : α) : (pure value : Reading ι β α).offsets mem = [] := rfl

@[simp] theorem eval_fetch : (fetch place : Reading ι β β).eval mem = mem place := rfl

@[simp] theorem offsets_fetch : (fetch place : Reading ι β β).offsets mem = [place] := rfl

@[simp]
theorem run_fetch (part : ι → Option β) : (fetch place : Reading ι β β).run part = part place := by
  rw [fetch, run]
  cases part place with
  | none => rfl
  | some b => rfl

/-- The value of one computation after another. -/
@[simp]
theorem eval_bind (r : Reading ι β α) (next : α → Reading ι β γ) :
    (r >>= next).eval mem = (next (r.eval mem)).eval mem := by
  induction r with
  | done value => rfl
  | read place rest ih => exact ih (mem place)

/-- One computation after another reads the places of both. -/
@[simp]
theorem offsets_bind (r : Reading ι β α) (next : α → Reading ι β γ) :
    (r >>= next).offsets mem = r.offsets mem ++ (next (r.eval mem)).offsets mem := by
  induction r with
  | done value => rfl
  | read place rest ih => exact congrArg (place :: ·) (ih (mem place))

/-- **The value of a computation** depends on nothing but what is at the places it reads. -/
theorem eval_congr {mem' : ι → β} (r : Reading ι β α)
    (hagree : ∀ i ∈ r.offsets mem, mem' i = mem i) : r.eval mem' = r.eval mem := by
  induction r with
  | done value => rfl
  | read place next ih =>
    have hplace : mem' place = mem place := hagree place List.mem_cons_self
    rw [eval, eval, hplace]
    exact ih (mem place) fun i hi => hagree i (List.mem_cons_of_mem place hi)

/-- **Without a gap at a place that is read**, a computation has its value. -/
theorem run_eq_some {part : ι → Option β} (r : Reading ι β α)
    (hpart : ∀ i ∈ r.offsets mem, part i = some (mem i)) : r.run part = some (r.eval mem) := by
  induction r with
  | done value => rfl
  | read place next ih =>
    have hplace : part place = some (mem place) := hpart place List.mem_cons_self
    rw [run, hplace]
    exact ih (mem place) fun i hi => hpart i (List.mem_cons_of_mem place hi)

/-- The run of one computation after another. -/
@[simp]
theorem run_bind (part : ι → Option β) (r : Reading ι β α) (next : α → Reading ι β γ) :
    (r >>= next).run part = (r.run part).bind fun value => (next value).run part := by
  induction r with
  | done value => rfl
  | read place rest ih =>
    show (read place fun b => (rest b).andThen next).run part = _
    simp only [run]
    cases part place with
    | none => rfl
    | some b => exact ih b

end Reading

end Reads
