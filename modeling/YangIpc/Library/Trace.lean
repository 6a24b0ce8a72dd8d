import Mathlib.Data.List.Induction

/-!
# Traces and monitors

A trace is the list of the events of a run, in their order.  A monitor is a state that follows a
trace event by event; a property of events with their past holds along a trace if it holds of every
event and the trace before it.

## Main definitions

* `observe step init l`: the state of a monitor behind a trace
* `Always P l`: every event has the property, with the trace before it

## Main results

* `observe_snoc`, `always_snoc`: one more event
* `Always.append`: events whose past does not matter
* `observe_neutral`: events that a monitor ignores
-/

namespace Trace

variable {α β : Type*} {step : β → α → β} {init : β} {l l' : List α} {a : α}
  {P : List α → α → Prop}

/-- The state of a monitor behind a trace. -/
def observe (step : β → α → β) (init : β) (l : List α) : β := l.foldl step init

@[simp] theorem observe_nil : observe step init [] = init := rfl

theorem observe_append : observe step init (l ++ l') = l'.foldl step (observe step init l) :=
  List.foldl_append

@[simp] theorem observe_snoc : observe step init (l ++ [a]) = step (observe step init l) a :=
  observe_append

/-- A monitor that ignores some events where it is, stays there. -/
theorem observe_neutral (h : ∀ a ∈ l', step (observe step init l) a = observe step init l) :
    observe step init (l ++ l') = observe step init l := by
  rw [observe_append]
  generalize observe step init l = b at h ⊢
  induction l' with
  | nil => rfl
  | cons a rest ih =>
    rw [List.foldl_cons, h a List.mem_cons_self]
    exact ih fun c hc => h c (List.mem_cons_of_mem a hc)

/-- Every event has the property, with the trace before it. -/
def Always (P : List α → α → Prop) (l : List α) : Prop := ∀ l₁ a l₂, l = l₁ ++ a :: l₂ → P l₁ a

theorem always_nil : Always P [] := fun l₁ a l₂ h => by simp at h

theorem always_snoc : Always P (l ++ [a]) ↔ Always P l ∧ P l a := by
  constructor
  · intro h
    refine ⟨fun l₁ b l₂ hl => h l₁ b (l₂ ++ [a]) (by simp [hl]), h l a [] rfl⟩
  · rintro ⟨hl, ha⟩ l₁ b l₂ heq
    rcases List.eq_nil_or_concat l₂ with rfl | ⟨l₃, c, rfl⟩
    · obtain ⟨rfl, hab⟩ := List.append_inj' heq rfl
      exact (List.cons.inj hab).1 ▸ ha
    · have hsplit : l ++ [a] = (l₁ ++ b :: l₃) ++ [c] := by simpa using heq
      exact hl l₁ b l₃ (List.append_inj' hsplit rfl).1

/-- Events that have the property whatever the trace before them is. -/
theorem Always.append (h : Always P l) (h' : ∀ a ∈ l', ∀ l, P l a) : Always P (l ++ l') := by
  induction l' using List.reverseRecOn with
  | nil => simpa using h
  | append_singleton l' a ih =>
    rw [← List.append_assoc]
    refine always_snoc.mpr ⟨ih fun b hb => h' b (List.mem_append_left _ hb), ?_⟩
    exact h' a (List.mem_append_right _ (List.mem_singleton_self a)) _

end Trace
