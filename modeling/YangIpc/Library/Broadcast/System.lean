import Mathlib.Data.Set.Lattice
import Mathlib.Data.Finset.Insert
import Mathlib.Data.Finset.Erase
import Mathlib.Logic.Function.Basic

/-!
# A broadcast queue with dynamic consumers

Items are published to every active consumer.  A consumer takes the oldest item that still waits
for it and later releases it; an item stays queued until everyone it was meant for has seen it
and nobody holds it.  Consumers join and leave at any time.

A consumer `i : ι` stands for a set `members i` of members; usually that is one member.  A place
in the queue (`slot`) is told apart from the item in it, so that one can say that an item stays
where it is.  The state carries a history: who holds what, the number of each publication, and
what each consumer has been given since it joined.

## Main definitions

* `Entry`, `State`: the queue and its history
* `Step`: the transition system
-/

namespace Broadcast

/-- A published item: its place, the members it is meant for, those that have seen it, and the
number of its holders. -/
structure Entry (β κ α : Type*) where
  slot : β
  item : α
  wanted : Set κ
  seen : Set κ
  refs : ℕ

/-- The queue, oldest item first, and the history of its clients. -/
structure State (β ι κ α : Type*) where
  active : Set κ
  entries : List (Entry β κ α)
  /-- `(i, a)`: the consumer `i` was given `a` and has not released it. -/
  holds : Finset (ι × α)
  /-- The number of publications. -/
  completed : ℕ
  /-- The number of the latest publication of an item. -/
  stamp : α → ℕ
  /-- The active members at that publication. -/
  activeAt : α → Set κ
  /-- The number of publications when a consumer joined. -/
  since : ι → ℕ
  /-- The publications a consumer has been given since it joined. -/
  delivered : ι → List ℕ

variable {β ι κ α : Type*}

namespace Entry

/-- The members an item still waits for. -/
def pending (e : Entry β κ α) : Set κ := e.wanted \ e.seen

/-- The item is meant for the consumer, which has seen nothing of it. -/
def Waits (e : Entry β κ α) (g : Set κ) : Prop := (e.wanted ∩ g).Nonempty ∧ e.seen ∩ g = ∅

/-- Every member the item is meant for has seen it. -/
def Done (e : Entry β κ α) : Prop := e.wanted ⊆ e.seen

/-- A consumer takes the item. -/
def take (e : Entry β κ α) (g : Set κ) : Entry β κ α :=
  { e with seen := e.seen ∪ g, refs := e.refs + 1 }

/-- A holder releases the item. -/
def drop (e : Entry β κ α) : Entry β κ α := { e with refs := e.refs - 1 }

/-- The item is no longer meant for a consumer. -/
def forget (e : Entry β κ α) (g : Set κ) : Entry β κ α := { e with wanted := e.wanted \ g }

open Classical in
/-- What becomes of the item when a consumer leaves. -/
noncomputable def leave (g : Set κ) (e : Entry β κ α) : Option (Entry β κ α) :=
  if e.Waits g then
    if e.refs = 0 ∧ (e.forget g).Done then none else some (e.forget g)
  else some e

theorem waits_singleton {e : Entry β κ α} {k : κ} : e.Waits {k} ↔ k ∈ e.pending := by
  simp [Waits, pending]

theorem done_iff {e : Entry β κ α} : e.Done ↔ e.pending = ∅ := by
  simp [Done, pending, Set.sdiff_eq_empty]

@[simp] theorem pending_drop (e : Entry β κ α) : e.drop.pending = e.pending := rfl

@[simp] theorem done_drop {e : Entry β κ α} : e.drop.Done ↔ e.Done := Iff.rfl

theorem mem_pending_take {e : Entry β κ α} {g : Set κ} {k : κ} :
    k ∈ (e.take g).pending ↔ k ∈ e.pending ∧ k ∉ g := by
  simp only [pending, take, Set.mem_sdiff, Set.mem_union, not_or]
  exact and_assoc.symm

theorem mem_pending_forget {e : Entry β κ α} {g : Set κ} {k : κ} :
    k ∈ (e.forget g).pending ↔ k ∈ e.pending ∧ k ∉ g := by
  simp only [pending, forget, Set.mem_sdiff]
  tauto

/-- The three things that can become of an item when a consumer leaves. -/
theorem leave_cases (g : Set κ) (e : Entry β κ α) :
    (e.Waits g ∧ e.refs = 0 ∧ (e.forget g).Done ∧ e.leave g = none) ∨
      (e.Waits g ∧ (e.refs = 0 → ¬(e.forget g).Done) ∧ e.leave g = some (e.forget g)) ∨
      (¬e.Waits g ∧ e.leave g = some e) := by
  unfold leave
  by_cases hw : e.Waits g
  · by_cases hd : e.refs = 0 ∧ (e.forget g).Done
    · exact .inl ⟨hw, hd.1, hd.2, by rw [if_pos hw, if_pos hd]⟩
    · exact .inr (.inl ⟨hw, fun h0 hd' => hd ⟨h0, hd'⟩, by rw [if_pos hw, if_neg hd]⟩)
  · exact .inr (.inr ⟨hw, by rw [if_neg hw]⟩)

/-- An item that stays waits as before, but for the consumer that leaves. -/
theorem mem_pending_of_leave {e e' : Entry β κ α} {k m : κ} (h : e.leave {k} = some e')
    (hm : m ∈ e'.pending) : m ∈ e.pending ∧ m ≠ k := by
  rcases leave_cases {k} e with ⟨-, -, -, hl⟩ | ⟨-, -, hl⟩ | ⟨hw, hl⟩ <;> rw [hl] at h
  · exact absurd h.symm (Option.some_ne_none e')
  · obtain rfl := Option.some.inj h
    exact mem_pending_forget.mp hm
  · obtain rfl := Option.some.inj h
    refine ⟨hm, ?_⟩
    rintro rfl
    exact hw (waits_singleton.mpr hm)

end Entry

/-! ## The transition system -/

/-- What happens to the queue. -/
inductive Event (ι α : Type*)
  | publish (a : α)
  | deliver (i : ι) (a : α)
  | release (i : ι) (a : α)
  | discard (a : α)
  | register (i : ι)
  | unregister (i : ι)
  | clear
  | idle

section System

variable (members : ι → Set κ) (valid : ι → Prop) [DecidableEq ι] [DecidableEq α]

open Classical in
/-- A consumer joins: items meant for nobody and held by nobody are dropped, and a registration
period begins if the consumer was not active. -/
noncomputable def State.join (s : State β ι κ α) (i : ι) : State β ι κ α :=
  { s with
    active := s.active ∪ members i
    entries := s.entries.filter fun e => ¬(e.wanted = ∅ ∧ e.refs = 0)
    since := if s.active ∩ members i = ∅ then Function.update s.since i s.completed else s.since
    delivered :=
      if s.active ∩ members i = ∅ then Function.update s.delivered i [] else s.delivered }

/-- The steps of a broadcast queue. -/
inductive Step : State β ι κ α → Event ι α → State β ι κ α → Prop
  | publish (s : State β ι κ α) (b : β) (a : α) (fresh : ∀ e ∈ s.entries, e.item ≠ a) :
      Step s (.publish a)
        { s with
          entries := s.entries ++ [⟨b, a, s.active, ∅, 0⟩]
          completed := s.completed + 1
          stamp := Function.update s.stamp a s.completed
          activeAt := Function.update s.activeAt a s.active }
  | deliver (s : State β ι κ α) (i : ι) (pre : List (Entry β κ α)) (e : Entry β κ α)
      (post : List (Entry β κ α)) (hs : s.entries = pre ++ e :: post)
      (before : ∀ x ∈ pre, ¬x.Waits (members i)) (waits : e.Waits (members i)) (hi : valid i) :
      Step s (.deliver i e.item)
        { s with
          entries := pre ++ e.take (members i) :: post
          holds := insert (i, e.item) s.holds
          delivered := Function.update s.delivered i (s.delivered i ++ [s.stamp e.item]) }
  | release (s : State β ι κ α) (i : ι) (pre : List (Entry β κ α)) (e : Entry β κ α)
      (post : List (Entry β κ α)) (hs : s.entries = pre ++ e :: post)
      (more : ¬(e.drop.refs = 0 ∧ e.Done)) :
      Step s (.release i e.item)
        { s with entries := pre ++ e.drop :: post, holds := s.holds.erase (i, e.item) }
  | releaseLast (s : State β ι κ α) (i : ι) (pre : List (Entry β κ α)) (e : Entry β κ α)
      (post : List (Entry β κ α)) (hs : s.entries = pre ++ e :: post)
      (last : e.drop.refs = 0) (done : e.Done) :
      Step s (.release i e.item)
        { s with entries := pre ++ post, holds := s.holds.erase (i, e.item) }
  | releaseMiss (s : State β ι κ α) (i : ι) (a : α)
      (miss : (∀ e ∈ s.entries, e.item ≠ a) ∨ ¬valid i) :
      Step s (.release i a) { s with holds := s.holds.erase (i, a) }
  | discard (s : State β ι κ α) (pre : List (Entry β κ α)) (e : Entry β κ α)
      (post : List (Entry β κ α)) (hs : s.entries = pre ++ e :: post) (unheld : e.refs = 0) :
      Step s (.discard e.item) { s with entries := pre ++ post }
  | register (s : State β ι κ α) (i : ι) : Step s (.register i) (s.join members i)
  | unregister (s : State β ι κ α) (i : ι) :
      Step s (.unregister i)
        { s with
          active := s.active \ members i
          entries := s.entries.filterMap (Entry.leave (members i)) }
  | clear (s : State β ι κ α) :
      Step s .clear { s with entries := s.entries.filter fun e => e.refs ≠ 0 }
  | idle (s : State β ι κ α) : Step s .idle s

end System

end Broadcast
