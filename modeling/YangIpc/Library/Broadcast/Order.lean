import YangIpc.Library.Broadcast.Accounting

/-!
# The order of a broadcast queue

The queue holds its items in the order of their publication.  Publications are numbered, and an
item bears the number of its latest publication; it is queued once at most, so no number changes
while the item waits.

## Main definitions

* `Ordered`: the numbers increase along the queue

## Main results

* `Ordered.step`: what one step preserves
* `Ordered.oldest`: what stands behind an item was published after it
-/

namespace Broadcast

variable {β ι κ α : Type*} {members : ι → Set κ} {valid : ι → Prop} {s s' : State β ι κ α}
  {ev : Event ι α}

/-- The publications increase along the queue, and all have happened. -/
structure Ordered (s : State β ι κ α) : Prop where
  sorted : (s.entries.map Entry.item).Pairwise fun a b => s.stamp a < s.stamp b
  begun : ∀ a ∈ s.entries.map Entry.item, s.stamp a < s.completed

namespace Ordered

theorem of_empty (h : s.entries = []) : Ordered s := by
  constructor <;> simp [h]

/-- Items leave the queue. -/
theorem shrink (h : Ordered s) (hstamp : s'.stamp = s.stamp)
    (hcompleted : s'.completed = s.completed)
    (hitems : (s'.entries.map Entry.item).Sublist (s.entries.map Entry.item)) : Ordered s' where
  sorted := by
    rw [hstamp]
    exact h.sorted.sublist hitems
  begun a ha := by
    rw [hstamp, hcompleted]
    exact h.begun a (hitems.subset ha)

/-- The item published last is the last one, and the others keep their numbers. -/
theorem publish [DecidableEq α] (h : Ordered s) (b : β) {a : α} {at' : α → Set κ}
    (fresh : ∀ e ∈ s.entries, e.item ≠ a) :
    Ordered { s with
      entries := s.entries ++ [⟨b, a, s.active, ∅, 0⟩]
      completed := s.completed + 1
      stamp := Function.update s.stamp a s.completed
      activeAt := at' } := by
  have hother : ∀ x ∈ s.entries.map Entry.item,
      Function.update s.stamp a s.completed x = s.stamp x := by
    intro x hx
    obtain ⟨e, he, rfl⟩ := List.mem_map.mp hx
    exact Function.update_of_ne (fresh e he) _ _
  constructor
  · rw [List.map_append, List.pairwise_append]
    refine ⟨?_, List.pairwise_singleton _ _, fun x hx y hy => ?_⟩
    · refine h.sorted.imp_of_mem fun {x y} hx hy hxy => ?_
      show Function.update s.stamp a s.completed x < Function.update s.stamp a s.completed y
      rw [hother x hx, hother y hy]
      exact hxy
    · obtain rfl : y = a := by simpa using hy
      show Function.update s.stamp y s.completed x < Function.update s.stamp y s.completed y
      rw [hother x hx, Function.update_self]
      exact h.begun x hx
  · intro x hx
    rw [List.map_append] at hx
    rcases List.mem_append.mp hx with hx | hx
    · show Function.update s.stamp a s.completed x < s.completed + 1
      rw [hother x hx]
      exact (h.begun x hx).trans (Nat.lt_succ_self _)
    · obtain rfl : x = a := by simpa using hx
      show Function.update s.stamp x s.completed x < s.completed + 1
      rw [Function.update_self]
      exact Nat.lt_succ_self _

variable [DecidableEq ι] [DecidableEq α]

/-- **One step keeps the order.** -/
theorem step (h : Ordered s) (hstep : Step members valid s ev s') : Ordered s' := by
  cases hstep with
  | publish b a fresh => exact h.publish b fresh
  | deliver i pre e post hs before waits hi => exact h.shrink rfl rfl (by simp [hs, Entry.take])
  | release i pre e post hs more => exact h.shrink rfl rfl (by simp [hs, Entry.drop])
  | releaseLast i pre e post hs last done => exact h.shrink rfl rfl (by simp [hs])
  | releaseMiss i a miss => exact h.shrink rfl rfl (.refl _)
  | discard pre e post hs unheld => exact h.shrink rfl rfl (by simp [hs])
  | register i => exact h.shrink rfl rfl (List.filter_sublist.map _)
  | unregister i => exact h.shrink rfl rfl (items_leave _ _)
  | clear => exact h.shrink rfl rfl (List.filter_sublist.map _)
  | idle => exact h

omit [DecidableEq ι] [DecidableEq α] in
/-- What stands behind an item was published after it. -/
theorem oldest (h : Ordered s) {pre post : List (Entry β κ α)} {e x : Entry β κ α}
    (hs : s.entries = pre ++ e :: post) (hx : x ∈ post) : s.stamp e.item < s.stamp x.item := by
  have hsorted := h.sorted
  simp only [hs, List.map_append, List.map_cons] at hsorted
  have htail := (List.pairwise_append.mp hsorted).2.1
  exact (List.pairwise_cons.mp htail).1 _ (List.mem_map_of_mem hx)

end Ordered

end Broadcast
