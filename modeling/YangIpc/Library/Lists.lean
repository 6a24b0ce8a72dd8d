import Mathlib.Data.List.Nodup
import Mathlib.Data.List.Perm.Basic
import Mathlib.Logic.Function.Basic

/-!
# Moving elements between two lists

Two disjoint lists `a` and `b` hold the elements of a fixed collection, each with a value given
by a function.  An element is moved by erasing it from one list and adding it to an end of the
other; the collection `a ++ b` stays the same up to order.

## Main results

* `perm_move_tail`, `perm_move_head`, `perm_move_back`: moves keep the collection
* `map_update_of_notMem`, `map_update_split`: the values along a list when one value changes
* `find?_split`: the first element with a property splits the list
* `mem_split`: the elements of a split list
-/

namespace Lists

variable {α β : Type*}

section Moves

variable [DecidableEq α] {a b : List α} {x : α}

theorem perm_move_tail (h : x ∈ b) : ((a ++ [x]) ++ b.erase x).Perm (a ++ b) := by
  rw [List.append_assoc]
  exact (List.perm_cons_erase h).symm.append_left a

theorem perm_move_head (h : x ∈ b) : ((x :: a) ++ b.erase x).Perm (a ++ b) := by
  refine List.Perm.trans ?_ (perm_move_tail h)
  have hswap : ([x] ++ a).Perm (a ++ [x]) := List.perm_append_comm
  exact hswap.append_right _

theorem perm_move_back (h : x ∈ a) : (a.erase x ++ (b ++ [x])).Perm (a ++ b) := by
  have hb : (a.erase x ++ (b ++ [x])).Perm (b ++ [x] ++ a.erase x) := List.perm_append_comm
  exact (hb.trans (perm_move_tail h)).trans List.perm_append_comm

theorem perm_take_out (h : x ∈ b) : (x :: (a ++ b.erase x)).Perm (a ++ b) :=
  perm_move_head h

end Moves

section Values

variable {γ : Type*} [DecidableEq α] {g : α → β → γ} {v : α → β} {x : α} {y : β}

theorem map_update_of_notMem {l : List α} (h : x ∉ l) :
    l.map (fun z => g z (Function.update v x y z)) = l.map fun z => g z (v z) := by
  refine List.map_congr_left fun z hz => congrArg (g z) (Function.update_of_ne ?_ _ _)
  rintro rfl
  exact h hz

/-- The values along a list without repetitions, when the value of one element changes. -/
theorem map_update_split {l₁ l₂ : List α} (h : (l₁ ++ x :: l₂).Nodup) :
    (l₁ ++ x :: l₂).map (fun z => g z (Function.update v x y z)) =
      l₁.map (fun z => g z (v z)) ++ g x y :: l₂.map fun z => g z (v z) := by
  rw [List.nodup_append] at h
  have h₁ : x ∉ l₁ := fun hx => h.2.2 x hx x (by simp) rfl
  have h₂ : x ∉ l₂ := (List.nodup_cons.mp h.2.1).1
  simp [map_update_of_notMem h₁, map_update_of_notMem h₂]

theorem erase_split {l₁ l₂ : List α} (h : (l₁ ++ x :: l₂).Nodup) :
    (l₁ ++ x :: l₂).erase x = l₁ ++ l₂ := by
  rw [List.nodup_append] at h
  have h₁ : x ∉ l₁ := fun hx => h.2.2 x hx x (by simp) rfl
  rw [List.erase_append_right _ h₁, List.erase_cons_head]

end Values

/-- An element of a split list is the one in the middle, or one of the others. -/
theorem mem_split {l₁ l₂ : List α} {x y : α} : y ∈ l₁ ++ x :: l₂ ↔ y = x ∨ y ∈ l₁ ++ l₂ := by
  simp [or_left_comm]

/-- The first element with a property splits the list, nothing before it having the property. -/
theorem find?_split {p : α → Bool} {l : List α} {x : α} (h : l.find? p = some x) :
    p x = true ∧ ∃ l₁ l₂, l = l₁ ++ x :: l₂ ∧ ∀ y ∈ l₁, p y = false := by
  obtain ⟨hx, l₁, l₂, rfl, hn⟩ := List.find?_eq_some_iff_append.mp h
  exact ⟨hx, l₁, l₂, rfl, fun y hy => by simpa using hn y hy⟩

end Lists
