import Mathlib.Data.List.Basic
import Mathlib.Data.List.Perm.Basic
import Mathlib.Data.Nat.Notation

/-!
# Ledgers

Things that are taken have to be given back, once.  A ledger is balanced if whatever was taken is
held by someone or has been given back, each thing in one place and once.  Things taken may be
numbered in the order of their taking.

## Main definitions

* `Balanced taken held returned`: the ledger is balanced

## Main results

* `balanced_take_iff`, `balanced_return_iff`: a thing is taken, or given back
* `balanced_surplus_iff`: a thing is given back that is not held any more
* `Balanced.eraseIdx`: one of several holders gives a thing back
* `balanced_congr_held`: who holds a thing does not matter
* `Balanced.not_lost`: a thing is lost
* `Balanced.perm_iff_of_surplus`: when nothing is held, and some things were given back twice
-/

namespace Ledger

variable {α : Type*} {taken held held' returned surplus : List α} {x : α} {n : ℕ}

/-- What was taken is held or has been given back, each thing once. -/
def Balanced (taken held returned : List α) : Prop := taken.Perm (held ++ returned)

theorem balanced_take_iff :
    Balanced (x :: taken) (x :: held) returned ↔ Balanced taken held returned :=
  List.perm_cons x

theorem balanced_return_iff :
    Balanced taken held (x :: returned) ↔ Balanced taken (x :: held) returned :=
  List.perm_middle.congr_right taken

theorem balanced_return_append_iff {l : List α} :
    Balanced taken held (l ++ returned) ↔ Balanced taken (l ++ held) returned := by
  rw [Balanced, Balanced, List.append_assoc]
  exact (List.perm_append_comm_assoc held l returned).congr_right taken

theorem balanced_congr_held (h : held.Perm held') :
    Balanced taken held returned ↔ Balanced taken held' returned :=
  (h.append_right returned).congr_right taken

theorem balanced_congr_taken {taken' : List α} (h : taken.Perm taken') :
    Balanced taken held returned ↔ Balanced taken' held returned :=
  h.congr_left _

/-- A thing of a list, and the others. -/
theorem perm_cons_eraseIdx {l : List α} {i : ℕ} (h : l[i]? = some x) :
    l.Perm (x :: l.eraseIdx i) := by
  obtain ⟨hi, rfl⟩ := List.getElem?_eq_some_iff.mp h
  exact (List.getElem_cons_eraseIdx_perm hi).symm

/-- One of those who hold things gives back the `i`-th that it has. -/
theorem Balanced.eraseIdx {others l : List α} {i : ℕ} (h : Balanced taken (others ++ l) returned)
    (hx : l[i]? = some x) : Balanced taken (others ++ l.eraseIdx i) (x :: returned) := by
  have hperm : (others ++ l).Perm (x :: (others ++ l.eraseIdx i)) :=
    ((perm_cons_eraseIdx hx).append_left others).trans List.perm_middle
  exact balanced_return_iff.mpr ((balanced_congr_held hperm).mp h)

/-- The next thing is taken. -/
theorem balanced_range_succ_iff {held returned surplus : List ℕ} :
    Balanced (List.range (n + 1) ++ surplus) (n :: held) returned ↔
      Balanced (List.range n ++ surplus) held returned := by
  have hperm : (List.range (n + 1) ++ surplus).Perm (n :: (List.range n ++ surplus)) := by
    rw [List.range_succ, List.append_assoc]
    exact List.perm_middle
  rw [balanced_congr_taken hperm, balanced_take_iff]

/-- A thing is given back, and nobody holds it. -/
theorem balanced_surplus_iff :
    Balanced (taken ++ x :: surplus) held (x :: returned) ↔
      Balanced (taken ++ surplus) held returned := by
  rw [balanced_return_iff, balanced_congr_taken List.perm_middle, balanced_take_iff]

/-- **A thing is lost** when it is not held any more and was not given back. -/
theorem Balanced.not_lost (h : Balanced taken (x :: held) returned) :
    ¬Balanced taken held returned := by
  intro hlost
  have hlength := (h.symm.trans hlost).length_eq
  simp at hlength

/-- **At the end**, when nothing is held, everything was given back once if there was no second
time. -/
theorem Balanced.perm_iff_of_surplus (h : Balanced (taken ++ surplus) [] returned) :
    taken.Perm returned ↔ surplus = [] := by
  constructor
  · intro hperm
    have hlength := h.length_eq
    rw [List.length_append, List.nil_append, ← hperm.length_eq] at hlength
    exact List.length_eq_zero_iff.mp (by omega)
  · rintro rfl
    simpa [Balanced] using h

end Ledger
