import Mathlib.Data.List.Basic
import Mathlib.Data.Nat.Notation

/-!
# The growable vector

The vector of pointers of `YangVector.h`.  An operation that would access memory outside of the
array is `none`.

## Main definitions

* `YangVector`, `YangVector.insert`, `YangVector.remove`, `YangVector.clear`: the vector
* `YangVector.Valid`, `YangVector.contents`: its invariant, and the list it stands for

## Main results

* `YangVector.insert_spec`, `YangVector.remove_spec`, `YangVector.set_spec`: what the operations do
  to that list
-/

namespace YangIpc

namespace Signalling

/-- The vector of `yang_vector_declare2`: an array of pointers, of which some may be null. -/
structure YangVector (α : Type) where
  capacity : ℕ
  vsize : ℕ
  payload : List (Option α)
deriving DecidableEq, Repr

namespace YangVector

variable {α : Type} {vec : YangVector α} {a : α} {i : ℕ}

/-- `yang_create`. -/
def create : YangVector α := ⟨5, 0, .replicate 5 none⟩

/-- A write to an element. -/
def set (vec : YangVector α) (i : ℕ) (value : Option α) : Option (YangVector α) :=
  if i < vec.payload.length then some { vec with payload := vec.payload.set i value } else none

/-- A new array with five more elements, into which the `vsize` first ones are copied. -/
def grow (vec : YangVector α) : Option (YangVector α) :=
  if vec.vsize ≤ vec.payload.length ∧ vec.vsize ≤ vec.capacity + 5 then
    some { vec with
      capacity := vec.capacity + 5
      payload := vec.payload.take vec.vsize ++ .replicate (vec.capacity + 5 - vec.vsize) none }
  else none

/-- `yang_insert`: a null value only makes room. -/
def insert (vec : YangVector α) (value : Option α) : Option (YangVector α) := do
  let vec ← if vec.capacity ≤ vec.vsize then vec.grow else some vec
  match value with
  | none => some vec
  | some a =>
    let vec ← vec.set vec.vsize (some a)
    some { vec with vsize := vec.vsize + 1 }

/-- `yang_clear`. -/
def clear (vec : YangVector α) : Option (YangVector α) :=
  if vec.capacity ≤ vec.payload.length then
    some { vec with
      vsize := 0
      payload := .replicate vec.capacity none ++ vec.payload.drop vec.capacity }
  else none

/-- `yang_remove`, at an index that is not negative: the elements behind it are moved. -/
def remove (vec : YangVector α) (index : ℕ) : Option (YangVector α) :=
  if vec.vsize = 0 ∨ vec.vsize ≤ index then some vec
  else if vec.vsize = 1 then vec.clear
  else if vec.vsize = index + 1 then some { vec with vsize := vec.vsize - 1 }
  else if vec.vsize ≤ vec.payload.length then
    some { vec with
      vsize := vec.vsize - 1
      payload := vec.payload.take index ++
        (vec.payload.drop (index + 1)).take (vec.vsize - index - 1) ++
          vec.payload.drop (vec.vsize - 1) }
  else none

/-- The array has `capacity` elements, and at least `vsize`. -/
structure Valid (vec : YangVector α) : Prop where
  length_payload : vec.payload.length = vec.capacity
  vsize_le : vec.vsize ≤ vec.capacity

/-- The elements of the vector. -/
def contents (vec : YangVector α) : List (Option α) := vec.payload.take vec.vsize

theorem Valid.length_contents (h : vec.Valid) : vec.contents.length = vec.vsize := by
  rw [contents, List.length_take, h.length_payload, Nat.min_eq_left h.vsize_le]

theorem valid_create : (create : YangVector α).Valid := ⟨rfl, Nat.zero_le 5⟩

/-- The elements are those of the array. -/
theorem getElem?_contents (h : i < vec.vsize) : vec.payload[i]? = vec.contents[i]? := by
  rw [contents, List.getElem?_take_of_lt h]

/-- A write to an element of the vector. -/
theorem set_spec (h : vec.Valid) (hi : i < vec.vsize) (value : Option α) :
    ∃ vec', vec.set i value = some vec' ∧ vec'.Valid ∧
      vec'.contents = vec.contents.set i value := by
  refine ⟨{ vec with payload := vec.payload.set i value }, ?_, ⟨?_, h.vsize_le⟩, ?_⟩
  · rw [set, if_pos (by rw [h.length_payload]; exact Nat.lt_of_lt_of_le hi h.vsize_le)]
  · rw [List.length_set, h.length_payload]
  · rw [contents, contents, List.take_set]

/-- A new array holds the same elements, and has room for one more. -/
theorem grow_spec (h : vec.Valid) :
    ∃ vec', vec.grow = some vec' ∧ vec'.Valid ∧ vec'.vsize < vec'.capacity ∧
      vec'.vsize = vec.vsize ∧ vec'.contents = vec.contents := by
  obtain ⟨hlength, hle⟩ := h
  have htake : (vec.payload.take vec.vsize).length = vec.vsize := by
    rw [List.length_take, hlength, Nat.min_eq_left hle]
  refine ⟨_, if_pos ⟨hlength ▸ hle, Nat.le_add_right_of_le hle⟩, ⟨?_, ?_⟩, ?_, rfl, ?_⟩
  · simp only [List.length_append, htake, List.length_replicate]
    omega
  · exact Nat.le_add_right_of_le hle
  · show vec.vsize < vec.capacity + 5
    omega
  · exact List.take_left' htake

/-- An element is written behind the others. -/
theorem push_spec (h : vec.Valid) (hroom : vec.vsize < vec.capacity) (a : α) :
    ∃ vec', vec.set vec.vsize (some a) = some vec' ∧
      Valid { vec' with vsize := vec'.vsize + 1 } ∧
      contents { vec' with vsize := vec'.vsize + 1 } = vec.contents ++ [some a] := by
  have hlt : vec.vsize < vec.payload.length := h.length_payload ▸ hroom
  refine ⟨_, if_pos hlt, ⟨?_, hroom⟩, ?_⟩
  · simp only [List.length_set, h.length_payload]
  · simp only [contents]
    rw [List.take_add_one, List.getElem?_set_self hlt, List.take_set, List.set_eq_of_length_le]
    · rfl
    · exact List.length_take_le _ _

/-- **A new element comes last.** -/
theorem insert_spec (h : vec.Valid) (a : α) :
    ∃ vec', vec.insert (some a) = some vec' ∧ vec'.Valid ∧
      vec'.contents = vec.contents ++ [some a] := by
  by_cases hfull : vec.capacity ≤ vec.vsize
  · obtain ⟨grown, hgrow, hvalid, hroom, hvsize, hcontents⟩ := grow_spec h
    obtain ⟨vec', hset, hvalid', hcontents'⟩ := push_spec hvalid hroom a
    refine ⟨_, ?_, hvalid', hcontents ▸ hcontents'⟩
    rw [insert, if_pos hfull, hgrow]
    show (grown.set grown.vsize (some a)).bind _ = _
    rw [hset]
    rfl
  · obtain ⟨vec', hset, hvalid, hcontents⟩ := push_spec h (Nat.not_le.mp hfull) a
    refine ⟨_, ?_, hvalid, hcontents⟩
    rw [insert, if_neg hfull]
    show (vec.set vec.vsize (some a)).bind _ = _
    rw [hset]
    rfl

/-- Clearing leaves no element. -/
theorem clear_spec (h : vec.Valid) :
    ∃ vec', vec.clear = some vec' ∧ vec'.Valid ∧ vec'.contents = [] := by
  refine ⟨_, if_pos (Nat.le_of_eq h.length_payload.symm), ⟨?_, Nat.zero_le _⟩, rfl⟩
  simp [h.length_payload]

/-- **A removal erases one element**, if there is one at the index. -/
theorem remove_spec (h : vec.Valid) (index : ℕ) :
    ∃ vec', vec.remove index = some vec' ∧ vec'.Valid ∧
      vec'.contents = vec.contents.eraseIdx index := by
  have hcontents := h.length_contents
  have hclear := clear_spec h
  obtain ⟨hlength, hle⟩ := h
  unfold remove
  by_cases hnone : vec.vsize = 0 ∨ vec.vsize ≤ index
  · rw [if_pos hnone]
    refine ⟨vec, rfl, ⟨hlength, hle⟩, (List.eraseIdx_of_length_le ?_).symm⟩
    omega
  rw [if_neg hnone]
  by_cases hone : vec.vsize = 1
  · -- the whole array is cleared
    rw [if_pos hone]
    obtain ⟨vec', hclear, hvalid, hnil⟩ := hclear
    refine ⟨vec', hclear, hvalid, hnil.trans (List.length_eq_zero_iff.mp ?_).symm⟩
    rw [List.length_eraseIdx_of_lt (by omega), hcontents, hone]
  rw [if_neg hone, contents, List.eraseIdx_eq_take_drop_succ, List.take_take]
  rw [Nat.min_eq_left (by omega : index ≤ vec.vsize), List.drop_take]
  by_cases hlast : vec.vsize = index + 1
  · rw [if_pos hlast]
    refine ⟨_, rfl, ⟨hlength, by simp only; omega⟩, ?_⟩
    rw [contents, hlast, Nat.sub_self, List.take_zero, List.append_nil, Nat.add_sub_cancel]
  · rw [if_neg hlast, if_pos (hlength ▸ hle)]
    refine ⟨_, rfl, ⟨?_, by simp only; omega⟩, ?_⟩
    · simp only [List.length_append, List.length_take, List.length_drop, hlength]
      omega
    · rw [contents, Nat.sub_sub]
      apply List.take_left'
      simp only [List.length_append, List.length_take, List.length_drop, hlength]
      omega

end YangVector

end Signalling

end YangIpc
