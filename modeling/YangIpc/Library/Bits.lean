import Mathlib.Data.Set.Lattice
import Mathlib.Data.Finset.Card
import Mathlib.Algebra.BigOperators.Group.Finset.Piecewise

/-!
# Bit vectors as sets

A bit vector used as a set of flags is read as the set of its bit positions.  Under this reading
the bitwise operations are the operations on sets, and the tests a program makes on masks are
statements about sets.

## Main definitions

* `bits x`: the positions of the bits set in `x`
* `countBelow k x`: how many of them are below `k`

## Main results

* `and_ne_zero_iff`, `and_eq_zero_iff`, `and_eq_right_iff`: the usual tests on masks
* `bits_injective`: a bit vector is determined by its positions
-/

namespace Bits

variable {w : ℕ} {x y : BitVec w} {i j : ℕ}

/-- The positions of the bits set in `x`. -/
def bits (x : BitVec w) : Set ℕ := {i | x.getLsbD i = true}

theorem mem_bits : i ∈ bits x ↔ x.getLsbD i = true := Iff.rfl

theorem lt_of_mem_bits (h : i ∈ bits x) : i < w := BitVec.lt_of_getLsbD h

@[simp] theorem bits_zero : bits (0#w) = ∅ := by
  ext i
  simp [mem_bits]

@[simp] theorem bits_and (x y : BitVec w) : bits (x &&& y) = bits x ∩ bits y := by
  ext i
  simp [mem_bits]

@[simp] theorem bits_or (x y : BitVec w) : bits (x ||| y) = bits x ∪ bits y := by
  ext i
  simp [mem_bits]

@[simp] theorem bits_and_not (x y : BitVec w) : bits (x &&& ~~~y) = bits x \ bits y := by
  ext i
  simp only [mem_bits, BitVec.getLsbD_and, BitVec.getLsbD_not, Set.mem_sdiff]
  by_cases hi : i < w
  · simp [hi]
  · simp [hi, BitVec.getLsbD_of_ge x i (by omega)]

theorem bits_injective : Function.Injective (bits (w := w)) := by
  intro x y h
  apply BitVec.eq_of_getLsbD_eq
  intro i _
  rw [Bool.eq_iff_iff]
  exact Set.ext_iff.mp h i

@[simp] theorem bits_eq_empty : bits x = ∅ ↔ x = 0#w := by
  rw [← bits_zero, bits_injective.eq_iff]

/-! ## The tests on masks -/

theorem and_eq_zero_iff : x &&& y = 0#w ↔ bits x ∩ bits y = ∅ := by
  rw [← bits_and, bits_eq_empty]

theorem and_ne_zero_iff : x &&& y ≠ 0#w ↔ (bits x ∩ bits y).Nonempty := by
  rw [Ne, and_eq_zero_iff, ← Ne, Set.nonempty_iff_ne_empty]

theorem and_eq_right_iff : x &&& y = y ↔ bits y ⊆ bits x := by
  rw [← bits_injective.eq_iff, bits_and, Set.inter_eq_right]

/-! ## Single bits -/

theorem bits_one_shiftLeft (h : i < w) : bits (1#w <<< i) = {i} := by
  ext j
  simp only [mem_bits, BitVec.getLsbD_shiftLeft, BitVec.getLsbD_one, Set.mem_singleton_iff]
  by_cases hj : j = i
  · subst hj
    simp [h]
    omega
  · simp only [hj, iff_false, Bool.not_eq_true]
    by_cases hlt : j < i
    · simp [hlt]
    · simp [show ¬(j - i = 0) by omega]

theorem and_one_shiftLeft_ne_zero_iff (h : i < w) : x &&& (1#w <<< i) ≠ 0#w ↔ i ∈ bits x := by
  rw [and_ne_zero_iff, bits_one_shiftLeft h, Set.inter_singleton_nonempty]

/-! ## Counting -/

/-- The number of bits set below position `k`. -/
def countBelow (k : ℕ) (x : BitVec w) : ℕ := ((Finset.range k).filter fun i => x.getLsbD i).card

@[simp] theorem countBelow_zero_right (k : ℕ) : countBelow k (0#w) = 0 := by
  simp [countBelow]

/-- The lowest bit is counted on its own and the rest after a shift. -/
theorem countBelow_succ (k : ℕ) (x : BitVec w) :
    countBelow (k + 1) x = (x.getLsbD 0).toNat + countBelow k (x >>> 1) := by
  simp only [countBelow, Finset.card_filter]
  rw [Finset.sum_range_succ', add_comm]
  congr 1
  · cases x.getLsbD 0 <;> rfl
  · apply Finset.sum_congr rfl
    intro i _
    rw [BitVec.getLsbD_ushiftRight, add_comm 1 i]

/-- A set of positions of set bits has no more elements than there are set bits. -/
theorem card_le_countBelow {n : ℕ} {s : Finset (Fin n)} (h : ∀ i ∈ s, (i : ℕ) ∈ bits x) :
    s.card ≤ countBelow w x := by
  refine Finset.card_le_card_of_injOn (fun i => (i : ℕ)) (fun i hi => ?_) fun i _ j _ hij =>
    Fin.ext hij
  simp only [Finset.coe_filter, Finset.mem_range, Set.mem_ofPred_eq]
  exact ⟨lt_of_mem_bits (h i hi), h i hi⟩

end Bits
