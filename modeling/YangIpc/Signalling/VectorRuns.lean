import Mathlib.Algebra.Order.Ring.Nat
import Mathlib.Data.List.InsertIdx
import YangIpc.Library.Blocks
import YangIpc.Library.Run
import YangIpc.Signalling.Vector

/-!
# Runs of the growable vector

The functions of `yang_vector_impl2` with the numbers of the machine: `capacity` and `vsize` are
`int32_t`, sizes and offsets in bytes are computed in `size_t`.  An access outside of the array is
`none`.

## Main definitions

* `Platform`: the size of a pointer, and the sizes in bytes that follow from it
* `XVector.create`, `XVector.insert`, `XVector.remove`, `XVector.clear`: the functions
* `XVector.Represents`: the invariant, with the list that a vector stands for
* `VectorCall.exec`, `VectorCall.onList`: a call on the vector, and on the list
* `VectorCall.Promised`: what is promised of a call

## Main results

* `XVector.grow_toVector`, `XVector.clear_toVector`, `XVector.remove_toVector`: the functions do
  what those of `YangVector` do without the bounds of the machine
* `XVector.insert_represents`, `XVector.remove_represents`, `XVector.clear_represents`: what they do
  to the list
* `XVector.runs_refine_lists`: every run of the vector is a run of the list, and no access leaves
  the array
-/

namespace YangIpc

namespace Signalling

open Blocks Transition

/-- A flat address space: a `size_t` has the size of a pointer. -/
structure Platform where
  ptrSize : ℕ
  ptrSize_pos : 0 < ptrSize

namespace Platform

variable (plat : Platform)

/-- The number of values of a `size_t`. -/
def sizeMax : ℕ := 256 ^ plat.ptrSize

/-- An `int32_t` as a `size_t`. -/
def toSize (n : Int32) : ℕ := (n.toInt % plat.sizeMax).toNat

/-- `n * sizeof(x*)`. -/
def bytes (n : Int32) : ℕ := plat.toSize n * plat.ptrSize % plat.sizeMax

/-- `yang_calloc`: an array of null pointers. -/
def calloc (α : Type) (b : ℕ) : List (Option α) := .replicate (b / plat.ptrSize) none

variable {plat} {n : Int32}

theorem lt_sizeMax : 15 * plat.ptrSize < plat.sizeMax := by
  obtain ⟨m, hm⟩ := Nat.exists_eq_add_of_lt plat.ptrSize_pos
  have hlt : m < 256 ^ m := Nat.lt_pow_self (by omega)
  rw [sizeMax, hm, Nat.zero_add, Nat.pow_succ]
  omega

/-- The bytes of so many elements, unless they exceed a `size_t`. -/
theorem bytes_eq (h : 0 ≤ n.toInt) (hlt : n.toInt.toNat * plat.ptrSize < plat.sizeMax) :
    plat.bytes n = n.toInt.toNat * plat.ptrSize := by
  have hn : n.toInt.toNat < plat.sizeMax :=
    Nat.lt_of_le_of_lt (Nat.le_mul_of_pos_right _ plat.ptrSize_pos) hlt
  have hsize : plat.toSize n = n.toInt.toNat := by
    rw [toSize, Int.emod_eq_of_lt h (by omega)]
  rw [bytes, hsize, Nat.mod_eq_of_lt hlt]

/-- An array of so many elements. -/
theorem calloc_mul {α : Type} (m : ℕ) :
    plat.calloc α (m * plat.ptrSize) = .replicate m none := by
  rw [calloc, Nat.mul_div_cancel m plat.ptrSize_pos]

end Platform

/-- The vector of `yang_vector_declare2`. -/
structure XVector (α : Type) where
  capacity : Int32
  vsize : Int32
  payload : List (Option α)
deriving DecidableEq

namespace XVector

variable {α : Type} (plat : Platform) (vec : XVector α)

/-- `yang_create`. -/
def create : XVector α := ⟨5, 0, plat.calloc α (plat.bytes 5)⟩

/-- `vec->payload[i] = value`. -/
def set (i : Int32) (value : Option α) : Option (XVector α) :=
  if 0 ≤ i.toInt ∧ i.toInt.toNat < vec.payload.length then
    some { vec with payload := vec.payload.set i.toInt.toNat value }
  else none

/-- The array is replaced by one with five more elements. -/
def grow : Option (XVector α) := do
  let tmp := plat.calloc α (plat.bytes (vec.capacity + 5))
  let tmp ← memcpy plat.ptrSize tmp vec.payload (plat.bytes vec.vsize)
  some { vec with capacity := vec.capacity + 5, payload := tmp }

/-- `yang_insert`. -/
def insert (value : Option α) : Option (XVector α) := do
  let vec ← if vec.capacity ≤ vec.vsize then vec.grow plat else some vec
  match value with
  | none => some vec
  | some a =>
    let vec ← vec.set vec.vsize (some a)
    some { vec with vsize := vec.vsize + 1 }

/-- `yang_clear`. -/
def clear : Option (XVector α) := do
  let payload ← memset plat.ptrSize vec.payload none (plat.bytes vec.capacity)
  some { vec with vsize := 0, payload }

/-- `yang_remove`. -/
def remove (index : Int32) : Option (XVector α) :=
  if vec.vsize = 0 ∨ vec.vsize ≤ index then some vec
  else if vec.vsize = 1 then vec.clear plat
  else do
    let payload ←
      if vec.vsize ≠ index + 1 then
        memmove plat.ptrSize vec.payload (plat.bytes index) (plat.bytes (index + 1))
          (plat.bytes (vec.vsize - index - 1))
      else some vec.payload
    some { vec with vsize := vec.vsize - 1, payload }

end XVector

namespace XVector

variable {α : Type} {plat : Platform} {vec : XVector α} {l : List α}

/-- Numbers that are not negative, without a bound. -/
def toVector (vec : XVector α) : YangVector α :=
  ⟨vec.capacity.toInt.toNat, vec.vsize.toInt.toNat, vec.payload⟩

/-- The vector stands for a list of elements, and its array has room for five more in the address
space. -/
structure Represents (plat : Platform) (vec : XVector α) (l : List α) : Prop where
  capacity_nonneg : 0 ≤ vec.capacity.toInt
  vsize_nonneg : 0 ≤ vec.vsize.toInt
  valid : vec.toVector.Valid
  contents : vec.toVector.contents = l.map some
  room : (vec.capacity.toInt.toNat + 5) * plat.ptrSize < plat.sizeMax

theorem Represents.length_payload (h : Represents plat vec l) :
    vec.payload.length = vec.capacity.toInt.toNat :=
  h.valid.length_payload

theorem Represents.vsize_le (h : Represents plat vec l) :
    vec.vsize.toInt.toNat ≤ vec.capacity.toInt.toNat :=
  h.valid.vsize_le

/-- The bytes of a part of the array. -/
theorem Represents.bytes_eq {n : Int32} (h : Represents plat vec l) (hn : 0 ≤ n.toInt)
    (hle : n.toInt.toNat ≤ vec.capacity.toInt.toNat + 5) :
    plat.bytes n = n.toInt.toNat * plat.ptrSize :=
  plat.bytes_eq hn (Nat.lt_of_le_of_lt (Nat.mul_le_mul_right _ hle) h.room)

/-- An addition that does not overflow. -/
theorem toInt_add {n m : Int32} (hle : -2147483648 ≤ n.toInt + m.toInt)
    (hlt : n.toInt + m.toInt < 2147483648) : (n + m).toInt = n.toInt + m.toInt := by
  rw [Int32.toInt_add]
  exact Int.bmod_eq_of_le (by omega) (by omega)

/-- A subtraction that does not overflow. -/
theorem toInt_sub {n m : Int32} (hle : -2147483648 ≤ n.toInt - m.toInt)
    (hlt : n.toInt - m.toInt < 2147483648) : (n - m).toInt = n.toInt - m.toInt := by
  rw [Int32.toInt_sub]
  exact Int.bmod_eq_of_le (by omega) (by omega)

theorem create_represents : Represents plat (create plat) ([] : List α) := by
  have hsize := plat.lt_sizeMax
  have hfive : plat.bytes 5 = 5 * plat.ptrSize :=
    plat.bytes_eq (n := 5) (by decide) (by rw [show (5 : Int32).toInt.toNat = 5 from rfl]; omega)
  have hvec : (create plat : XVector α).toVector = YangVector.create := by
    rw [toVector, create, hfive, plat.calloc_mul]
    rfl
  constructor
  · show (0 : ℤ) ≤ 5
    omega
  · exact Int.le_refl 0
  · rw [hvec]
    exact YangVector.valid_create
  · rw [hvec]
    rfl
  · show (5 + 5) * plat.ptrSize < plat.sizeMax
    omega

/-- The array is replaced as without the bounds of the machine. -/
theorem grow_toVector (h : Represents plat vec l) (hlt : vec.vsize.toInt < 2147483643)
    (hfull : vec.capacity ≤ vec.vsize) :
    ∃ vec', vec.grow plat = some vec' ∧ vec.toVector.grow = some vec'.toVector ∧
      vec'.vsize = vec.vsize ∧ vec'.capacity.toInt = vec.capacity.toInt + 5 ∧
      plat.bytes (vec.capacity + 5) = vec'.capacity.toInt.toNat * plat.ptrSize := by
  -- below `2 ^ 31 - 5` elements the new capacity does not overflow
  have hfive : (5 : Int32).toInt = 5 := rfl
  have hle := Int32.le_iff_toInt_le.mp hfull
  have hvsize := h.vsize_le
  have hcapacity := h.capacity_nonneg
  have hadd : (vec.capacity + 5).toInt = vec.capacity.toInt + 5 := toInt_add (by omega) (by omega)
  have hnew : (vec.capacity + 5).toInt.toNat = vec.capacity.toInt.toNat + 5 := by omega
  have hbytes : plat.bytes (vec.capacity + 5) = (vec.capacity.toInt.toNat + 5) * plat.ptrSize := by
    rw [h.bytes_eq (by omega) (by omega), hnew]
  have hcopied : plat.bytes vec.vsize = vec.vsize.toInt.toNat * plat.ptrSize :=
    h.bytes_eq h.vsize_nonneg (by omega)
  refine ⟨{ vec with
    capacity := vec.capacity + 5
    payload := vec.payload.take vec.vsize.toInt.toNat ++
      .replicate (vec.capacity.toInt.toNat + 5 - vec.vsize.toInt.toNat) none }, ?_, ?_, rfl, hadd,
    hbytes.trans (congrArg (· * plat.ptrSize) hnew.symm)⟩
  · -- the elements are copied to the start of the new array
    rw [grow, hbytes, hcopied, plat.calloc_mul, memcpy_mul plat.ptrSize_pos, List.drop_replicate]
    · rfl
    · rw [h.length_payload]
      exact hvsize
    · rw [List.length_replicate]
      omega
  · rw [YangVector.grow, if_pos]
    · simp only [toVector, hnew]
    · rw [h.valid.length_payload]
      exact ⟨hvsize, Nat.le_add_right_of_le hvsize⟩

/-- **A new array** holds the same elements, and has room for one more.  Both arrays fit into the
address space, so that no size in bytes is cut. -/
theorem grow_represents (h : Represents plat vec l) (hlt : vec.vsize.toInt < 2147483643)
    (hfull : vec.capacity ≤ vec.vsize)
    (hfits : vec.payload.length * plat.ptrSize + plat.bytes (vec.capacity + 5) ≤ plat.sizeMax) :
    ∃ vec', vec.grow plat = some vec' ∧ Represents plat vec' l ∧ vec'.vsize = vec.vsize ∧
      vec'.vsize.toInt.toNat < vec'.capacity.toInt.toNat := by
  obtain ⟨vec', hgrow, habstract, hvsize, hcapacity, hbytes⟩ := grow_toVector h hlt hfull
  obtain ⟨grown, heq, hvalid, hroom, -, hcontents⟩ := YangVector.grow_spec h.valid
  obtain rfl : grown = vec'.toVector := Option.some.inj (heq.symm.trans habstract)
  have hnonneg := h.capacity_nonneg
  refine ⟨vec', hgrow, ⟨by omega, ?_, hvalid, hcontents.trans h.contents, ?_⟩, hvsize, hroom⟩
  · rw [hvsize]
    exact h.vsize_nonneg
  · have hsize := plat.lt_sizeMax
    -- both arrays are in the address space, so it has room for five more elements
    have hnew : vec'.capacity.toInt.toNat = vec.capacity.toInt.toNat + 5 := by omega
    rw [hbytes, h.length_payload, hnew, Nat.add_mul] at hfits
    rw [hnew, Nat.add_mul, Nat.add_mul]
    omega

/-- An element is written behind the others. -/
theorem push_represents (h : Represents plat vec l) (hlt : vec.vsize.toInt < 2147483643)
    (hroom : vec.vsize.toInt.toNat < vec.capacity.toInt.toNat) (a : α) :
    ∃ vec', vec.set vec.vsize (some a) = some vec' ∧
      Represents plat { vec' with vsize := vec'.vsize + 1 } (l ++ [a]) := by
  have hnonneg := h.vsize_nonneg
  have hone : (1 : Int32).toInt = 1 := rfl
  have hadd : (vec.vsize + 1).toInt = vec.vsize.toInt + 1 := toInt_add (by omega) (by omega)
  have hnew : (vec.vsize + 1).toInt.toNat = vec.vsize.toInt.toNat + 1 := by omega
  have hslot : vec.toVector.vsize < vec.toVector.payload.length := by
    rw [h.valid.length_payload]
    exact hroom
  obtain ⟨pushed, hset, hvalid, hcontents⟩ := YangVector.push_spec h.valid hroom a
  rw [YangVector.set, if_pos hslot, Option.some.injEq] at hset
  subst hset
  refine ⟨_, if_pos ⟨hnonneg, hslot⟩, ⟨h.capacity_nonneg, ?_, ?_, ?_, h.room⟩⟩
  · show 0 ≤ (vec.vsize + 1).toInt
    omega
  · simp only [toVector, hnew]
    exact hvalid
  · simp only [toVector, hnew]
    rw [List.map_append, ← h.contents]
    exact hcontents

/-- **An insertion appends.** -/
theorem insert_represents (h : Represents plat vec l) (hlt : vec.vsize.toInt < 2147483643)
    (hfits : vec.capacity ≤ vec.vsize →
      vec.payload.length * plat.ptrSize + plat.bytes (vec.capacity + 5) ≤ plat.sizeMax) (a : α) :
    ∃ vec', vec.insert plat (some a) = some vec' ∧ Represents plat vec' (l ++ [a]) := by
  by_cases hfull : vec.capacity ≤ vec.vsize
  · obtain ⟨grown, hgrow, hgrown, hvsize, hroom⟩ := grow_represents h hlt hfull (hfits hfull)
    obtain ⟨vec', hset, hvec'⟩ := push_represents hgrown (hvsize ▸ hlt) hroom a
    refine ⟨_, ?_, hvec'⟩
    rw [insert, if_pos hfull, hgrow]
    show (grown.set grown.vsize (some a)).bind _ = _
    rw [hset]
    rfl
  · have hroom : vec.vsize.toInt.toNat < vec.capacity.toInt.toNat := by
      have := mt Int32.le_iff_toInt_le.mpr hfull
      have := h.vsize_nonneg
      omega
    obtain ⟨vec', hset, hvec'⟩ := push_represents h hlt hroom a
    refine ⟨_, ?_, hvec'⟩
    rw [insert, if_neg hfull]
    show (vec.set vec.vsize (some a)).bind _ = _
    rw [hset]
    rfl

/-- The whole array is cleared. -/
theorem clear_toVector (h : Represents plat vec l) :
    ∃ vec', vec.clear plat = some vec' ∧ vec.toVector.clear = some vec'.toVector ∧
      vec'.capacity = vec.capacity ∧ vec'.vsize = 0 := by
  have hle : vec.capacity.toInt.toNat ≤ vec.payload.length := Nat.le_of_eq h.length_payload.symm
  refine ⟨{ vec with
    vsize := 0
    payload := .replicate vec.capacity.toInt.toNat none ++
      vec.payload.drop vec.capacity.toInt.toNat }, ?_, if_pos hle, rfl, rfl⟩
  rw [clear, h.bytes_eq h.capacity_nonneg (by omega), memset_mul plat.ptrSize_pos hle]
  rfl

/-- **Clearing leaves no element.** -/
theorem clear_represents (h : Represents plat vec l) :
    ∃ vec', vec.clear plat = some vec' ∧ Represents plat vec' [] := by
  obtain ⟨vec', hclear, habstract, hcapacity, hvsize⟩ := clear_toVector h
  obtain ⟨cleared, heq, hvalid, hcontents⟩ := YangVector.clear_spec h.valid
  obtain rfl : cleared = vec'.toVector := Option.some.inj (heq.symm.trans habstract)
  refine ⟨vec', hclear, ⟨?_, ?_, hvalid, hcontents, ?_⟩⟩
  · rw [hcapacity]
    exact h.capacity_nonneg
  · rw [hvsize]
    exact Int.le_refl 0
  · rw [hcapacity]
    exact h.room

/-- The elements behind an index are moved by one. -/
theorem memmove_payload (h : Represents plat vec l) {index : Int32} (hindex : 0 ≤ index.toInt)
    (hlt : index.toInt + 1 < vec.vsize.toInt) :
    memmove plat.ptrSize vec.payload (plat.bytes index) (plat.bytes (index + 1))
        (plat.bytes (vec.vsize - index - 1)) =
      some (vec.payload.take index.toInt.toNat ++
        (vec.payload.drop (index.toInt.toNat + 1)).take
          (vec.vsize.toInt.toNat - index.toInt.toNat - 1) ++
            vec.payload.drop (vec.vsize.toInt.toNat - 1)) := by
  have hone : (1 : Int32).toInt = 1 := rfl
  have hvsize := h.vsize_le
  have hbound := vec.vsize.toInt_lt
  have hlength := h.length_payload
  have hadd : (index + 1).toInt = index.toInt + 1 := toInt_add (by omega) (by omega)
  have hdiff : (vec.vsize - index).toInt = vec.vsize.toInt - index.toInt :=
    toInt_sub (by omega) (by omega)
  have hsub : (vec.vsize - index - 1).toInt = vec.vsize.toInt - index.toInt - 1 := by
    rw [toInt_sub (by omega) (by omega), hdiff, hone]
  -- none of the three sizes is negative, so a `size_t` is the number itself
  have hcount : (vec.vsize - index - 1).toInt.toNat =
      vec.vsize.toInt.toNat - index.toInt.toNat - 1 := by omega
  have hnext : (index + 1).toInt.toNat = index.toInt.toNat + 1 := by omega
  rw [h.bytes_eq hindex (by omega), h.bytes_eq (n := index + 1) (by omega) (by omega),
    h.bytes_eq (n := vec.vsize - index - 1) (by omega) (by omega), hcount, hnext,
    memmove_mul plat.ptrSize_pos (by omega) (by omega)]
  congr 3
  omega

/-- An element is removed as without the bounds of the machine. -/
theorem remove_toVector (h : Represents plat vec l) {index : Int32} (hindex : 0 ≤ index.toInt) :
    ∃ vec', vec.remove plat index = some vec' ∧
      vec.toVector.remove index.toInt.toNat = some vec'.toVector ∧
      vec'.capacity = vec.capacity ∧ 0 ≤ vec'.vsize.toInt := by
  have hone : (1 : Int32).toInt = 1 := rfl
  have hzero : (0 : Int32).toInt = 0 := rfl
  have hnonneg := h.vsize_nonneg
  have hbound := vec.vsize.toInt_lt
  have hvsize : vec.toVector.vsize = vec.vsize.toInt.toNat := rfl
  -- each test has the same outcome on 32 bits and on natural numbers
  have hnoneIff : (vec.vsize = 0 ∨ vec.vsize ≤ index) ↔
      vec.toVector.vsize = 0 ∨ vec.toVector.vsize ≤ index.toInt.toNat := by
    rw [← Int32.toInt_inj, Int32.le_iff_toInt_le, hzero]
    omega
  unfold remove YangVector.remove
  by_cases hnone : vec.vsize = 0 ∨ vec.vsize ≤ index
  · rw [if_pos hnone]
    exact ⟨vec, rfl, if_pos (hnoneIff.mp hnone), rfl, hnonneg⟩
  have hnone' := mt hnoneIff.mpr hnone
  rw [if_neg hnone, if_neg hnone']
  have honeIff : vec.vsize = 1 ↔ vec.toVector.vsize = 1 := by
    rw [← Int32.toInt_inj, hone]
    omega
  by_cases hsingle : vec.vsize = 1
  · -- the special path for a single element
    rw [if_pos hsingle, if_pos (honeIff.mp hsingle)]
    obtain ⟨vec', hclear, habstract, hcapacity, hempty⟩ := clear_toVector h
    refine ⟨vec', hclear, habstract, hcapacity, ?_⟩
    rw [hempty]
    exact Int.le_refl 0
  rw [if_neg hsingle, if_neg (mt honeIff.mpr hsingle)]
  have hadd : (index + 1).toInt = index.toInt + 1 := toInt_add (by omega) (by omega)
  have hsub : (vec.vsize - 1).toInt = vec.vsize.toInt - 1 := toInt_sub (by omega) (by omega)
  have hnew : (vec.vsize - 1).toInt.toNat = vec.toVector.vsize - 1 := by omega
  have hlastIff : vec.vsize = index + 1 ↔ vec.toVector.vsize = index.toInt.toNat + 1 := by
    rw [← Int32.toInt_inj, hadd]
    omega
  have hnonneg' : 0 ≤ (vec.vsize - 1).toInt := by omega
  by_cases hlast : vec.vsize = index + 1
  · -- nothing is moved for the last element
    rw [if_neg (not_not.mpr hlast), if_pos (hlastIff.mp hlast)]
    refine ⟨{ vec with vsize := vec.vsize - 1 }, rfl, ?_, rfl, hnonneg'⟩
    simp only [toVector, hnew]
  · have hlast' := mt hlastIff.mpr hlast
    have hroom : vec.toVector.vsize ≤ vec.toVector.payload.length := by
      rw [h.valid.length_payload]
      exact h.valid.vsize_le
    rw [if_pos hlast, if_neg hlast', if_pos hroom, memmove_payload h hindex (by omega)]
    refine ⟨{ vec with vsize := vec.vsize - 1, payload := _ }, rfl, ?_, rfl, hnonneg'⟩
    simp only [toVector, hnew]

/-- **A removal erases an element.** -/
theorem remove_represents (h : Represents plat vec l) {index : Int32} (hindex : 0 ≤ index.toInt) :
    ∃ vec', vec.remove plat index = some vec' ∧
      Represents plat vec' (l.eraseIdx index.toInt.toNat) := by
  obtain ⟨vec', hremove, habstract, hcapacity, hnonneg⟩ := remove_toVector h hindex
  obtain ⟨removed, heq, hvalid, hcontents⟩ := YangVector.remove_spec h.valid index.toInt.toNat
  obtain rfl : removed = vec'.toVector := Option.some.inj (heq.symm.trans habstract)
  refine ⟨vec', hremove, ⟨?_, hnonneg, hvalid, ?_, ?_⟩⟩
  · rw [hcapacity]
    exact h.capacity_nonneg
  · rw [hcontents, h.contents, List.eraseIdx_map]
  · rw [hcapacity]
    exact h.room

end XVector

/-! ## Runs -/

/-- A call of one of the functions, with a value that is not `NULL`. -/
inductive VectorCall (α : Type)
  | create
  | insert (value : α)
  | remove (index : Int32)
  | clear

namespace VectorCall

variable {α : Type}

/-- A call on the vector. -/
def exec (plat : Platform) (vec : XVector α) : VectorCall α → Option (XVector α)
  | create => some (.create plat)
  | insert value => vec.insert plat (some value)
  | remove index => vec.remove plat index
  | clear => vec.clear plat

/-- A call on the list of the elements. -/
def onList (l : List α) : VectorCall α → List α
  | create => []
  | insert value => l ++ [value]
  | remove index => l.eraseIdx index.toInt.toNat
  | clear => []

/-- What is promised of a call: there are fewer than `2 ^ 31 - 5` elements, an index is not
negative, and an allocation succeeds: the new array and the old one are in the address space. -/
def Promised (plat : Platform) (vec : XVector α) (call : VectorCall α) : Prop :=
  vec.vsize.toInt < 2147483643 ∧
    match call with
    | insert _ => vec.capacity ≤ vec.vsize →
        vec.payload.length * plat.ptrSize + plat.bytes (vec.capacity + 5) ≤ plat.sizeMax
    | remove index => 0 ≤ index.toInt
    | create | clear => True

instance (plat : Platform) (vec : XVector α) (call : VectorCall α) :
    Decidable (call.Promised plat vec) :=
  match call with
  | insert _ => inferInstanceAs (Decidable (_ ∧ (_ → _)))
  | remove _ => inferInstanceAs (Decidable (_ ∧ _))
  | create => inferInstanceAs (Decidable (_ ∧ True))
  | clear => inferInstanceAs (Decidable (_ ∧ True))

/-- A call in a run, which has ended if an access left the array. -/
def next (plat : Platform) (state : Option (XVector α)) (call : VectorCall α) :
    Option (XVector α) :=
  state.bind fun vec => call.exec plat vec

/-- The promise of a call in a run. -/
def Allowed (plat : Platform) (state : Option (XVector α)) (call : VectorCall α) : Prop :=
  ∀ vec ∈ state, call.Promised plat vec

instance (plat : Platform) (state : Option (XVector α)) (call : VectorCall α) :
    Decidable (call.Allowed plat state) :=
  inferInstanceAs (Decidable (∀ vec ∈ state, call.Promised plat vec))

end VectorCall

namespace XVector

open VectorCall

variable {α : Type} {plat : Platform} {vec : XVector α} {l : List α}

/-- One call on the vector is the call on the list. -/
theorem exec_represents {call : VectorCall α} (h : Represents plat vec l)
    (hcall : call.Promised plat vec) :
    ∃ vec', call.exec plat vec = some vec' ∧ Represents plat vec' (call.onList l) := by
  cases call with
  | create => exact ⟨create plat, rfl, create_represents⟩
  | insert value => exact insert_represents h hcall.1 hcall.2 value
  | remove index => exact remove_represents h hcall.2
  | clear => exact clear_represents h

/-- So is a run. -/
theorem run_represents {calls : List (VectorCall α)} (h : Represents plat vec l)
    (hcalls : Along (next plat) (fun state call => call.Allowed plat state) (some vec) calls) :
    ∃ vec', calls.foldl (next plat) (some vec) = some vec' ∧
      Represents plat vec' (calls.foldl onList l) := by
  induction calls generalizing vec l with
  | nil => exact ⟨vec, rfl, h⟩
  | cons call rest ih =>
    obtain ⟨hcall, hrest⟩ := hcalls
    obtain ⟨vec', hexec, h'⟩ := exec_represents h (hcall vec rfl)
    have hnext : next plat (some vec) call = some vec' := hexec
    rw [hnext] at hrest
    rw [List.foldl_cons, List.foldl_cons, hnext]
    exact ih h' hrest

/-- **The vector is a list**: in every run no access leaves its array, the elements are what was
appended and not erased, and `0 ≤ vsize ≤ capacity`. -/
theorem runs_refine_lists (plat : Platform) (calls : List (VectorCall α))
    (h : Along (next plat) (fun state call => call.Allowed plat state) (some (create plat)) calls) :
    ∃ vec, calls.foldl (next plat) (some (create plat)) = some vec ∧
      vec.payload.take vec.vsize.toInt.toNat = (calls.foldl onList []).map some ∧
      0 ≤ vec.vsize ∧ vec.vsize ≤ vec.capacity ∧
      vec.payload.length = vec.capacity.toInt.toNat := by
  obtain ⟨vec, hrun, hvec⟩ := run_represents create_represents h
  refine ⟨vec, hrun, hvec.contents, ?_, ?_, hvec.length_payload⟩
  · exact Int32.le_iff_toInt_le.mpr hvec.vsize_nonneg
  · have := hvec.vsize_le
    have := hvec.capacity_nonneg
    rw [Int32.le_iff_toInt_le]
    omega

/-- A sixth element needs a new array. -/
theorem runs_refine_lists_six :
    ∃ vec, ([.insert 1, .insert 2, .insert 3, .insert 4, .insert 5, .insert 6, .remove 0] :
        List (VectorCall ℕ)).foldl (next ⟨4, by omega⟩) (some (create ⟨4, by omega⟩)) = some vec ∧
      vec.payload.take vec.vsize.toInt.toNat = [some 2, some 3, some 4, some 5, some 6] ∧
      0 ≤ vec.vsize ∧ vec.vsize ≤ vec.capacity ∧
      vec.payload.length = vec.capacity.toInt.toNat :=
  runs_refine_lists ⟨4, by omega⟩ _ (by decide)

end XVector

end Signalling

end YangIpc
