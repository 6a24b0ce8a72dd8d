import Mathlib.Data.List.Basic
import Mathlib.Data.List.Infix
import Mathlib.Data.Nat.Notation
import Mathlib.Tactic.IntervalCases

/-!
# Texts

Strings are compared up to their ends or up to a number of characters.  A number is written in
decimal digits, without leading zeros, and a text of several numbers has a separator between
them.

## Main definitions

* `strcmp`, `strncmp`: the comparisons of C strings, given by their bytes
* `decimal`: the digits of a number

## Main results

* `strcmp_eq_zero_iff`, `strncmp_eq_zero_iff`: when strings compare equal
* `decimal_injective`, `decimal_isPrefix_iff`: numbers by their digits
* `cons_isPrefix_cons_iff`, `isPrefix_cons_iff`: a common beginning, up to a separator
-/

namespace Text

/-! ## Comparisons -/

/-- Compare two strings: the difference of the first bytes that differ, a string ending with a
terminator. -/
def strcmp : List UInt8 → List UInt8 → ℤ
  | [], [] => 0
  | [], b :: _ => -b.toNat
  | a :: _, [] => a.toNat
  | a :: s, b :: t => if a = b then strcmp s t else a.toNat - b.toNat

/-- Compare at most `n` bytes of two strings. -/
def strncmp : List UInt8 → List UInt8 → ℕ → ℤ
  | _, _, 0 => 0
  | [], [], _ + 1 => 0
  | [], b :: _, _ + 1 => -b.toNat
  | a :: _, [], _ + 1 => a.toNat
  | a :: s, b :: t, n + 1 => if a = b then strncmp s t n else a.toNat - b.toNat

variable {s t : List UInt8} {b : UInt8}

theorem toNat_ne_zero (h : 0 ∉ b :: s) : (b.toNat : ℤ) ≠ 0 := by
  have hb : b ≠ 0 := fun hb => h (hb ▸ List.mem_cons_self)
  intro hzero
  apply hb
  apply UInt8.toNat_inj.mp
  exact Int.ofNat_eq_zero.mp hzero

theorem toNat_sub_ne_zero {a : UInt8} (h : a ≠ b) : (a.toNat : ℤ) - b.toNat ≠ 0 := by
  intro hzero
  apply h
  apply UInt8.toNat_inj.mp
  omega

/-- **At most `n` bytes** compare equal if and only if they are equal. -/
theorem strncmp_eq_zero_iff (n : ℕ) (hs : 0 ∉ s) (ht : 0 ∉ t) :
    strncmp s t n = 0 ↔ s.take n = t.take n := by
  induction n generalizing s t with
  | zero => simp [strncmp]
  | succ n ih =>
    cases s with
    | nil =>
      cases t with
      | nil => simp [strncmp]
      | cons b t => simpa [strncmp] using toNat_ne_zero ht
    | cons a s =>
      cases t with
      | nil => simpa [strncmp] using toNat_ne_zero hs
      | cons b t =>
        rw [strncmp, List.take_succ_cons, List.take_succ_cons, List.cons.injEq]
        split
        case isTrue hab =>
          rw [ih (fun h => hs (List.mem_cons_of_mem _ h)) fun h => ht (List.mem_cons_of_mem _ h)]
          exact (and_iff_right hab).symm
        case isFalse hab => exact iff_of_false (toNat_sub_ne_zero hab) fun h => hab h.1

/-- The whole strings are compared by as many bytes as one of them has, and its terminator. -/
theorem strcmp_eq_strncmp (s t : List UInt8) : strcmp s t = strncmp s t (s.length + 1) := by
  induction s generalizing t with
  | nil => cases t <;> rfl
  | cons a s ih =>
    cases t with
    | nil => rfl
    | cons b t => simp only [strcmp, List.length_cons, strncmp, ih]

theorem strcmp_eq_zero_iff (hs : 0 ∉ s) (ht : 0 ∉ t) : strcmp s t = 0 ↔ s = t := by
  rw [strcmp_eq_strncmp, strncmp_eq_zero_iff _ hs ht, List.take_of_length_le (Nat.le_succ _)]
  constructor
  · intro h
    have hlength := congrArg List.length h
    rw [List.length_take] at hlength
    rwa [List.take_of_length_le (by omega)] at h
  · rintro rfl
    exact (List.take_of_length_le (Nat.le_succ _)).symm

/-! ## Separators -/

section Separators

variable {α : Type*} {x y u v : List α} {sep : α}

/-- A beginning that reaches over the first separator. -/
theorem cons_isPrefix_cons_iff (hx : sep ∉ x) (hy : sep ∉ y) :
    x ++ sep :: u <+: y ++ sep :: v ↔ x = y ∧ u <+: v := by
  induction x generalizing y with
  | nil =>
    cases y with
    | nil => simp [List.cons_prefix_cons]
    | cons c y =>
      rw [List.nil_append, List.cons_append, List.cons_prefix_cons]
      refine iff_of_false (fun h => hy ?_) fun h => List.cons_ne_nil _ _ h.1.symm
      exact h.1 ▸ List.mem_cons_self
  | cons c x ih =>
    have hx' : sep ∉ x := fun h => hx (List.mem_cons_of_mem _ h)
    cases y with
    | nil =>
      rw [List.nil_append, List.cons_append, List.cons_prefix_cons]
      refine iff_of_false (fun h => hx ?_) fun h => List.cons_ne_nil _ _ h.1
      exact h.1 ▸ List.mem_cons_self
    | cons d y =>
      have hy' : sep ∉ y := fun h => hy (List.mem_cons_of_mem _ h)
      rw [List.cons_append, List.cons_append, List.cons_prefix_cons, ih hx' hy',
        List.cons.injEq, and_assoc]

/-- A beginning without a separator. -/
theorem isPrefix_cons_iff (hx : sep ∉ x) : x <+: y ++ sep :: v ↔ x <+: y := by
  refine ⟨fun h => ?_, fun h => h.trans (List.prefix_append _ _)⟩
  by_cases hlength : x.length ≤ y.length
  · exact (List.isPrefix_append_of_length hlength).mp h
  · -- a longer beginning would have the separator
    have hsep : y ++ [sep] <+: y ++ sep :: v := (List.prefix_append_right_inj y).mpr ⟨v, rfl⟩
    have hle : (y ++ [sep]).length ≤ x.length := by simp; omega
    have hstart := List.prefix_of_prefix_length_le hsep h hle
    exact absurd (hstart.subset (by simp)) hx

end Separators

/-! ## Decimal digits -/

/-- The digits of a number, the highest first. -/
def decimal (n : ℕ) : List UInt8 := (Nat.toDigits 10 n).map fun c => UInt8.ofNat c.toNat

variable {m n : ℕ}

theorem ofNat_digitChar (h : n < 10) :
    UInt8.ofNat (Nat.digitChar n).toNat = UInt8.ofNat (48 + n) := by
  interval_cases n <;> rfl

theorem decimal_of_lt (h : n < 10) : decimal n = [UInt8.ofNat (48 + n)] := by
  rw [decimal, Nat.toDigits_of_lt_base h, List.map_singleton, ofNat_digitChar h]

theorem decimal_of_le (h : 10 ≤ n) :
    decimal n = decimal (n / 10) ++ [UInt8.ofNat (48 + n % 10)] := by
  rw [decimal, Nat.toDigits_of_base_le (by omega) h, List.map_append, List.map_singleton,
    ofNat_digitChar (Nat.mod_lt n (by omega))]
  rfl

theorem length_decimal_pos : 0 < (decimal n).length := by
  rw [decimal, List.length_map]
  exact Nat.length_toDigits_pos

theorem length_decimal_le_iff {k : ℕ} (hk : 0 < k) : (decimal n).length ≤ k ↔ n < 10 ^ k := by
  rw [decimal, List.length_map]
  exact Nat.length_toDigits_le_iff (by omega) hk

/-- Every byte is a digit. -/
theorem digit_of_mem_decimal {b : UInt8} (h : b ∈ decimal n) : 48 ≤ b.toNat ∧ b.toNat < 58 := by
  induction n using Nat.strong_induction_on with
  | _ n ih =>
    by_cases hn : n < 10
    · rw [decimal_of_lt hn, List.mem_singleton] at h
      rw [h, UInt8.toNat_ofNat']
      omega
    · rw [decimal_of_le (by omega), List.mem_append, List.mem_singleton] at h
      rcases h with h | h
      · exact ih (n / 10) (by omega) h
      · rw [h, UInt8.toNat_ofNat']
        omega

theorem ofNat_digit_inj (hm : m < 10) (hn : n < 10) :
    UInt8.ofNat (48 + m) = UInt8.ofNat (48 + n) ↔ m = n := by
  rw [← UInt8.toNat_inj, UInt8.toNat_ofNat', UInt8.toNat_ofNat']
  omega

theorem decimal_injective : Function.Injective decimal := by
  intro m n h
  induction m using Nat.strong_induction_on generalizing n with
  | _ m ih =>
    have hlength := congrArg List.length h
    have hm := length_decimal_le_iff (n := m) (k := 1) Nat.one_pos
    have hn := length_decimal_le_iff (n := n) (k := 1) Nat.one_pos
    by_cases hlt : m < 10
    · have hlt' : n < 10 := by omega
      rw [decimal_of_lt hlt, decimal_of_lt hlt', List.cons.injEq, ofNat_digit_inj hlt hlt'] at h
      exact h.1
    · have hle : 10 ≤ n := by omega
      rw [decimal_of_le (Nat.not_lt.mp hlt), decimal_of_le hle] at h
      obtain ⟨hhigh, hlow⟩ := List.append_inj' h rfl
      rw [List.cons.injEq, ofNat_digit_inj (by omega) (by omega)] at hlow
      have hdiv := ih (m / 10) (by omega) hhigh
      omega

/-- A number is the beginning of the numbers that it is a quotient of. -/
theorem decimal_isPrefix_iff :
    decimal m <+: decimal n ↔ m = n ∨ 10 ≤ n ∧ decimal m <+: decimal (n / 10) := by
  by_cases hn : n < 10
  · rw [or_iff_left fun h => by omega]
    constructor
    · intro h
      apply decimal_injective
      apply h.eq_of_length_le
      rw [(length_decimal_le_iff Nat.one_pos).mpr hn |>.antisymm length_decimal_pos]
      exact length_decimal_pos
    · rintro rfl
      exact List.prefix_rfl
  · have hle := Nat.not_lt.mp hn
    have hsplit := decimal_of_le hle
    calc
      decimal m <+: decimal n ↔ decimal m = decimal n ∨ decimal m <+: decimal (n / 10) := by
        rw [hsplit, List.prefix_concat_iff]
      _ ↔ m = n ∨ 10 ≤ n ∧ decimal m <+: decimal (n / 10) := by
        rw [decimal_injective.eq_iff, and_iff_right hle]

end Text
