import YangIpc.Library.Bytes
import YangIpc.Library.Text
import Mathlib.Data.List.GetD

/-!
# Addresses in one network

`is_lan_cmp` compares the text of two addresses up to the last dot of the first.  The dot itself
is not compared, so the third number of the second address may have more digits.

## Main definitions

* `isLanCmp`: the function
* `Ipv4`, `Ipv4.text`: an address and its canonical text
* `SameLan`: what the answer is meant to say

## Main results

* `isLanCmp_text_eq_yes_iff`: what the answer says
* `sameLan_iff`: when this is what it is meant to say
-/

namespace YangIpc

namespace Cs2

open Bytes (CString)
open Text

/-! ## The function -/

/-- `YES` and `NO`. -/
def yes : Int32 := 1

def no : Int32 := 0

/-- The loop that steps back from an index to a dot, or to the first character. -/
def scanBack (s : List UInt8) : ℕ → ℕ
  | 0 => 0
  | i + 1 => if s.getD (i + 1) 0 = 46 then i + 1 else scanBack s i

/-- `is_lan_cmp`. -/
def isLanCmp (ip1 ip2 : CString) : Int32 :=
  let lenIp1 := Int16.ofNat ip1.bytes.length
  let lenIp2 := Int16.ofNat ip2.bytes.length
  if lenIp1.toInt < 7 ∨ lenIp2.toInt < 7 then -1
  else if strcmp ip1.bytes ip2.bytes = 0 then yes
  else
    let pIndex := scanBack ip1.bytes (lenIp1.toInt.toNat - 1)
    if strncmp ip1.bytes ip2.bytes pIndex = 0 then yes else no

/-! ## Addresses -/

/-- The four numbers of an address. -/
structure Ipv4 where
  first : UInt8
  second : UInt8
  third : UInt8
  fourth : UInt8
deriving DecidableEq, Repr

namespace Ipv4

/-- The text of the first three numbers. -/
def networkText (ip : Ipv4) : List UInt8 :=
  decimal ip.first.toNat ++ 46 :: (decimal ip.second.toNat ++ 46 :: decimal ip.third.toNat)

/-- The bytes of the text of an address. -/
def bytes (ip : Ipv4) : List UInt8 := ip.networkText ++ 46 :: decimal ip.fourth.toNat

/-- The first three numbers. -/
def network (ip : Ipv4) : UInt8 × UInt8 × UInt8 := (ip.first, ip.second, ip.third)

variable {ip ip' : Ipv4} {n : ℕ}

theorem dot_notMem_decimal : 46 ∉ decimal n := by
  intro h
  have hdigit : 48 ≤ 46 ∧ 46 < 58 := digit_of_mem_decimal h
  omega

theorem nul_notMem_decimal : 0 ∉ decimal n := by
  intro h
  have hdigit : 48 ≤ 0 ∧ 0 < 58 := digit_of_mem_decimal h
  omega

theorem nul_notMem_bytes (ip : Ipv4) : 0 ∉ ip.bytes := by
  simp [bytes, networkText, nul_notMem_decimal]

/-- The canonical text of an address. -/
def text (ip : Ipv4) : CString := ⟨ip.bytes, ip.nul_notMem_bytes⟩

theorem length_decimal_toNat_le (x : UInt8) : (decimal x.toNat).length ≤ 3 := by
  apply (length_decimal_le_iff (by omega)).mpr
  have hx := x.toNat_lt
  omega

/-- A text has 7 to 15 characters. -/
theorem length_bytes (ip : Ipv4) : 7 ≤ ip.bytes.length ∧ ip.bytes.length ≤ 15 := by
  have h (x : UInt8) := And.intro (length_decimal_pos (n := x.toNat)) (length_decimal_toNat_le x)
  have h₁ := h ip.first
  have h₂ := h ip.second
  have h₃ := h ip.third
  have h₄ := h ip.fourth
  simp only [bytes, networkText, List.length_append, List.length_cons]
  omega

end Ipv4

/-- The answer is meant to say whether the first three numbers are equal. -/
def SameLan (ip ip' : Ipv4) : Prop :=
  isLanCmp ip.text ip'.text = yes ↔ ip.network = ip'.network

/-! ## The answer -/

section Answer

variable {ip ip' : Ipv4}

/-- The loop ends at the last dot. -/
theorem scanBack_eq {u v : List UInt8} (hv : 46 ∉ v) {i : ℕ} (hle : u.length ≤ i)
    (hlt : i < (u ++ 46 :: v).length) : scanBack (u ++ 46 :: v) i = u.length := by
  induction i with
  | zero => exact (Nat.le_zero.mp hle).symm
  | succ i ih =>
    rw [scanBack]
    by_cases heq : u.length = i + 1
    · rw [← heq, List.getD_append_right _ _ _ _ le_rfl, Nat.sub_self, List.getD_cons_zero,
        if_pos rfl]
    · have hlt' : i + 1 - u.length < (46 :: v).length := by
        rw [List.length_append] at hlt
        omega
      have hne : (u ++ 46 :: v).getD (i + 1) 0 ≠ 46 := by
        rw [List.getD_append_right _ _ _ _ hle, List.getD_eq_getElem _ _ hlt',
          List.getElem_cons, dif_neg (by omega)]
        exact fun h => hv (h ▸ List.getElem_mem _)
      rw [if_neg hne]
      exact ih (by omega) (by omega)

/-- The length of a text is not cut. -/
theorem toInt_length_text (ip : Ipv4) :
    (Int16.ofNat ip.text.bytes.length).toInt = ip.bytes.length := by
  have hlength := ip.length_bytes
  have hlt : ip.text.bytes.length < 15 + 1 := Nat.lt_succ_of_le hlength.2
  exact Int16.toInt_ofNat_of_lt (by omega)

/-- The text of the network is compared, without the dot behind it. -/
theorem isLanCmp_text_eq_yes_iff_isPrefix :
    isLanCmp ip.text ip'.text = yes ↔ ip.networkText <+: ip'.bytes := by
  have hlength := ip.length_bytes
  have hlength' := ip'.length_bytes
  have hscan : scanBack ip.bytes (ip.bytes.length - 1) = ip.networkText.length := by
    apply scanBack_eq Ipv4.dot_notMem_decimal
    · simp [Ipv4.bytes]
    · exact Nat.sub_lt (by omega) Nat.one_pos
  have hcmp : strcmp ip.text.bytes ip'.text.bytes = 0 ↔ ip.bytes = ip'.bytes :=
    strcmp_eq_zero_iff ip.nul_notMem_bytes ip'.nul_notMem_bytes
  have hncmp : strncmp ip.text.bytes ip'.text.bytes ip.networkText.length = 0 ↔
      ip.networkText <+: ip'.bytes := by
    refine (strncmp_eq_zero_iff _ ip.nul_notMem_bytes ip'.nul_notMem_bytes).trans ?_
    rw [Ipv4.bytes, List.take_left, List.prefix_iff_eq_take]
  unfold isLanCmp
  simp only [toInt_length_text, Int.toNat_natCast]
  rw [if_neg (by omega)]
  split
  case isTrue h =>
    refine iff_of_true rfl ?_
    rw [← hcmp.mp h]
    exact List.prefix_append _ _
  case isFalse h =>
    rw [show ip.text.bytes = ip.bytes from rfl, hscan]
    split
    case isTrue h => exact iff_of_true rfl (hncmp.mp h)
    case isFalse h => exact iff_of_false (by decide) (hncmp.not.mp h)

/-- **The answer** is `YES` if two numbers are equal, and the text of the third begins the text of
the other. -/
theorem isLanCmp_text_eq_yes_iff :
    isLanCmp ip.text ip'.text = yes ↔ ip.first = ip'.first ∧ ip.second = ip'.second ∧
      decimal ip.third.toNat <+: decimal ip'.third.toNat := by
  have hdot (n : ℕ) : 46 ∉ decimal n := Ipv4.dot_notMem_decimal
  rw [isLanCmp_text_eq_yes_iff_isPrefix, Ipv4.networkText, Ipv4.bytes, Ipv4.networkText,
    List.append_assoc, List.cons_append, cons_isPrefix_cons_iff (hdot _) (hdot _),
    List.append_assoc, List.cons_append, cons_isPrefix_cons_iff (hdot _) (hdot _),
    isPrefix_cons_iff (hdot _), decimal_injective.eq_iff, decimal_injective.eq_iff,
    UInt8.toNat_inj, UInt8.toNat_inj]

/-- A number of at most three digits begins the text of another. -/
theorem decimal_toNat_isPrefix_iff (x y : UInt8) :
    decimal x.toNat <+: decimal y.toNat ↔
      x = y ∨ 0 < x.toNat ∧ (y.toNat / 10 = x.toNat ∨ y.toNat / 100 = x.toNat) := by
  have hy := y.toNat_lt
  rw [decimal_isPrefix_iff, decimal_isPrefix_iff, decimal_isPrefix_iff, UInt8.toNat_inj,
    or_congr_right]
  omega

/-- **The answer** says whether the networks are equal if and only if the third number of the
first address is not what begins a longer one of the second. -/
theorem sameLan_iff (ip ip' : Ipv4) :
    SameLan ip ip' ↔ ¬(ip.first = ip'.first ∧ ip.second = ip'.second ∧ 0 < ip.third.toNat ∧
      (ip'.third.toNat / 10 = ip.third.toNat ∨ ip'.third.toNat / 100 = ip.third.toNat)) := by
  rw [SameLan, isLanCmp_text_eq_yes_iff, decimal_toNat_isPrefix_iff, Ipv4.network, Ipv4.network,
    Prod.mk.injEq, Prod.mk.injEq, ← UInt8.toNat_inj (a := ip.third)]
  constructor
  · rintro h ⟨hfirst, hsecond, hpos, hquot⟩
    -- a number is not a proper quotient of itself
    have heq := (h.mp ⟨hfirst, hsecond, .inr ⟨hpos, hquot⟩⟩).2.2
    omega
  · intro h
    constructor
    · rintro ⟨hfirst, hsecond, heq | ⟨hpos, hquot⟩⟩
      · exact ⟨hfirst, hsecond, heq⟩
      · exact absurd ⟨hfirst, hsecond, hpos, hquot⟩ h
    · rintro ⟨hfirst, hsecond, heq⟩
      exact ⟨hfirst, hsecond, .inl heq⟩

/-- 192.168.1.5 and 192.168.10.7 are taken to be in one network. -/
theorem not_sameLan_digits : ¬∀ ip ip' : Ipv4, SameLan ip ip' := by
  intro h
  have hyes : isLanCmp (Ipv4.text ⟨192, 168, 1, 5⟩) (Ipv4.text ⟨192, 168, 10, 7⟩) = yes := by
    refine isLanCmp_text_eq_yes_iff.mpr ⟨rfl, rfl, ?_⟩
    exact (decimal_toNat_isPrefix_iff 1 10).mpr (by decide)
  exact absurd ((h _ _).mp hyes) (by decide)

end Answer

end Cs2

end YangIpc
