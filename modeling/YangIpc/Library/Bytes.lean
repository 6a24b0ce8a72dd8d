import Mathlib.Data.List.Basic
import Mathlib.Data.List.TakeWhile
import Mathlib.Data.Int.Notation
import Mathlib.Data.Nat.Notation

/-!
# Bytes in memory

A memory gives a byte to every address.  A copy stores a list of bytes from an address on, and a
read loads as many bytes as asked for.  Numbers of 16 and 32 bits are stored lowest byte first.
A region is a finite piece of memory of which some bytes may not have been written.

## Main definitions

* `store m a l`, `load m a n`: copying into memory and reading from it
* `encode16`, `decode16`, `encode32`, `decode32`: little-endian numbers
* `CString`: strings, by their bytes
* `Region`, `Region.byte`, `Region.bytes`, `Region.number16`: reading what has been written

## Main results

* `load_store`, `load_store_below`: what is read after a copy
* `decode16_encode16`, `decode32_encode32`: numbers survive
* `Region.bytes_written`, `Region.number16_written`: what has been written can be read
-/

namespace Bytes

/-- The contents of a memory. -/
abbrev Memory := ℕ → UInt8

variable {m m' : Memory} {a b n k : ℕ} {l : List UInt8}

/-- Copy `l` to the address `a` on. -/
def store (m : Memory) (a : ℕ) (l : List UInt8) : Memory :=
  fun i => if a ≤ i then (l[i - a]?).getD (m i) else m i

/-- Read `n` bytes from the address `a` on. -/
def load (m : Memory) (a n : ℕ) : List UInt8 := (List.range n).map fun i => m (a + i)

@[simp] theorem length_load : (load m a n).length = n := by simp [load]

@[simp] theorem store_nil : store m a [] = m := by
  funext i
  simp [store]

theorem load_add : load m a (n + k) = load m a n ++ load m (a + n) k := by
  simp [load, List.range_add, Nat.add_assoc]

theorem take_load (h : k ≤ n) : (load m a n).take k = load m a k := by
  obtain ⟨j, rfl⟩ := Nat.exists_eq_add_of_le h
  rw [load_add, List.take_left' length_load]

theorem load_isPrefix_load (h : n ≤ k) : load m a n <+: load m a k := by
  rw [← take_load h]
  exact List.take_prefix _ _

theorem drop_load : (load m a (n + k)).drop n = load m (a + n) k := by
  rw [load_add, List.drop_left' length_load]

/-- A piece of a list, read from it. -/
theorem load_getD (h : a + n ≤ l.length) :
    load (fun i => l.getD (a + i) 0) 0 n = (l.drop a).take n := by
  apply List.ext_getElem
  · rw [length_load, List.length_take, List.length_drop]
    omega
  · intro i hi _
    rw [length_load] at hi
    have hlt : a + i < l.length := by omega
    simp [load, List.getElem?_eq_getElem hlt]

/-- A copy is read back. -/
theorem load_store_self : load (store m a l) a l.length = l := by
  apply List.ext_getElem (by simp)
  intro i _ hi
  simp [load, store, List.getElem?_eq_getElem hi]

/-- A copy changes only the bytes it covers. -/
theorem store_outside {i : ℕ} (h : i < a ∨ a + l.length ≤ i) : store m a l i = m i := by
  unfold store
  split
  · rw [List.getElem?_eq_none (by omega)]
    rfl
  · rfl

theorem load_store_outside (h : b + n ≤ a ∨ a + l.length ≤ b) :
    load (store m a l) b n = load m b n := by
  refine List.map_congr_left fun i hi => store_outside ?_
  have := List.mem_range.mp hi
  omega

/-- Addresses below a copy keep their bytes. -/
theorem load_store_below (h : b + n ≤ a) : load (store m a l) b n = load m b n :=
  load_store_outside (.inl h)

/-- **A copy to the end of what is there extends it.** -/
theorem load_store : load (store m a l) 0 (a + l.length) = load m 0 a ++ l := by
  rw [load_add, load_store_below (by omega), Nat.zero_add, load_store_self]

/-- Two memories hold the same bytes below an address. -/
def AgreeBelow (n : ℕ) (m m' : Memory) : Prop := ∀ i < n, m' i = m i

theorem AgreeBelow.mono (h : AgreeBelow n m m') (hk : k ≤ n) : AgreeBelow k m m' :=
  fun i hi => h i (Nat.lt_of_lt_of_le hi hk)

theorem AgreeBelow.load (h : AgreeBelow n m m') (hk : a + k ≤ n) : load m' a k = load m a k := by
  refine List.map_congr_left fun i hi => h _ ?_
  have := List.mem_range.mp hi
  omega

theorem agreeBelow_store : AgreeBelow a m (store m a l) := fun _ hi => store_outside (.inl hi)

/-! ## Numbers -/

/-- The number whose bytes are `lo` and `hi`. -/
def decode16 (lo hi : UInt8) : UInt16 := UInt16.ofNat (lo.toNat + 256 * hi.toNat)

/-- The two bytes of a number. -/
def encode16 (x : UInt16) : List UInt8 := [x.toUInt8, (x >>> 8).toUInt8]

/-- The number whose bytes are `b₀`, …, `b₃`. -/
def decode32 (b₀ b₁ b₂ b₃ : UInt8) : UInt32 :=
  UInt32.ofNat (b₀.toNat + 256 * b₁.toNat + 65536 * b₂.toNat + 16777216 * b₃.toNat)

/-- The four bytes of a number. -/
def encode32 (x : UInt32) : List UInt8 :=
  [x.toUInt8, (x >>> 8).toUInt8, (x >>> 16).toUInt8, (x >>> 24).toUInt8]

theorem toNat_decode16 (lo hi : UInt8) : (decode16 lo hi).toNat = lo.toNat + 256 * hi.toNat := by
  have hlo := lo.toNat_lt
  have hhi := hi.toNat_lt
  rw [decode16, UInt16.toNat_ofNat']
  omega

theorem decode16_inj {lo hi lo' hi' : UInt8} :
    decode16 lo hi = decode16 lo' hi' ↔ lo = lo' ∧ hi = hi' := by
  refine ⟨fun h => ?_, fun ⟨hlo, hhi⟩ => by rw [hlo, hhi]⟩
  have hlo := lo.toNat_lt
  have hlo' := lo'.toNat_lt
  have hnat := congrArg UInt16.toNat h
  rw [toNat_decode16, toNat_decode16] at hnat
  exact ⟨UInt8.toNat_inj.mp (by omega), UInt8.toNat_inj.mp (by omega)⟩

theorem decode32_inj {b₀ b₁ b₂ b₃ c₀ c₁ c₂ c₃ : UInt8} :
    decode32 b₀ b₁ b₂ b₃ = decode32 c₀ c₁ c₂ c₃ ↔ b₀ = c₀ ∧ b₁ = c₁ ∧ b₂ = c₂ ∧ b₃ = c₃ := by
  refine ⟨fun h => ?_, fun ⟨h₀, h₁, h₂, h₃⟩ => by rw [h₀, h₁, h₂, h₃]⟩
  have hb := And.intro b₀.toNat_lt (And.intro b₁.toNat_lt (And.intro b₂.toNat_lt b₃.toNat_lt))
  have hc := And.intro c₀.toNat_lt (And.intro c₁.toNat_lt (And.intro c₂.toNat_lt c₃.toNat_lt))
  have hnat := congrArg UInt32.toNat h
  simp only [decode32, UInt32.toNat_ofNat'] at hnat
  refine ⟨UInt8.toNat_inj.mp ?_, UInt8.toNat_inj.mp ?_, UInt8.toNat_inj.mp ?_,
    UInt8.toNat_inj.mp ?_⟩ <;> omega

@[simp] theorem decode16_encode16 (x : UInt16) : decode16 x.toUInt8 (x >>> 8).toUInt8 = x := by
  have hx := x.toNat_lt
  apply UInt16.toNat_inj.mp
  simp only [toNat_decode16, UInt16.toNat_toUInt8, UInt16.toNat_shiftRight, UInt16.reduceToNat,
    Nat.shiftRight_eq_div_pow, Nat.reduceMod, Nat.reducePow]
  omega

@[simp] theorem decode32_encode32 (x : UInt32) :
    decode32 x.toUInt8 (x >>> 8).toUInt8 (x >>> 16).toUInt8 (x >>> 24).toUInt8 = x := by
  have hx := x.toNat_lt
  apply UInt32.toNat_inj.mp
  simp only [decode32, UInt32.toNat_ofNat', UInt32.toNat_toUInt8, UInt32.toNat_shiftRight,
    UInt32.reduceToNat, Nat.shiftRight_eq_div_pow, Nat.reduceMod, Nat.reducePow]
  omega

/-- A signed number, by the number with the same bits. -/
theorem toInt_eq (x : Int32) :
    x.toInt = if 2 * x.toUInt32.toNat < 4294967296 then (x.toUInt32.toNat : ℤ)
      else x.toUInt32.toNat - 4294967296 := BitVec.toInt_eq_toNat_cond x.toBitVec

@[simp] theorem length_encode16 (x : UInt16) : (encode16 x).length = 2 := rfl

/-! ## Strings -/

/-- A string without its terminator. -/
structure CString where
  bytes : List UInt8
  noNul : 0 ∉ bytes
deriving DecidableEq

namespace CString

/-- The string that begins with the bytes and ends with the first terminator among them, or
behind them. -/
def ofBytes (l : List UInt8) : CString where
  bytes := l.takeWhile (· ≠ 0)
  noNul h := by simpa using List.mem_takeWhile_imp h

theorem ofBytes_eq (h : 0 ∉ l) : ofBytes l = ⟨l, h⟩ := by
  rw [ofBytes, mk.injEq, List.takeWhile_eq_self_iff]
  intro b hb
  simpa using ne_of_mem_of_not_mem hb h

end CString

/-! ## Regions -/

/-- The bytes of a region, in order; `none` for a byte that has not been written. -/
abbrev Region := List (Option UInt8)

namespace Region

variable {d rest : List UInt8} {i : ℕ}

/-- The byte at an offset, if it lies in the region and has been written. -/
def byte (r : Region) (i : ℕ) : Option UInt8 := r[i]?.join

/-- The `n` bytes from an offset on. -/
def bytes (r : Region) : ℕ → ℕ → Option (List UInt8)
  | _, 0 => some []
  | i, n + 1 => do return (← r.byte i) :: (← r.bytes (i + 1) n)

/-- The number at an offset. -/
def number16 (r : Region) (i : ℕ) : Option UInt16 := do
  return decode16 (← r.byte i) (← r.byte (i + 1))

theorem byte_written : byte (l.map some) i = l[i]? := by
  rw [byte, List.getElem?_map]
  cases l[i]? <;> rfl

/-- **What has been written can be read.** -/
theorem bytes_written (h : l.drop i = d ++ rest) : bytes (l.map some) i d.length = some d := by
  induction d generalizing i with
  | nil => rfl
  | cons b d ih =>
    have hbyte : l[i]? = some b := by
      rw [← List.head?_drop, h]
      rfl
    have hdrop : l.drop (i + 1) = d ++ rest := by
      rw [← List.tail_drop, h]
      rfl
    simp [bytes, byte_written, hbyte, ih hdrop]

theorem number16_written {x : UInt16} (h : l.drop i = encode16 x ++ rest) :
    number16 (l.map some) i = some x := by
  have hlo : l[i]? = some x.toUInt8 := by
    rw [← List.head?_drop, h]
    rfl
  have hhi : l[i + 1]? = some (x >>> 8).toUInt8 := by
    rw [← List.head?_drop, ← List.tail_drop, h]
    rfl
  simp [number16, byte_written, hlo, hhi]

end Region

end Bytes
