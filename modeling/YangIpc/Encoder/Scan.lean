import Mathlib.Order.Bounds.Basic
import YangIpc.Encoder.StartCode
import YangIpc.Library.Reads

/-!
# What the search of start codes reads

`find_next_start_code` of `YangIpcEncoder.c` on a memory that is not bounded, as a computation that
reads it.  The indices are integers: none of them exceeds the `end` of the search, an `int32_t`.

## Main definitions

* `matchesAt`, `findNextStartCode`: the comparison with a pattern, and the search
* `StartCode`: a start code of three or four bytes below an end
* `NaiveScan`: the least offset of a start code, and its length

## Main results

* `findNextStartCode_scans`: the search is the naive scan, and reads nothing outside its bounds
* `findNextStartCode_frame`: on a frame it is the search of `Encoder.findNextStartCode`
* `Encoder.findNextStartCode_found`, `Encoder.findNextStartCode_here`: what that search finds
-/

namespace YangIpc

namespace Encoder

namespace Scan

open Reads Reading

/-- `buf[i]`, `buf[i + 1]`, ... compared with a pattern, up to the first difference. -/
def matchesAt : ℤ → List UInt8 → Reading ℤ UInt8 Bool
  | _, [] => pure true
  | i, c :: rest => do
    let b ← fetch i
    if b = c then matchesAt (i + 1) rest else pure false

/-- The loop of `find_next_start_code` from `i` on: what it returns, and `*sc_len`. -/
def findLoop (fin i : ℤ) : Reading ℤ UInt8 (ℤ × ℤ) :=
  if i ≤ fin - 3 then do
    if ← matchesAt i [0, 0, 3] then findLoop fin (i + 3)
    else if ← matchesAt i [0, 0, 1] then pure (i, 3)
    else
      let zeros ← matchesAt i [0, 0, 0]
      if zeros ∧ i + 3 < fin then
        if ← matchesAt (i + 3) [1] then pure (i, 4)
        else findLoop fin (i + 1)
      else findLoop fin (i + 1)
  else pure (-1, 0)
termination_by (fin - i).toNat

/-- `find_next_start_code`. -/
def findNextStartCode (start fin : ℤ) : Reading ℤ UInt8 (ℤ × ℤ) := findLoop fin start

/-! ## The naive scan -/

variable {buf : ℤ → UInt8} {start fin i j : ℤ}

/-- A start code of `len` bytes at an offset, all of them below the end. -/
def StartCode (buf : ℤ → UInt8) (fin i len : ℤ) : Prop :=
  len = 3 ∧ i + 3 ≤ fin ∧ buf i = 0 ∧ buf (i + 1) = 0 ∧ buf (i + 2) = 1 ∨
  len = 4 ∧ i + 4 ≤ fin ∧ buf i = 0 ∧ buf (i + 1) = 0 ∧ buf (i + 2) = 0 ∧ buf (i + 3) = 1

theorem StartCode.length_cases {len : ℤ} (h : StartCode buf fin i len) : len = 3 ∨ len = 4 :=
  h.imp And.left And.left

/-- The third byte tells the length. -/
theorem StartCode.unique {len len' : ℤ} (h : StartCode buf fin i len)
    (h' : StartCode buf fin i len') : len = len' := by
  have hne : (0 : UInt8) ≠ 1 := by decide
  rcases h with ⟨rfl, -, -, -, h₂⟩ | ⟨rfl, -, -, -, h₂, -⟩ <;>
    rcases h' with ⟨rfl, -, -, -, h₂'⟩ | ⟨rfl, -, -, -, h₂', -⟩
  · rfl
  · exact absurd (h₂'.symm.trans h₂) hne
  · exact absurd (h₂.symm.trans h₂') hne
  · rfl

/-- The first three bytes are zeros and ones. -/
theorem StartCode.ne_three {len : ℤ} (h : StartCode buf fin i len) :
    buf i ≠ 3 ∧ buf (i + 1) ≠ 3 ∧ buf (i + 2) ≠ 3 := by
  rcases h with ⟨-, -, h₀, h₁, h₂⟩ | ⟨-, -, h₀, h₁, h₂, -⟩
  · rw [h₀, h₁, h₂]
    decide
  · rw [h₀, h₁, h₂]
    decide

/-- The offsets from `start` on at which a start code begins. -/
def codes (buf : ℤ → UInt8) (start fin : ℤ) : Set ℤ :=
  {i | start ≤ i ∧ ∃ len, StartCode buf fin i len}

/-- The least offset of a start code and its length; `-1` and zero if there is none. -/
def NaiveScan (buf : ℤ → UInt8) (start fin : ℤ) (found : ℤ × ℤ) : Prop :=
  IsLeast (codes buf start fin) found.1 ∧ StartCode buf fin found.1 found.2 ∨
  codes buf start fin = ∅ ∧ found = (-1, 0)

/-- No start code before an offset: the scan goes on there. -/
theorem NaiveScan.extend {n : ℤ} {found : ℤ × ℤ} (hn : 0 ≤ n)
    (h : NaiveScan buf (start + n) fin found)
    (hskip : ∀ j len, start ≤ j → j < start + n → ¬StartCode buf fin j len) :
    NaiveScan buf start fin found := by
  have hcodes : codes buf start fin = codes buf (start + n) fin := by
    ext j
    constructor
    · rintro ⟨hj, len, hcode⟩
      refine ⟨?_, len, hcode⟩
      by_contra hlt
      exact hskip j len hj (by omega) hcode
    · rintro ⟨hj, hcode⟩
      exact ⟨by omega, hcode⟩
  rw [NaiveScan, hcodes]
  exact h

/-- A start code at the first offset is the least one. -/
theorem NaiveScan.here {len : ℤ} (h : StartCode buf fin start len) :
    NaiveScan buf start fin (start, len) :=
  .inl ⟨⟨⟨Int.le_refl start, len, h⟩, fun _ hj => hj.1⟩, h⟩

/-! ## The search -/

/-- A search that is the naive scan from an offset on, and reads only between it and the end. -/
structure Scans (buf : ℤ → UInt8) (start fin : ℤ) (r : Reading ℤ UInt8 (ℤ × ℤ)) : Prop where
  naive : NaiveScan buf start fin (r.eval buf)
  within : ∀ j ∈ r.offsets buf, start ≤ j ∧ j < fin

/-- A search after some reading within the bounds. -/
theorem Scans.after {α : Type} {r : Reading ℤ UInt8 α} {next : α → Reading ℤ UInt8 (ℤ × ℤ)}
    (hr : ∀ j ∈ r.offsets buf, start ≤ j ∧ j < fin)
    (h : Scans buf start fin (next (r.eval buf))) : Scans buf start fin (r >>= next) := by
  refine ⟨?_, fun j hj => ?_⟩
  · rw [eval_bind]
    exact h.naive
  · rw [offsets_bind, List.mem_append] at hj
    rcases hj with hj | hj
    · exact hr j hj
    · exact h.within j hj

/-- A search that goes on behind bytes where no start code begins. -/
theorem Scans.extend {n : ℤ} {r : Reading ℤ UInt8 (ℤ × ℤ)} (hn : 0 ≤ n)
    (h : Scans buf (start + n) fin r)
    (hskip : ∀ j len, start ≤ j → j < start + n → ¬StartCode buf fin j len) :
    Scans buf start fin r := by
  refine ⟨h.naive.extend hn hskip, fun j hj => ?_⟩
  have := h.within j hj
  omega

/-- A search that ends. -/
theorem Scans.done {found : ℤ × ℤ} (h : NaiveScan buf start fin found) :
    Scans buf start fin (pure found) := by
  refine ⟨h, fun j hj => ?_⟩
  rw [offsets_pure] at hj
  exact absurd hj List.not_mem_nil

/-- A comparison reads at most the places of the pattern. -/
theorem offsets_matchesAt {pat : List UInt8} :
    ∀ j ∈ (matchesAt i pat).offsets buf, i ≤ j ∧ j < i + pat.length := by
  induction pat generalizing i with
  | nil =>
    intro j hj
    exact absurd hj List.not_mem_nil
  | cons c rest ih =>
    intro j hj
    rw [matchesAt, offsets_bind, offsets_fetch, List.singleton_append, List.mem_cons] at hj
    rw [List.length_cons]
    rcases hj with rfl | hj
    · omega
    · split at hj
      · have := ih j hj
        omega
      · exact absurd hj List.not_mem_nil

/-- A comparison byte by byte. -/
theorem eval_matchesAt_cons {c : UInt8} {rest : List UInt8} :
    (matchesAt i (c :: rest)).eval buf =
      (decide (buf i = c) && (matchesAt (i + 1) rest).eval buf) := by
  rw [matchesAt, eval_bind, eval_fetch]
  by_cases hc : buf i = c
  · rw [if_pos hc, decide_eq_true hc, Bool.true_and]
  · rw [if_neg hc, decide_eq_false hc, Bool.false_and, eval_pure]

theorem eval_matchesAt_one {c : UInt8} :
    (matchesAt i [c]).eval buf = decide (buf i = c) := by
  rw [eval_matchesAt_cons, matchesAt, eval_pure, Bool.and_true]

theorem eval_matchesAt_zeros {c : UInt8} :
    (matchesAt i [0, 0, c]).eval buf =
      decide (buf i = 0 ∧ buf (i + 1) = 0 ∧ buf (i + 2) = c) := by
  rw [eval_matchesAt_cons, eval_matchesAt_cons, eval_matchesAt_one, Int.add_assoc,
    Bool.decide_and, Bool.decide_and]
  rfl

/-- An emulation prevention byte: no start code begins at the three bytes. -/
theorem not_startCode_of_three (h : buf (i + 2) = 3) (len : ℤ) (hj : i ≤ j) (hji : j < i + 3) :
    ¬StartCode buf fin j len := by
  intro hcode
  -- the byte would be one of the start code
  obtain ⟨h₀, h₁, h₂⟩ := hcode.ne_three
  obtain rfl | rfl | rfl : i = j ∨ i + 1 = j ∨ i + 2 = j := by omega
  · exact h₂ h
  · exact h₁ (by rwa [Int.add_assoc])
  · exact h₀ h

/-- The loop, by its iterations. -/
theorem findLoop_scans (i : ℤ) : Scans buf i fin (findLoop fin i) := by
  induction i using findLoop.induct fin with
  | case1 i hi ihThree _ ihOne =>
    have hread : ∀ c, ∀ j ∈ (matchesAt i [0, 0, c]).offsets buf, i ≤ j ∧ j < fin := by
      intro c j hj
      have := offsets_matchesAt j hj
      simp only [List.length_cons, List.length_nil] at this
      omega
    rw [findLoop, if_pos hi]
    refine .after (hread 3) ?_
    rw [eval_matchesAt_zeros]
    by_cases hthree : buf i = 0 ∧ buf (i + 1) = 0 ∧ buf (i + 2) = 3
    · rw [if_pos (decide_eq_true hthree)]
      -- three bytes are skipped: a `3` is in none of the start codes that might begin there
      exact ihThree.extend (by omega) fun j len hj hji =>
        not_startCode_of_three hthree.2.2 len hj hji
    rw [if_neg (by simpa using hthree)]
    refine .after (hread 1) ?_
    rw [eval_matchesAt_zeros]
    by_cases hone : buf i = 0 ∧ buf (i + 1) = 0 ∧ buf (i + 2) = 1
    · rw [if_pos (decide_eq_true hone)]
      exact .done (.here (.inl ⟨rfl, by omega, hone⟩))
    rw [if_neg (by simpa using hone)]
    refine .after (hread 0) ?_
    rw [eval_matchesAt_zeros]
    -- no start code begins here, unless it has four bytes
    have hnext (hfour : ∀ len, ¬StartCode buf fin i len) :
        Scans buf i fin (findLoop fin (i + 1)) := by
      refine ihOne.extend (by omega) fun j len hj hji => ?_
      obtain rfl : j = i := by omega
      exact hfour len
    by_cases hfour : (buf i = 0 ∧ buf (i + 1) = 0 ∧ buf (i + 2) = 0) ∧ i + 3 < fin
    · rw [if_pos ⟨decide_eq_true hfour.1, hfour.2⟩]
      refine .after (fun j hj => ?_) ?_
      · have := offsets_matchesAt j hj
        simp only [List.length_cons, List.length_nil] at this
        omega
      · rw [eval_matchesAt_one]
        by_cases hlast : buf (i + 3) = 1
        · rw [if_pos (decide_eq_true hlast)]
          exact .done (.here (.inr ⟨rfl, by omega, hfour.1.1, hfour.1.2.1, hfour.1.2.2, hlast⟩))
        · rw [if_neg (by simpa using hlast)]
          apply hnext
          rintro len (⟨-, -, hcode⟩ | ⟨-, -, -, -, -, hcode⟩)
          · exact hone hcode
          · exact hlast hcode
    -- the fourth byte is not read behind the end, where no code of four bytes fits
    · rw [if_neg (by simpa using hfour)]
      apply hnext
      rintro len (⟨-, -, hcode⟩ | ⟨-, hend, h₀, h₁, h₂, -⟩)
      · exact hone hcode
      · exact hfour ⟨⟨h₀, h₁, h₂⟩, by omega⟩
  | case2 i hi =>
    rw [findLoop, if_neg hi]
    refine .done (.inr ⟨Set.eq_empty_of_forall_notMem fun j hj => ?_, rfl⟩)
    obtain ⟨hij, len, hcode | hcode⟩ := hj
    · omega
    · omega

/-- **The search is the naive scan**, and reads nothing outside its bounds. -/
theorem findNextStartCode_scans (buf : ℤ → UInt8) (start fin : ℤ) :
    NaiveScan buf start fin ((findNextStartCode start fin).eval buf) ∧
      ∀ i ∈ (findNextStartCode start fin).offsets buf, start ≤ i ∧ i < fin :=
  ⟨(findLoop_scans start).naive, (findLoop_scans start).within⟩

/-! ## The search in a frame -/

/-- The bytes of a frame, the only ones of a memory. -/
def memory (frame : List UInt8) (i : ℤ) : Option UInt8 :=
  if 0 ≤ i then frame[i.toNat]? else none

/-- The bytes of a frame, with zeros behind it. -/
def contents (frame : List UInt8) (i : ℤ) : UInt8 := frame.getD i.toNat 0

/-- What `find_next_start_code` returns, and `*sc_len`. -/
def result : Option (ℕ × ℕ) → ℤ × ℤ
  | none => (-1, 0)
  | some (p, l) => (p, l)

variable {frame : List UInt8}

@[simp]
theorem memory_natCast (i : ℕ) : memory frame i = frame[i]? := by
  rw [memory, if_pos (Int.natCast_nonneg i), Int.toNat_natCast]

theorem memory_of_lt (h : 0 ≤ i) (hlt : i < frame.length) :
    memory frame i = some (contents frame i) := by
  rw [memory, if_pos h, contents, List.getD_eq_getElem?_getD, List.getElem?_eq_getElem (by omega)]
  rfl

/-- The comparison reads the bytes of the frame. -/
theorem matchesAt_frame (i : ℕ) (pat : List UInt8) :
    (matchesAt i pat).run (memory frame) = Encoder.matchesAt frame i pat := by
  induction pat generalizing i with
  | nil => rfl
  | cons c rest ih =>
    rw [matchesAt, Encoder.matchesAt, run_bind, run_fetch, memory_natCast]
    cases frame[i]? with
    | none => rfl
    | some b =>
      show (if b = c then matchesAt (i + 1 : ℕ) rest else pure false).run (memory frame) =
        if b = c then Encoder.matchesAt frame (i + 1) rest else some false
      by_cases hc : b = c
      · rw [if_pos hc, if_pos hc, ih]
      · rw [if_neg hc, if_neg hc]
        rfl

/-- A search that goes on after a comparison. -/
theorem bind_frame {i : ℕ} {pat : List UInt8} {next : Bool → Reading ℤ UInt8 (ℤ × ℤ)}
    {next' : Bool → Option (Option (ℕ × ℕ))}
    (h : ∀ b, (next b).run (memory frame) = (next' b).map result) :
    (matchesAt i pat >>= next).run (memory frame) =
      (Encoder.matchesAt frame i pat >>= next').map result := by
  rw [run_bind, matchesAt_frame]
  cases Encoder.matchesAt frame i pat with
  | none => rfl
  | some b => exact h b

/-- The loop in a frame, by its iterations. -/
theorem findLoop_frame (fin fuel : ℕ) :
    ∀ i : ℕ, fin < i + fuel →
      (findLoop fin i).run (memory frame) = (Encoder.findLoop frame fin fuel i).map result := by
  induction fuel with
  | zero =>
    intro i hfuel
    rw [findLoop, if_neg (by omega)]
    rfl
  | succ fuel ih =>
    intro i hfuel
    rw [findLoop, Encoder.findLoop]
    by_cases hi : i + 3 ≤ fin
    · rw [if_pos (by omega), if_pos hi]
      refine bind_frame fun three => ?_
      cases three with
      | true => exact ih (i + 3) (by omega)
      | false =>
        refine bind_frame fun one => ?_
        cases one with
        | true => rfl
        | false =>
          refine bind_frame fun zeros => ?_
          by_cases hfour : zeros = true ∧ i + 3 < fin
          · rw [if_pos ⟨hfour.1, by omega⟩, if_pos hfour]
            refine bind_frame fun last => ?_
            cases last with
            | true => rfl
            | false => exact ih (i + 1) (by omega)
          · rw [if_neg fun h => hfour ⟨h.1, by omega⟩, if_neg hfour]
            exact ih (i + 1) (by omega)
    · rw [if_neg (by omega), if_neg hi]
      rfl

/-- On a frame it is the search of `Encoder.findNextStartCode`. -/
theorem findNextStartCode_frame (start fin : ℕ) :
    (findNextStartCode start fin).run (memory frame) =
      (Encoder.findNextStartCode frame start fin).map result :=
  findLoop_frame fin _ start (by omega)

/-- So the search in a frame reads the frame only, and is the naive scan. -/
theorem findNextStartCode_naive {start fin : ℕ} (h : fin ≤ frame.length) :
    ∃ found, Encoder.findNextStartCode frame start fin = some found ∧
      NaiveScan (contents frame) start fin (result found) := by
  have hscan : Scans (contents frame) start fin (findNextStartCode start fin) :=
    findLoop_scans start
  have hrun : (findNextStartCode start fin).run (memory frame) = some _ :=
    run_eq_some _ fun i hi => by
      -- every read is below the end, and so within the frame
      have hlt := hscan.within i hi
      exact memory_of_lt (by omega) (by omega)
  rw [findNextStartCode_frame, Option.map_eq_some_iff] at hrun
  obtain ⟨found, hfound, heq⟩ := hrun
  refine ⟨found, hfound, ?_⟩
  rw [heq]
  exact hscan.naive

theorem contents_eq_iff {k : ℕ} {c : UInt8} (h : k < frame.length) :
    contents frame k = c ↔ frame[k]? = some c := by
  rw [contents, Int.toNat_natCast, List.getD_eq_getElem?_getD, List.getElem?_eq_getElem h]
  exact (Option.some_inj (a := frame[k])).symm

/-- The start codes of three bytes. -/
theorem startCode_three_iff {k : ℕ} :
    StartCode (contents frame) frame.length k 3 ↔ CodeAt frame k := by
  constructor
  · rintro (⟨-, hfin, h₀, h₁, h₂⟩ | ⟨hlen, -⟩)
    · exact ⟨(contents_eq_iff (by omega)).mp h₀, (contents_eq_iff (by omega)).mp h₁,
        (contents_eq_iff (by omega)).mp h₂⟩
    · omega
  · intro h
    have hlt := h.lt
    exact .inl ⟨rfl, by omega, (contents_eq_iff (by omega)).mpr h.1,
      (contents_eq_iff (k := k + 1) (by omega)).mpr h.2.1,
      (contents_eq_iff (k := k + 2) (by omega)).mpr h.2.2⟩

/-- The start codes of four bytes have a zero before those of three. -/
theorem startCode_four_iff {k : ℕ} :
    StartCode (contents frame) frame.length k 4 ↔ frame[k]? = some 0 ∧ CodeAt frame (k + 1) := by
  constructor
  · rintro (⟨hlen, -⟩ | ⟨-, hfin, h₀, h₁, h₂, h₃⟩)
    · omega
    · exact ⟨(contents_eq_iff (by omega)).mp h₀, (contents_eq_iff (by omega)).mp h₁,
        (contents_eq_iff (by omega)).mp h₂, (contents_eq_iff (by omega)).mp h₃⟩
  · rintro ⟨h₀, h⟩
    have hlt := h.lt
    exact .inr ⟨rfl, by omega, (contents_eq_iff (by omega)).mpr h₀,
      (contents_eq_iff (k := k + 1) (by omega)).mpr h.1,
      (contents_eq_iff (k := k + 2) (by omega)).mpr h.2.1,
      (contents_eq_iff (k := k + 3) (by omega)).mpr h.2.2⟩

theorem mem_codes {start k : ℕ} (h : CodeAt frame k) (hk : start ≤ k) :
    (k : ℤ) ∈ codes (contents frame) start frame.length :=
  ⟨by omega, 3, startCode_three_iff.mpr h⟩

/-- What the search in a frame returns. -/
theorem findNextStartCode_cases (frame : List UInt8) (start : ℕ) :
    (∃ p l : ℕ, Encoder.findNextStartCode frame start frame.length = some (some (p, l)) ∧
      IsLeast (codes (contents frame) start frame.length) p ∧
      StartCode (contents frame) frame.length p l) ∨
    Encoder.findNextStartCode frame start frame.length = some none ∧
      codes (contents frame) start frame.length = ∅ := by
  obtain ⟨found, hfound, hscan⟩ :=
    @findNextStartCode_naive frame start frame.length (Nat.le_refl _)
  cases found with
  | none =>
    rcases hscan with ⟨hleast, -⟩ | ⟨hnone, -⟩
    · have hstart : (start : ℤ) ≤ -1 := hleast.1.1
      omega
    · exact .inr ⟨hfound, hnone⟩
  | some found =>
    rcases hscan with ⟨hleast, hcode⟩ | ⟨-, heq⟩
    · exact .inl ⟨found.1, found.2, hfound, hleast, hcode⟩
    · have hfst : (found.1 : ℤ) = -1 := (Prod.mk.inj heq).1
      omega

end Scan

/-! ## What is found in a frame -/

open Scan

variable {frame : List UInt8} {i : ℕ}

/-- **The search finds the first start code.** -/
theorem findNextStartCode_found (frame : List UInt8) (start : ℕ) :
    Found frame start (findNextStartCode frame start frame.length) := by
  rcases findNextStartCode_cases frame start with ⟨p, l, hfound, hleast, hcode⟩ | ⟨hfound, hnone⟩
  · have hstart : start ≤ p := by
      have := hleast.1.1
      omega
    have hfirst : ∀ j, start ≤ j → j < p → ¬CodeAt frame j := by
      intro j hj hjp hcode
      have := hleast.2 (mem_codes hcode hj)
      omega
    obtain hlen | hlen : l = 3 ∨ l = 4 := by
      have := hcode.length_cases
      omega
    · subst hlen
      exact .inl ⟨p, 3, p, hfound, hstart, rfl, ⟨hstart, startCode_three_iff.mp hcode, hfirst⟩,
        .inl rfl⟩
    · -- the zero before the three bytes belongs to the start code
      subst hlen
      obtain ⟨hzero, hthree⟩ := startCode_four_iff.mp hcode
      refine .inl ⟨p, 4, p + 1, hfound, hstart, rfl, ⟨by omega, hthree, fun j hj hjp h => ?_⟩,
        .inr ⟨rfl, hzero⟩⟩
      obtain hlt | rfl : j < p ∨ j = p := by omega
      · exact hfirst j hj hlt h
      · exact absurd ((startCode_three_iff.mpr h).unique hcode) (by omega)
  · refine .inr ⟨hfound, fun k hk hcode => ?_⟩
    have hmem := mem_codes hcode hk
    rw [hnone] at hmem
    exact hmem

/-- A start code is found where it is. -/
theorem findNextStartCode_here {l : ℕ} (h : StartCode (contents frame) frame.length i l) :
    findNextStartCode frame i frame.length = some (some (i, l)) := by
  have hmem : (i : ℤ) ∈ codes (contents frame) i frame.length := ⟨Int.le_refl i, l, h⟩
  rcases findNextStartCode_cases frame i with ⟨p, l', hfound, hleast, hcode⟩ | ⟨-, hnone⟩
  · obtain rfl : p = i := by
      have := hleast.2 hmem
      have := hleast.1.1
      omega
    obtain rfl : l' = l := by
      have := hcode.unique h
      omega
    exact hfound
  · rw [hnone] at hmem
    exact absurd hmem (Set.notMem_empty _)

theorem findNextStartCode_three (h : CodeAt frame i) :
    findNextStartCode frame i frame.length = some (some (i, 3)) :=
  findNextStartCode_here (startCode_three_iff.mpr h)

theorem findNextStartCode_four (h₀ : frame[i]? = some 0) (h : CodeAt frame (i + 1)) :
    findNextStartCode frame i frame.length = some (some (i, 4)) :=
  findNextStartCode_here (startCode_four_iff.mpr ⟨h₀, h⟩)

end Encoder

end YangIpc
