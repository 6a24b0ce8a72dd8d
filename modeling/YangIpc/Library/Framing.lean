import Mathlib.Data.List.Basic
import Mathlib.Data.Nat.Notation

/-!
# Splitting a stream into packets

A packet begins with a header of fixed length, which declares the size of the whole packet or is
invalid.  A stream is split into its complete packets and a tail: the beginning of a packet still
to come, or bytes that do not begin with a valid header.  Splitting does not depend on how the
stream arrives: what comes after a prefix is split together with the tail of the prefix.

## Main definitions

* `Format`: the header length and the declared size
* `Format.split`: the complete packets of a stream, and its tail
* `Format.Pending`: the streams without a complete packet that may get one

## Main results

* `Format.split_append`: the split of a stream that arrives in two parts
* `Format.split_flatten`: a concatenation of packets is split into these packets
* `Format.split_prefix`: the same when it is cut off anywhere
-/

namespace Framing

/-- How packets of elements of `β` declare their size. -/
structure Format (β : Type*) where
  /-- The length of a header. -/
  head : ℕ
  /-- The size of the packet that begins with this header, if the header is valid. -/
  size : List β → Option ℕ
  head_pos : 0 < head
  size_take : ∀ l, size (l.take head) = size l
  head_le_of_size : ∀ l n, size l = some n → head ≤ n

/-- What follows the complete packets of a stream. -/
inductive Tail (β : Type*)
  /-- the beginning of a packet -/
  | pending (rest : List β)
  /-- a stream that begins with an invalid header -/
  | broken (rest : List β)
deriving Repr

namespace Format

variable {β : Type*} {F : Format β} {l c d p : List β} {n : ℕ}

/-- The complete packets at the head of a stream, and what follows them. -/
def split (F : Format β) (l : List β) : List (List β) × Tail β :=
  if l.length < F.head then ([], .pending l)
  else
    match _hs : F.size l with
    | none => ([], .broken l)
    | some n =>
      if l.length < n then ([], .pending l)
      else
        let r := F.split (l.drop n)
        (l.take n :: r.1, r.2)
termination_by l.length
decreasing_by
  have hn := F.head_le_of_size l n _hs
  have hpos := F.head_pos
  simp only [List.length_drop]
  omega

/-- The stream has no complete packet, and its header, as far as it is known, is valid. -/
def Pending (F : Format β) (c : List β) : Prop :=
  c.length < F.head ∨ ∃ n, F.size c = some n ∧ c.length < n

theorem size_append (h : F.head ≤ l.length) (d : List β) : F.size (l ++ d) = F.size l := by
  rw [← F.size_take (l ++ d), List.take_append_of_le_length h, F.size_take]

/-! ## The cases of a split -/

theorem split_short (h : l.length < F.head) : F.split l = ([], .pending l) := by
  rw [split, if_pos h]

theorem split_broken (h : F.head ≤ l.length) (hs : F.size l = none) :
    F.split l = ([], .broken l) := by
  rw [split, if_neg (by omega)]
  split
  · rfl
  · rename_i n hn
    simp [hs] at hn

theorem split_pending (hs : F.size l = some n) (hl : l.length < n) :
    F.split l = ([], .pending l) := by
  by_cases h : l.length < F.head
  · exact split_short h
  rw [split, if_neg h]
  split
  · rename_i hn
    simp [hs] at hn
  · rename_i k hk
    obtain rfl : k = n := Option.some.inj (hk.symm.trans hs)
    rw [if_pos hl]

theorem split_packet (hs : F.size l = some n) (hl : n ≤ l.length) :
    F.split l = (l.take n :: (F.split (l.drop n)).1, (F.split (l.drop n)).2) := by
  have h := F.head_le_of_size l n hs
  rw [split, if_neg (by omega)]
  split
  · rename_i hn
    simp [hs] at hn
  · rename_i k hk
    obtain rfl : k = n := Option.some.inj (hk.symm.trans hs)
    rw [if_neg (by omega)]

theorem Pending.split (h : F.Pending c) : F.split c = ([], .pending c) := by
  rcases h with h | ⟨n, hs, hl⟩
  · exact split_short h
  · exact split_pending hs hl

@[simp] theorem split_nil : F.split [] = ([], .pending []) := split_short F.head_pos

variable (F) in
/-- **The rule for splits.** What holds of the four cases holds of every stream. -/
theorem split_induction {P : List β → Prop} (short : ∀ l, l.length < F.head → P l)
    (broken : ∀ l, F.head ≤ l.length → F.size l = none → P l)
    (pending : ∀ l n, F.head ≤ l.length → F.size l = some n → l.length < n → P l)
    (packet : ∀ l n, F.size l = some n → n ≤ l.length → P (l.drop n) → P l) : ∀ l, P l := by
  intro l
  induction hlen : l.length using Nat.strongRecOn generalizing l with
  | ind k ih =>
    by_cases hshort : l.length < F.head
    · exact short l hshort
    cases hs : F.size l with
    | none => exact broken l (by omega) hs
    | some n =>
      by_cases hl : l.length < n
      · exact pending l n (by omega) hs hl
      · have hn := F.head_le_of_size l n hs
        have hpos := F.head_pos
        exact packet l n hs (by omega) (ih _ (by simp only [List.length_drop]; omega) _ rfl)

/-! ## Tails -/

theorem pending_of_split : ∀ l, (F.split l).2 = .pending c → F.Pending c := by
  refine F.split_induction (fun l h => ?_) (fun l h hs => ?_) (fun l n h hs hl => ?_)
    fun l n hs hl ih => ?_
  · rw [split_short h]
    rintro ⟨⟩
    exact .inl h
  · rw [split_broken h hs]
    rintro ⟨⟩
  · rw [split_pending hs hl]
    rintro ⟨⟩
    exact .inr ⟨n, hs, hl⟩
  · rw [split_packet hs hl]
    exact ih

/-- A first packet stays the first when more arrives. -/
theorem split_packet_append (d : List β) (hs : F.size l = some n) (hl : n ≤ l.length) :
    F.split (l ++ d) =
      (l.take n :: (F.split (l.drop n ++ d)).1, (F.split (l.drop n ++ d)).2) := by
  have hhead := F.head_le_of_size l n hs
  have hsize : F.size (l ++ d) = some n := (size_append (by omega) d).trans hs
  rw [split_packet hsize (by simp only [List.length_append]; omega),
    List.take_append_of_le_length hl, List.drop_append_of_le_length hl]

/-- **A stream that arrives in two parts.** -/
theorem split_append (d : List β) : ∀ l, (F.split l).2 = .pending c →
    F.split (l ++ d) = ((F.split l).1 ++ (F.split (c ++ d)).1, (F.split (c ++ d)).2) := by
  refine F.split_induction (fun l h => ?_) (fun l h hs => ?_) (fun l n h hs hl => ?_)
    fun l n hs hl ih => ?_
  · rw [split_short h]
    rintro ⟨⟩
    rfl
  · rw [split_broken h hs]
    rintro ⟨⟩
  · rw [split_pending hs hl]
    rintro ⟨⟩
    rfl
  · rw [split_packet hs hl]
    intro hc
    rw [split_packet_append d hs hl, ih hc]
    rfl

/-- Nothing that follows repairs a broken stream. -/
theorem broken_append (d : List β) : ∀ l, (F.split l).2 = .broken c →
    (F.split (l ++ d)).2 = .broken (c ++ d) := by
  refine F.split_induction (fun l h => ?_) (fun l h hs => ?_) (fun l n h hs hl => ?_)
    fun l n hs hl ih => ?_
  · rw [split_short h]
    rintro ⟨⟩
  · rw [split_broken h hs]
    rintro ⟨⟩
    rw [split_broken (by simp only [List.length_append]; omega) ((size_append h d).trans hs)]
  · rw [split_pending hs hl]
    rintro ⟨⟩
  · rw [split_packet hs hl]
    intro hc
    rw [split_packet_append d hs hl]
    exact ih hc

/-- Nothing that follows adds a packet to a broken stream. -/
theorem split_broken_append (d : List β) : ∀ l, (F.split l).2 = .broken c →
    F.split (l ++ d) = ((F.split l).1, .broken (c ++ d)) := by
  refine F.split_induction (fun l h => ?_) (fun l h hs => ?_) (fun l n h hs hl => ?_)
    fun l n hs hl ih => ?_
  · rw [split_short h]
    rintro ⟨⟩
  · rw [split_broken h hs]
    rintro ⟨⟩
    rw [split_broken (by simp only [List.length_append]; omega) ((size_append h d).trans hs)]
  · rw [split_pending hs hl]
    rintro ⟨⟩
  · rw [split_packet hs hl]
    intro hc
    rw [split_packet_append d hs hl, ih hc]

/-- A pending prefix of a stream is at most as long as the first packet. -/
theorem Pending.length_le_head {ps : List (List β)} (hc : F.Pending c)
    (h : (F.split (c ++ d)).1 = p :: ps) : c.length ≤ p.length := by
  by_cases hshort : (c ++ d).length < F.head
  · simp [split_short hshort] at h
  cases hs : F.size (c ++ d) with
  | none => simp [split_broken (Nat.not_lt.mp hshort) hs] at h
  | some n =>
    by_cases hl : (c ++ d).length < n
    · simp [split_pending hs hl] at h
    rw [split_packet hs (Nat.not_lt.mp hl)] at h
    obtain ⟨rfl, -⟩ := List.cons.inj h
    have hhead := F.head_le_of_size _ n hs
    rw [List.length_take, Nat.min_eq_left (Nat.not_lt.mp hl)]
    by_cases hlt : c.length < F.head
    · omega
    · obtain hlt' | ⟨m, hm, hlt'⟩ := hc
      · exact absurd hlt' hlt
      · have heq := (size_append (Nat.not_lt.mp hlt) d).symm.trans hs
        obtain rfl : m = n := Option.some.inj (hm.symm.trans heq)
        omega

/-- A pending prefix of a stream is at most as long as what it becomes: the first packet, or the
tail if there is none. -/
theorem Pending.length_le {ps : List (List β)} {rest : List β} (hc : F.Pending c)
    (h : F.split (c ++ d) = (ps, .pending rest)) :
    c.length ≤ rest.length ∨ ∃ p ∈ ps, c.length ≤ p.length := by
  by_cases hshort : (c ++ d).length < F.head
  · rw [split_short hshort] at h
    obtain ⟨-, hrest⟩ := Prod.mk.inj h
    obtain rfl : c ++ d = rest := by simpa using hrest
    exact .inl (by simp)
  cases hs : F.size (c ++ d) with
  | none =>
    rw [split_broken (Nat.not_lt.mp hshort) hs] at h
    simp at h
  | some n =>
    by_cases hl : (c ++ d).length < n
    · rw [split_pending hs hl] at h
      obtain ⟨-, hrest⟩ := Prod.mk.inj h
      obtain rfl : c ++ d = rest := by simpa using hrest
      exact .inl (by simp)
    · rw [split_packet hs (Nat.not_lt.mp hl)] at h
      obtain ⟨rfl, -⟩ := Prod.mk.inj h
      refine .inr ⟨_, List.mem_cons_self, ?_⟩
      rw [List.length_take, Nat.min_eq_left (Nat.not_lt.mp hl)]
      have hhead := F.head_le_of_size _ n hs
      by_cases hlt : c.length < F.head
      · omega
      · obtain hlt' | ⟨m, hm, hlt'⟩ := hc
        · exact absurd hlt' hlt
        · have heq := (size_append (Nat.not_lt.mp hlt) d).symm.trans hs
          obtain rfl : m = n := Option.some.inj (hm.symm.trans heq)
          omega

/-! ## Packets -/

/-- A packet has the size its header declares. -/
def IsPacket (F : Format β) (p : List β) : Prop := F.size p = some p.length

instance : Decidable (F.IsPacket p) := inferInstanceAs (Decidable (_ = _))

theorem IsPacket.split_append (h : F.IsPacket p) (d : List β) :
    F.split (p ++ d) = (p :: (F.split d).1, (F.split d).2) := by
  have hsize := (size_append (F.head_le_of_size p _ h) d).trans h
  rw [split_packet hsize (by simp), List.take_left' rfl, List.drop_left' rfl]

/-- **A concatenation of packets is split into these packets.** -/
theorem split_flatten {ps : List (List β)} (h : ∀ p ∈ ps, F.IsPacket p) :
    F.split ps.flatten = (ps, .pending []) := by
  induction ps with
  | nil => exact split_nil
  | cons p rest ih =>
    rw [List.flatten_cons, (h p List.mem_cons_self).split_append,
      ih fun q hq => h q (List.mem_cons_of_mem _ hq)]

/-- Packets in front of anything are split off. -/
theorem split_flatten_append {ps : List (List β)} (h : ∀ p ∈ ps, F.IsPacket p) (d : List β) :
    F.split (ps.flatten ++ d) = (ps ++ (F.split d).1, (F.split d).2) := by
  induction ps with
  | nil => rfl
  | cons p rest ih =>
    rw [List.flatten_cons, List.append_assoc, (h p List.mem_cons_self).split_append,
      ih fun q hq => h q (List.mem_cons_of_mem _ hq)]
    rfl

/-- **A concatenation of packets cut off anywhere** is split into the packets before the cut and
the beginning of the next one. -/
theorem split_prefix : ∀ (ps : List (List β)), (∀ p ∈ ps, F.IsPacket p) →
    ∀ l, l <+: ps.flatten → ∃ qs rest, qs <+: ps ∧ F.split l = (qs, .pending rest) ∧
      l = qs.flatten ++ rest ∧ (rest = [] ∨ ∃ p ∈ ps, rest <+: p ∧ rest.length < p.length) := by
  intro ps
  induction ps with
  | nil =>
    intro _ l hl
    obtain rfl := List.prefix_nil.mp hl
    exact ⟨[], [], List.nil_prefix, split_nil, rfl, .inl rfl⟩
  | cons p ps ih =>
    intro h l hl
    have hp := h p List.mem_cons_self
    rw [List.flatten_cons] at hl
    by_cases hlt : l.length < p.length
    -- the cut is inside of the first packet
    · obtain ⟨d, rfl⟩ := List.prefix_of_prefix_length_le hl (List.prefix_append p _)
        (Nat.le_of_lt hlt)
      have hc : F.Pending l := by
        by_cases hhead : l.length < F.head
        · exact .inl hhead
        · exact .inr ⟨_, (size_append (Nat.not_lt.mp hhead) d).symm.trans hp, hlt⟩
      exact ⟨[], l, List.nil_prefix, hc.split, rfl,
        .inr ⟨_, List.mem_cons_self, List.prefix_append _ _, hlt⟩⟩
    -- it is behind the first packet
    · obtain ⟨d, rfl⟩ := List.prefix_of_prefix_length_le (List.prefix_append p _) hl
        (Nat.not_lt.mp hlt)
      obtain ⟨qs, rest, hqs, hsplit, rfl, hrest⟩ := ih (fun q hq => h q (List.mem_cons_of_mem _ hq))
        d ((List.prefix_append_right_inj p).mp hl)
      refine ⟨p :: qs, rest, (List.prefix_cons_inj p).mpr hqs, ?_, by simp, ?_⟩
      · rw [hp.split_append, hsplit]
      · exact hrest.imp_right fun ⟨q, hq, h⟩ => ⟨q, List.mem_cons_of_mem _ hq, h⟩

end Format

end Framing
