import Mathlib.Data.List.Infix
import YangIpc.Transmission.Bounds
import YangIpc.Transmission.RoundTrip

/-!
# Whether the receiver can be wedged

What is left of a chunk is kept in the cache, and the cache is only emptied when the packet begun
there is delivered.  The direct path drops a header with a wrong magic code, and delivers a packet
without payload; the cached path does neither, so such a header, once it is completed in the
cache, stays there for ever.

## Main definitions

* `Modest`: the headers read in a call declare payloads that fit into `cbuf`
* `Live`: some chunks empty the cache, and packets are delivered again
* `Promising`: the beginning of a packet with a payload that fits into `cbuf`
* `KeepsPromise`: what a chunk leaves in the cache, or adds to it, is promising

## Main results

* `wedged`: a header in the cache that no call gets past
* `live_iff`: a channel is live if and only if what it has cached is promising
* `live_iff_keepsPromise`: a run ends in a live channel if and only if every chunk keeps the
  promise
-/

namespace YangIpc

namespace Transmission

open Bytes Framing Transition

variable {channel : Channel} {c data p chunk : List UInt8} {events : List Event} {b n k : ℕ}

/-! ## Promising beginnings -/

/-- The header, as far as it has arrived, begins a packet with a payload, of at most `b` bytes. -/
def Promising (b : ℕ) (c : List UInt8) : Prop :=
  ∃ p, packetFormat.IsPacket p ∧ headSizeTotal < p.length ∧ p.length ≤ b ∧
    c.take headSizeTotal <+: p

theorem Promising.of_append (h : Promising b (c ++ data)) : Promising b c := by
  obtain ⟨p, hp, hlt, hle, hprefix⟩ := h
  exact ⟨p, hp, hlt, hle, (List.IsPrefix.take (List.prefix_append c data) _).trans hprefix⟩

theorem promising_take (hk : headSizeTotal ≤ k) : Promising b (c.take k) ↔ Promising b c := by
  rw [Promising, Promising, List.take_take, Nat.min_eq_left hk]

/-- A complete header is promising if it declares a payload that fits. -/
theorem promising_iff (hc : headSizeTotal ≤ c.length) :
    Promising b c ↔ ∃ n, packetFormat.size c = some n ∧ headSizeTotal < n ∧ n ≤ b := by
  have htake : (c.take headSizeTotal).length = headSizeTotal := by
    rw [List.length_take, Nat.min_eq_left hc]
  have hhead : packetFormat.size (c.take headSizeTotal) = packetFormat.size c :=
    packetFormat.size_take c
  constructor
  -- the header alone declares the size
  · rintro ⟨p, hp, hlt, hle, hprefix⟩
    refine ⟨p.length, ?_, hlt, hle⟩
    obtain ⟨rest, rfl⟩ := hprefix
    rw [← hp, Format.size_append (Nat.le_of_eq htake.symm) rest, hhead]
  · -- the header is followed by as many bytes as it declares
    rintro ⟨n, hsize, hlt, hle⟩
    have hlength : (c.take headSizeTotal ++ List.replicate (n - headSizeTotal) 0).length = n := by
      rw [List.length_append, htake, List.length_replicate]
      omega
    refine ⟨_, ?_, hlength.symm ▸ hlt, hlength.symm ▸ hle, List.prefix_append _ _⟩
    rw [Format.IsPacket, hlength, Format.size_append (Nat.le_of_eq htake.symm), hhead, hsize]

/-- Nothing is cached, or it is promising. -/
def Continues (b : ℕ) (c : List UInt8) : Prop := c ≠ [] → Promising b c

theorem continues_nil : Continues b [] := fun h => absurd rfl h

/-! ## What may be cached -/

/-- A header declares a payload that fits into `b` bytes together with it. -/
def Event.Fits (b : ℕ) : Event → Prop
  | .head declared => headSizeTotal + declared.length.toNat ≤ b
  | _ => True

instance : (e : Event) → Decidable (e.Fits b)
  | .head _ => inferInstanceAs (Decidable (_ ≤ _))
  | .memcpy .. => .isTrue trivial
  | .recive .. => .isTrue trivial

/-- Every header read declares a payload that fits. -/
def Fits (b : ℕ) (events : List Event) : Prop := ∀ e ∈ events, e.Fits b

instance : Decidable (Fits b events) := inferInstanceAs (Decidable (∀ e ∈ events, e.Fits b))

theorem Fits.size {l : List UInt8} (h : Fits b events) (hsize : packetFormat.size l = some n)
    (hmem : .head (DbTransHead.read l) ∈ events) : n ≤ b := by
  obtain ⟨-, rfl⟩ := size_eq_some hsize
  exact h _ hmem

/-- The cached bytes are at most a header, or the beginning of a packet that fits into `b`
bytes. -/
def Cacheable (b : ℕ) (c : List UInt8) : Prop :=
  c.length ≤ headSizeTotal ∨ ∃ n, packetFormat.size c = some n ∧ c.length < n ∧ n ≤ b

theorem Cacheable.length_le (h : Cacheable b c) : c.length ≤ max headSizeTotal b := by
  rcases h with h | ⟨n, -, hlt, hle⟩
  · exact Nat.le_trans h (Nat.le_max_left _ _)
  · exact Nat.le_trans (Nat.le_trans (Nat.le_of_lt hlt) hle) (Nat.le_max_right _ _)

/-- A header that is not promising is completed in the cache, and nothing follows it there. -/
theorem Cacheable.length_le_head (h : Cacheable b c) (data : List UInt8)
    (hsize : ∀ n, packetFormat.size (c ++ data) = some n → n ≤ filled c) :
    c.length ≤ headSizeTotal := by
  rcases h with h | ⟨n, hs, hlt, -⟩
  · exact h
  · by_contra hgt
    have hn := hsize n ((Format.size_append (Nat.le_of_not_le hgt) data).trans hs)
    rw [filled, Nat.max_eq_left (Nat.le_of_not_le hgt)] at hn
    omega

/-- A promising cache has no complete packet. -/
theorem Cacheable.split (h : Cacheable b c) (hp : Promising b c) :
    packetFormat.split c = ([], .pending c) := by
  by_cases hc : c.length < headSizeTotal
  · exact Format.split_short hc
  obtain ⟨n, hsize, hlt, -⟩ := (promising_iff (Nat.not_lt.mp hc)).mp hp
  apply Format.split_pending hsize
  rcases h with hle | ⟨m, hm, hlt', -⟩
  · omega
  · obtain rfl : m = n := Option.some.inj (hm.symm.trans hsize)
    exact hlt'

theorem cacheable_kept (h : Fits b (keepEvents (packetFormat.split data).2)) :
    Cacheable b (kept (packetFormat.split data).2) := by
  cases htail : (packetFormat.split data).2 with
  | broken rest => exact .inl (Nat.zero_le _)
  | pending rest =>
    rw [htail] at h
    by_cases hrest : rest.length < headSizeTotal
    · exact .inl (Nat.le_of_lt hrest)
    rcases Format.pending_of_split _ htail with hlt | ⟨n, hsize, hlt⟩
    · exact absurd hlt hrest
    · refine .inr ⟨n, hsize, hlt, h.size hsize ?_⟩
      have hnil : rest ≠ [] := fun hnil => hrest (by rw [hnil]; decide)
      rw [keepEvents, if_neg hnil, if_neg hrest]
      exact List.mem_cons_self

/-- The cache stays as it should be. -/
theorem Cacheable.reassemble (h : Cacheable b c) (hfits : Fits b (reassemble c data).2) :
    Cacheable b (Transmission.reassemble c data).1 := by
  have hcases := reassembles c data
  generalize Transmission.reassemble c data = r at hcases hfits ⊢
  have hfilled (hle : c.length ≤ headSizeTotal) :
      ((c ++ data).take (filled c)).length ≤ headSizeTotal := by
    rw [filled, Nat.max_eq_right hle]
    exact List.length_take_le _ _
  cases hcases with
  | direct empty =>
    exact cacheable_kept fun e hmem => hfits e (List.mem_append_right _ hmem)
  | idle cached nothing => exact h
  | short cached few => exact .inl (Nat.le_of_lt few)
  | invalid cached enough size =>
    exact .inl (hfilled (h.length_le_head data fun n hn => by simp [size] at hn))
  | flow n cached enough size beyond =>
    refine .inl (hfilled (h.length_le_head data fun m hm => ?_))
    obtain rfl : m = n := Option.some.inj (hm.symm.trans size)
    exact beyond
  | payload n cached enough size under few =>
    refine .inr ⟨n, size, few, hfits.size size ?_⟩
    exact List.mem_append_right _ List.mem_cons_self
  | complete n cached enough size under all =>
    refine cacheable_kept fun e hmem => hfits e ?_
    exact List.mem_append_right _ (List.mem_append_right _ hmem)

/-! ## One chunk -/

/-- The header that is completed in the cache and the one that is left there are promising. -/
def Keeps (b : ℕ) (c data : List UInt8) : Prop :=
  (c ≠ [] → Promising b (c ++ data)) ∧ Continues b (kept (packetFormat.split (c ++ data)).2)

/-- **One chunk.** What is cached after it is promising if and only if it keeps the promise. -/
theorem continues_reassemble_iff (h : Cacheable b c) (hfits : Fits b (reassemble c data).2) :
    Continues b (reassemble c data).1 ↔ Keeps b c data := by
  have hcases := reassembles c data
  generalize reassemble c data = r at hcases hfits ⊢
  -- A header that is not promising stays in the cache for good.
  have hdead (cached : c ≠ []) (enough : headSizeTotal ≤ (c ++ data).length)
      (hsize : ∀ n, packetFormat.size (c ++ data) = some n → n ≤ filled c) :
      Continues b ((c ++ data).take (filled c)) ↔ Keeps b c data := by
    have hnot : ¬Promising b (c ++ data) := fun hp => by
      obtain ⟨n, hn, hlt, -⟩ := (promising_iff enough).mp hp
      have hle := hsize n hn
      rw [filled, Nat.max_eq_right (h.length_le_head data hsize)] at hle
      omega
    have hnil : (c ++ data).take (filled c) ≠ [] := by
      have hhead : headSizeTotal ≤ filled c := Nat.le_max_right _ _
      have hpos : 0 < headSizeTotal := by decide
      apply List.ne_nil_of_length_pos
      rw [List.length_take]
      omega
    refine iff_of_false (fun hcont => hnot ?_) fun hkeeps => hnot (hkeeps.1 cached)
    exact (promising_take (Nat.le_max_right _ _)).mp (hcont hnil)
  cases hcases with
  | direct empty =>
    subst empty
    exact ⟨fun hcont => ⟨fun hne => absurd rfl hne, hcont⟩, fun hkeeps => hkeeps.2⟩
  | idle cached nothing =>
    -- nothing changes, and the cached bytes are the tail of themselves
    subst nothing
    rw [Keeps, List.append_nil]
    refine ⟨fun hcont => ⟨hcont, ?_⟩, fun hkeeps => hkeeps.1⟩
    rw [h.split (hcont cached)]
    exact hcont
  | short cached few =>
    -- the chunk is kept behind the cached bytes
    have hnil : c ++ data ≠ [] := fun hnil => cached (List.append_eq_nil_iff.mp hnil).1
    rw [Keeps, Format.split_short few]
    exact ⟨fun hcont => ⟨fun _ => hcont hnil, hcont⟩, fun hkeeps => hkeeps.2⟩
  | invalid cached enough size =>
    exact hdead cached enough fun n hn => by simp [size] at hn
  | flow n cached enough size beyond =>
    apply hdead cached enough
    intro m hm
    obtain rfl : m = n := Option.some.inj (hm.symm.trans size)
    exact beyond
  | payload n cached enough size under few =>
    -- the header declares a payload that is not complete yet, and fits
    have hhead : headSizeTotal ≤ filled c := Nat.le_max_right _ _
    have hle : n ≤ b := hfits.size size (List.mem_append_right _ List.mem_cons_self)
    have hp : Promising b (c ++ data) := (promising_iff enough).mpr ⟨n, size, by omega, hle⟩
    rw [Keeps, Format.split_pending size few]
    exact iff_of_true (fun _ => hp) ⟨fun _ => hp, fun _ => hp⟩
  | complete n cached enough size under all =>
    -- the packet is delivered; what counts is what the rest of the chunk leaves
    have hhead : headSizeTotal ≤ filled c := Nat.le_max_right _ _
    have hle : n ≤ b := hfits.size size
      (List.mem_append_left _ (List.mem_append_right _ List.mem_cons_self))
    have hp : Promising b (c ++ data) := (promising_iff enough).mpr ⟨n, size, by omega, hle⟩
    rw [Keeps, Format.split_packet size all]
    exact ⟨fun hcont => ⟨fun _ => hp, hcont⟩, fun hkeeps => hkeeps.2⟩

theorem Keeps.continues (h : Keeps b c data) : Continues b c := fun hne => (h.1 hne).of_append

/-- A promising cache is completed by the rest of a packet. -/
theorem Cacheable.exists_rest (h : Cacheable b c) (hp : Promising b c) : ∃ rest, rest ≠ [] ∧
    packetFormat.IsPacket (c ++ rest) ∧ headSizeTotal < (c ++ rest).length ∧
      (c ++ rest).length ≤ b := by
  by_cases hc : c.length < headSizeTotal
  · -- the packet that is promised
    obtain ⟨p, hpacket, hlt, hle, hprefix⟩ := hp
    rw [List.take_of_length_le (Nat.le_of_lt hc)] at hprefix
    obtain ⟨rest, rfl⟩ := hprefix
    refine ⟨rest, fun hnil => ?_, hpacket, hlt, hle⟩
    rw [hnil, List.append_nil] at hlt
    omega
  -- The header is complete: any bytes will do as the rest of the payload.
  have hc := Nat.not_lt.mp hc
  obtain ⟨n, hsize, hlt, hle⟩ := (promising_iff hc).mp hp
  have hshort : c.length < n := by
    rcases Format.pending_of_split _ (congrArg Prod.snd (h.split hp)) with hlt' | ⟨m, hm, hlt'⟩
    · exact absurd hlt' (Nat.not_lt.mpr hc)
    · obtain rfl : m = n := Option.some.inj (hm.symm.trans hsize)
      exact hlt'
  have hlength : (c ++ List.replicate (n - c.length) 0).length = n := by
    rw [List.length_append, List.length_replicate]
    omega
  refine ⟨List.replicate (n - c.length) 0, List.ne_nil_of_length_pos ?_, ?_, ?_, ?_⟩
  · rw [List.length_replicate]
    omega
  · rw [Format.IsPacket, hlength, Format.size_append hc, hsize]
  · rw [hlength]
    exact hlt
  · rw [hlength]
    exact hle

/-- The rest of a packet with a payload empties the cache. -/
theorem reassemble_rest (hnil : c ≠ []) (hdata : data ≠ [])
    (hpacket : packetFormat.IsPacket (c ++ data)) (hlt : headSizeTotal < (c ++ data).length)
    (hle : (c ++ data).length ≤ b) :
    (reassemble c data).1 = [] ∧ Fits b (reassemble c data).2 := by
  have hpos := List.length_pos_iff.mpr hdata
  have hfilled : filled c < (c ++ data).length := by
    refine Nat.max_lt.mpr ⟨?_, hlt⟩
    rw [List.length_append]
    omega
  have hcases := reassembles c data
  generalize reassemble c data = r at hcases ⊢
  cases hcases with
  | direct empty => exact absurd empty hnil
  | idle cached nothing => exact absurd nothing hdata
  | short cached few => exact absurd few (by omega)
  | invalid cached enough size => exact absurd (hpacket.symm.trans size) (by simp)
  | flow n cached enough size beyond =>
    obtain rfl : _ = n := Option.some.inj (hpacket.symm.trans size)
    exact absurd beyond (by omega)
  | payload n cached enough size under few =>
    obtain rfl : _ = n := Option.some.inj (hpacket.symm.trans size)
    exact absurd few (by omega)
  | complete n cached enough size under all =>
    obtain rfl : _ = n := Option.some.inj (hpacket.symm.trans size)
    obtain ⟨-, hsize⟩ := size_eq_some size
    rw [List.drop_length]
    refine ⟨by simp [kept], ?_⟩
    have hfill : Fits b (fillEvents c) := by
      unfold fillEvents
      split <;> simp [Fits, Event.Fits]
    have hfit : headSizeTotal + (DbTransHead.read (c ++ data)).length.toNat ≤ b := by omega
    simpa [Fits, or_imp, forall_and, directEvents, keepEvents, deliver, DbTransHead.recive,
      Event.Fits, hfit] using hfill

/-! ## A run -/

/-- The headers read in the call declare payloads that fit into `cbuf`. -/
def Modest (channel : Channel) (chunk : List UInt8) : Prop :=
  Fits channel.csize.toNat (yangipcTransmissionUnpack channel chunk).2

instance (channel : Channel) (chunk : List UInt8) : Decidable (Modest channel chunk) :=
  inferInstanceAs (Decidable (Fits _ _))

/-- After some more chunks nothing is cached, and a packet that follows is delivered. -/
def Live (channel : Channel) : Prop :=
  ∃ chunks, Along serverStep Modest channel chunks ∧ (receive channel chunks).1.ccount = 0 ∧
    ∀ p, packetFormat.IsPacket p →
      deliver p ∈ (yangipcTransmissionUnpack (receive channel chunks).1 p).2

/-- The header that the chunk completes in the cache and the one that it leaves there begin
packets with a payload that fits into `cbuf`. -/
def KeepsPromise (channel : Channel) (chunk : List UInt8) : Prop :=
  Keeps channel.csize.toNat channel.cached chunk

theorem serverStep_cached (h : Cacheable channel.csize.toNat channel.cached)
    (hmodest : Modest channel chunk) :
    (serverStep channel chunk).cached = (reassemble channel.cached chunk).1 ∧
      Cacheable channel.csize.toNat (serverStep channel chunk).cached ∧
      (Continues channel.csize.toNat (serverStep channel chunk).cached ↔
        KeepsPromise channel chunk) := by
  obtain ⟨hevents, hnext⟩ := unpack_refines (caches_cached channel) chunk
  rw [Modest, hevents] at hmodest
  have hcacheable := h.reassemble hmodest
  have hlength := hcacheable.length_le
  have hlt := channel.csize.toNat_lt
  have hhead : headSizeTotal = 16 := rfl
  have hcached : (serverStep channel chunk).cached = (reassemble channel.cached chunk).1 :=
    (hnext (by omega)).cached_eq
  rw [hcached]
  exact ⟨rfl, hcacheable, continues_reassemble_iff h hmodest⟩

/-- **A run.** What is cached at its end is promising if and only if it was so at the beginning,
and every chunk has kept the promise. -/
theorem continues_receive_iff : ∀ (chunks : List (List UInt8)) (channel : Channel),
    Cacheable channel.csize.toNat channel.cached → Along serverStep Modest channel chunks →
    Cacheable channel.csize.toNat (receive channel chunks).1.cached ∧
      (receive channel chunks).1.csize = channel.csize ∧
      (Continues channel.csize.toNat (receive channel chunks).1.cached ↔
        Continues channel.csize.toNat channel.cached ∧
          Along serverStep KeepsPromise channel chunks) := by
  intro chunks
  induction chunks with
  | nil => exact fun channel h _ => ⟨h, rfl, (and_iff_left trivial).symm⟩
  | cons chunk rest ih =>
    rintro channel h ⟨hmodest, hrest⟩
    obtain ⟨-, hcacheable, hkeeps⟩ := serverStep_cached h hmodest
    have hcsize := serverStep_csize channel chunk
    obtain ⟨hlast, hlastsize, hiff⟩ := ih (serverStep channel chunk) (hcsize ▸ hcacheable) hrest
    rw [hcsize] at hlast hlastsize hiff
    refine ⟨hlast, hlastsize, hiff.trans ?_⟩
    constructor
    · -- a promise kept now was not broken before
      rintro ⟨hnext, halong⟩
      have hkeep := hkeeps.mp hnext
      exact ⟨hkeep.continues, hkeep, halong⟩
    · rintro ⟨-, hkeep, halong⟩
      exact ⟨hkeeps.mpr hkeep, halong⟩

/-- With an empty cache every packet is delivered. -/
theorem deliver_mem_unpack (hempty : channel.ccount = 0) (hp : packetFormat.IsPacket p) :
    deliver p ∈ (yangipcTransmissionUnpack channel p).2 := by
  rw [(unpack_refines (caches_nil.mpr hempty) p).1, reassemble, if_pos rfl, directEvents]
  refine List.mem_append_left _ (List.mem_flatMap.mpr ⟨p, ?_, by simp⟩)
  have hsplit := hp.split_append []
  rw [List.append_nil] at hsplit
  rw [hsplit]
  exact List.mem_cons_self

/-- **A channel is live if and only if what it has cached is promising.** -/
theorem live_iff (h : Cacheable channel.csize.toNat channel.cached) :
    Live channel ↔ Continues channel.csize.toNat channel.cached := by
  constructor
  · rintro ⟨chunks, hmodest, hempty, -⟩
    obtain ⟨-, -, hiff⟩ := continues_receive_iff chunks channel h hmodest
    rw [(caches_nil.mpr hempty).cached_eq] at hiff
    exact (hiff.mp continues_nil).1
  · intro hcontinues
    -- The chunk that empties the cache is the rest of the promised packet.
    by_cases hnil : channel.cached = []
    · have hempty : channel.ccount = 0 := caches_nil.mp (hnil ▸ caches_cached channel)
      exact ⟨[], trivial, hempty, fun p hp => deliver_mem_unpack hempty hp⟩
    obtain ⟨rest, hrest, hpacket, hlt, hle⟩ := h.exists_rest (hcontinues hnil)
    obtain ⟨hcache, hfits⟩ := reassemble_rest hnil hrest hpacket hlt hle
    obtain ⟨hevents, hnext⟩ := unpack_refines (caches_cached channel) rest
    rw [hcache] at hnext
    have hempty : (receive channel [rest]).1.ccount = 0 := caches_nil.mp (hnext (by decide))
    refine ⟨[rest], ⟨?_, trivial⟩, hempty, fun p hp => deliver_mem_unpack hempty hp⟩
    rw [Modest, hevents]
    exact hfits

/-- **A header that no call gets past.** A completed header with a wrong magic code or without
payload stays in the cache: later calls leave the channel as it is, and deliver nothing. -/
theorem wedged (channel : Channel) (hcount : channel.ccount.toNat = headSizeTotal)
    (hsize : ∀ n, packetFormat.size channel.cached = some n → n ≤ headSizeTotal)
    (chunk : List UInt8) :
    (yangipcTransmissionUnpack channel chunk).1 = channel ∧
      deliveries (yangipcTransmissionUnpack channel chunk).2 = [] := by
  by_cases hnil : chunk = []
  · subst hnil
    exact ⟨rfl, rfl⟩
  have hcaches := caches_cached channel
  have hlength : channel.cached.length = headSizeTotal := hcaches.count.symm.trans hcount
  have hne : channel.ccount ≠ 0 := fun hz => by rw [hz] at hcount; exact absurd hcount (by decide)
  have happend := Format.size_append (F := packetFormat) (Nat.le_of_eq hlength.symm) chunk
  rw [unpack_of_ne_nil hnil, unpackIteration, if_neg hne, unpackCached,
    if_neg (Nat.not_lt.mpr (Nat.le_of_eq hcount.symm))]
  cases hs : packetFormat.size channel.cached with
  | none =>
    rw [unpackPayload_none hcaches (Nat.le_of_eq hlength.symm) (happend.trans hs)]
    exact ⟨rfl, rfl⟩
  | some n =>
    rw [unpackPayload_some hcaches (Nat.le_of_eq hlength.symm) (happend.trans hs),
      if_pos (hlength.symm ▸ hsize n hs)]
    exact ⟨rfl, rfl⟩

/-- The header of a packet without payload. -/
def emptyHeader : List UInt8 := [0xD5, 0xF0, 0, 0, 0, 0, 0, 0, 0, 0, 0, 0, 0, 0, 0, 0]

/-- **The receiver may be wedged.** A packet without payload arrives in two chunks: the channel is
not live any more, and every later call leaves it as it is and delivers nothing. -/
theorem receiver_may_be_wedged :
    (¬∀ chunks, Along serverStep Modest smallChannel chunks →
      Live (receive smallChannel chunks).1) ∧
    ¬∀ chunks, Along serverStep Modest smallChannel chunks →
      (receive smallChannel chunks).1.ccount ≠ 0 →
      ∃ chunk, serverStep (receive smallChannel chunks).1 chunk ≠ (receive smallChannel chunks).1 ∨
        deliveries (yangipcTransmissionUnpack (receive smallChannel chunks).1 chunk).2 ≠ [] := by
  have hmodest : Along serverStep Modest smallChannel [emptyHeader.take 5, emptyHeader.drop 5] :=
    ⟨by decide +kernel, by decide +kernel, trivial⟩
  have hcached : (receive smallChannel [emptyHeader.take 5, emptyHeader.drop 5]).1.cached =
      emptyHeader := by decide +kernel
  have hsize : packetFormat.size emptyHeader = some headSizeTotal := by decide
  constructor
  · intro h
    obtain ⟨hcacheable, hcsize, -⟩ :=
      continues_receive_iff _ smallChannel (.inl (by decide)) hmodest
    rw [← hcsize] at hcacheable
    -- a live channel would have something promising in its cache
    have hpromising := (live_iff hcacheable).mp (h _ hmodest) (by rw [hcached]; decide)
    rw [hcached] at hpromising
    obtain ⟨n, hn, hlt, -⟩ := (promising_iff (by decide)).mp hpromising
    obtain rfl : headSizeTotal = n := Option.some.inj (hsize.symm.trans hn)
    exact absurd hlt (Nat.lt_irrefl _)
  · intro h
    obtain ⟨chunk, hchunk⟩ := h _ hmodest (by decide +kernel)
    have hlong : ∀ n, packetFormat.size
        (receive smallChannel [emptyHeader.take 5, emptyHeader.drop 5]).1.cached = some n →
        n ≤ headSizeTotal := by
      rw [hcached, hsize]
      rintro n ⟨⟩
      exact Nat.le_refl _
    obtain ⟨hsame, hnothing⟩ := wedged _ (by decide +kernel) hlong chunk
    exact hchunk.elim (fun hne => hne hsame) fun hne => hne hnothing

/-- **A run ends in a live channel if and only if every chunk keeps the promise**: the header it
completes in the cache and the one it leaves there have the right magic code, and declare a
payload that is not empty and fits into `cbuf`. -/
theorem live_iff_keepsPromise (channel : Channel) (chunks : List (List UInt8))
    (hempty : channel.ccount = 0) (hmodest : Along serverStep Modest channel chunks) :
    Live (receive channel chunks).1 ↔ Along serverStep KeepsPromise channel chunks := by
  have hcached : channel.cached = [] := (caches_nil.mpr hempty).cached_eq
  obtain ⟨hcacheable, hcsize, hiff⟩ :=
    continues_receive_iff chunks channel (.inl (by rw [hcached]; exact Nat.zero_le _)) hmodest
  rw [← hcsize] at hcacheable
  rw [live_iff hcacheable, hcsize, hiff, hcached]
  exact and_iff_right continues_nil

/-- A packet with a payload of three bytes. -/
def smallPacket : List UInt8 := [0xD5, 0xF0, 0, 0, 0, 0, 0, 0, 0, 0, 3, 0, 0, 0, 0, 0, 1, 2, 3]

/-- The packet in three chunks, of which the second completes its header; the third goes on with the
next packet. -/
def threeChunks : List (List UInt8) :=
  [smallPacket.take 5, (smallPacket.drop 5).take 12, smallPacket.drop 17 ++ smallPacket.take 3]

/-- The channel that has seen them is live: a header was completed in the cache, and the beginning
of another is left there. -/
theorem live_iff_keepsPromise_packet : Live (receive smallChannel threeChunks).1 := by
  have hpromising (c : List UInt8) (hc : c.take headSizeTotal <+: smallPacket) :
      Promising smallChannel.csize.toNat c :=
    ⟨smallPacket, by decide, by decide, by decide, hc⟩
  have hsize : packetFormat.size smallPacket = some 19 := by decide
  refine (live_iff_keepsPromise smallChannel threeChunks rfl (by decide +kernel)).mpr
    ⟨?_, ?_, ?_, trivial⟩
  · refine ⟨fun hne => absurd rfl hne, fun _ => ?_⟩
    have hcached : smallChannel.cached = [] := rfl
    rw [hcached, List.nil_append, Format.split_short (by decide)]
    exact hpromising _ ⟨smallPacket.drop 5, by decide⟩
  · have hcached : (serverStep smallChannel (smallPacket.take 5)).cached = smallPacket.take 5 := by
      decide +kernel
    have hjoin : smallPacket.take 5 ++ (smallPacket.drop 5).take 12 = smallPacket.take 17 := by
      decide
    rw [KeepsPromise, hcached, Keeps, hjoin]
    refine ⟨fun _ => hpromising _ ⟨smallPacket.drop 16, by decide⟩, fun _ => ?_⟩
    rw [Format.split_pending (n := 19) (by decide) (by decide)]
    exact hpromising _ ⟨smallPacket.drop 16, by decide⟩
  · have hcached : (serverStep (serverStep smallChannel (smallPacket.take 5))
        ((smallPacket.drop 5).take 12)).cached = smallPacket.take 17 := by decide +kernel
    have hjoin : smallPacket.take 17 ++ (smallPacket.drop 17 ++ smallPacket.take 3) =
        smallPacket ++ smallPacket.take 3 := by decide
    rw [KeepsPromise, hcached, Keeps, hjoin]
    refine ⟨fun _ => hpromising _ ⟨smallPacket.drop 16, by decide⟩, fun _ => ?_⟩
    rw [Format.split_packet_append _ hsize (by decide),
      Format.split_short (l := smallPacket.drop 19 ++ smallPacket.take 3) (by decide)]
    exact hpromising _ ⟨smallPacket.drop 3, by decide⟩

end Transmission

end YangIpc
