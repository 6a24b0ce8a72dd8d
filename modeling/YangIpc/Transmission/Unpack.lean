import YangIpc.Transmission.Packet

/-!
# Unpacking

`yangipc_transmission_unpack` takes one chunk of a stream.  Whole packets are delivered from the
chunk itself; what is left at its end is kept in `cbuf`, and the next chunk first completes the
header and the payload found there.  The loop is left by `break` at eight places.

The loop is modelled iteration by iteration, with `ccount` in 16 bits and `cbuf` a memory without
bounds, so that a copy beyond `csize` is visible: every `os_memcpy` into `cbuf`, every header
accepted and every call of the callback is an event.  The callback is present in every call of the
repository, and leaves `cbuf` and `ccount` alone.

## Main definitions

* `unpackDirect`, `unpackCached`: one iteration with an empty and with a filled cache
* `yangipcTransmissionUnpack`: one call; `receive`: one call for each chunk
* `reassemble`: the same on lists of bytes, by splitting

## Main results

* `unpack_refines`: a call does what `reassemble` says
-/

namespace YangIpc

namespace Transmission

open Bytes Framing

variable {channel : Channel} {c p data : List UInt8} {fuel : ℕ}

/-- What is observed of a call. -/
inductive Event
  /-- a header with the right magic code -/
  | head (head : DbTransHead)
  /-- `os_memcpy` of `length` bytes to `cbuf + offset` -/
  | memcpy (offset length : ℕ)
  /-- the callback, with the bytes `data` points to -/
  | recive (sequence flags : UInt16) (timestamp : UInt32) (sequences : UInt8)
      (data : List UInt8) (length : UInt16)
deriving DecidableEq, Repr

/-- The call of the callback for a header and its payload. -/
def DbTransHead.recive (head : DbTransHead) (payload : List UInt8) : Event :=
  .recive head.sequence head.flags head.timestamp head.sequence.toUInt8 payload head.length

/-- `os_memcpy` behind the cached bytes, and `ccount += left`. -/
def Channel.cache (channel : Channel) (p : List UInt8) : Channel :=
  { channel with
    cbuf := store channel.cbuf channel.ccount.toNat p
    ccount := channel.ccount + UInt16.ofNat p.length }

/-- The event of this copy. -/
def Channel.memcpy (channel : Channel) (p : List UInt8) : Event :=
  .memcpy channel.ccount.toNat p.length

/-- What one iteration does: the bytes left when the loop goes on, `none` for a `break`. -/
structure Iteration where
  channel : Channel
  events : List Event
  left : Option (List UInt8)

/-- An iteration with `ccount == 0`. -/
def unpackDirect (channel : Channel) (p : List UInt8) : Iteration :=
  if p.length < headSizeTotal then ⟨channel.cache p, [channel.memcpy p], none⟩
  else
    let head := DbTransHead.read p
    if head.magic = headMagicCode then
      -- the payload is incomplete: header and payload wait in `cbuf`
      if p.length < head.length.toNat + headSizeTotal then
        ⟨channel.cache p, [.head head, channel.memcpy p], none⟩
      else
        ⟨channel, [.head head, head.recive ((p.drop headSizeTotal).take head.length.toNat)],
          some (p.drop (headSizeTotal + head.length.toNat))⟩
    -- "invaild src data": the rest of the chunk is dropped
    else ⟨channel, [], none⟩

/-- The part of an iteration that follows the completed header in `cbuf`. -/
def unpackPayload (channel : Channel) (p : List UInt8) : Iteration :=
  let head := DbTransHead.read (load channel.cbuf 0 headSizeTotal)
  if head.magic = headMagicCode then
    if channel.ccount.toNat < headSizeTotal + head.length.toNat then
      let cpLen := head.length.toNat + headSizeTotal - channel.ccount.toNat
      if p.length < cpLen then ⟨channel.cache p, [.head head, channel.memcpy p], none⟩
      else
        let filled := channel.cache (p.take cpLen)
        ⟨{ filled with ccount := 0 },
          [.head head, channel.memcpy (p.take cpLen),
            head.recive (load filled.cbuf headSizeTotal head.length.toNat)],
          some (p.drop cpLen)⟩
    -- "invaild flow data": the cache is left as it is
    else ⟨channel, [.head head], none⟩
  -- "invaild cached data": the cache is left as it is
  else ⟨channel, [], none⟩

/-- An iteration with `ccount != 0`. -/
def unpackCached (channel : Channel) (p : List UInt8) : Iteration :=
  if channel.ccount.toNat < headSizeTotal then
    let cpLen := headSizeTotal - channel.ccount.toNat
    if p.length < cpLen then ⟨channel.cache p, [channel.memcpy p], none⟩
    else
      let next := unpackPayload (channel.cache (p.take cpLen)) (p.drop cpLen)
      { next with events := channel.memcpy (p.take cpLen) :: next.events }
  else unpackPayload channel p

/-- One iteration of the loop. -/
def unpackIteration (channel : Channel) (p : List UInt8) : Iteration :=
  if channel.ccount = 0 then unpackDirect channel p else unpackCached channel p

/-- The loop, for at most `fuel` iterations. -/
def unpackLoop : ℕ → Channel → List UInt8 → Channel × List Event
  | 0, channel, _ => (channel, [])
  | fuel + 1, channel, p =>
    if p = [] then (channel, [])
    else
      match unpackIteration channel p with
      | ⟨channel, events, none⟩ => (channel, events)
      | ⟨channel, events, some left⟩ =>
        let r := unpackLoop fuel channel left
        (r.1, events ++ r.2)

/-- `yangipc_transmission_unpack`.  Every iteration that goes on has used up a byte. -/
def yangipcTransmissionUnpack (channel : Channel) (data : List UInt8) : Channel × List Event :=
  unpackLoop data.length channel data

/-- One call for each chunk. -/
def receive (channel : Channel) : List (List UInt8) → Channel × List Event
  | [] => (channel, [])
  | chunk :: rest =>
    let r := yangipcTransmissionUnpack channel chunk
    let r' := receive r.1 rest
    (r'.1, r.2 ++ r'.2)

/-! ## The same on lists of bytes -/

/-- The call of the callback for a packet. -/
def deliver (packet : List UInt8) : Event :=
  (DbTransHead.read packet).recive (packet.drop headSizeTotal)

/-- What is kept of a tail: a broken stream is dropped. -/
def kept : Tail UInt8 → List UInt8
  | .pending rest => rest
  | .broken _ => []

/-- The events of keeping a tail. -/
def keepEvents : Tail UInt8 → List Event
  | .pending rest =>
    if rest = [] then []
    else if rest.length < headSizeTotal then [.memcpy 0 rest.length]
    else [.head (DbTransHead.read rest), .memcpy 0 rest.length]
  | .broken _ => []

/-- The events of a stream that begins at a packet boundary. -/
def directEvents (data : List UInt8) : List Event :=
  (packetFormat.split data).1.flatMap (fun p => [.head (DbTransHead.read p), deliver p]) ++
    keepEvents (packetFormat.split data).2

/-- The number of cached bytes once the header is complete. -/
def filled (cached : List UInt8) : ℕ := max cached.length headSizeTotal

/-- The events of completing a header in the cache. -/
def fillEvents (cached : List UInt8) : List Event :=
  if cached.length < headSizeTotal then [.memcpy cached.length (headSizeTotal - cached.length)]
  else []

/-- What a call does with the cached bytes and the bytes of the chunk: the bytes cached after it,
and the events. -/
def reassemble (cached data : List UInt8) : List UInt8 × List Event :=
  let stream := cached ++ data
  if cached = [] then (kept (packetFormat.split data).2, directEvents data)
  else if data = [] then (cached, [])
  else if stream.length < headSizeTotal then (stream, [.memcpy cached.length data.length])
  else
    match packetFormat.size stream with
    | none => (stream.take (filled cached), fillEvents cached)
    | some n =>
      let head : Event := .head (DbTransHead.read stream)
      if n ≤ filled cached then (stream.take (filled cached), fillEvents cached ++ [head])
      else if stream.length < n then
        (stream, fillEvents cached ++
          [head, .memcpy (filled cached) (stream.length - filled cached)])
      else
        (kept (packetFormat.split (stream.drop n)).2,
          fillEvents cached ++ [head, .memcpy (filled cached) (n - filled cached),
            deliver (stream.take n)] ++ directEvents (stream.drop n))

/-- The cases of `reassemble`. -/
inductive Reassembles (c data : List UInt8) : List UInt8 × List Event → Prop
  /-- nothing is cached -/
  | direct (empty : c = []) :
      Reassembles c data (kept (packetFormat.split data).2, directEvents data)
  /-- nothing arrives -/
  | idle (cached : c ≠ []) (nothing : data = []) : Reassembles c data (c, [])
  /-- the header stays incomplete -/
  | short (cached : c ≠ []) (few : (c ++ data).length < headSizeTotal) :
      Reassembles c data (c ++ data, [.memcpy c.length data.length])
  /-- the header has a wrong magic code -/
  | invalid (cached : c ≠ []) (enough : headSizeTotal ≤ (c ++ data).length)
      (size : packetFormat.size (c ++ data) = none) :
      Reassembles c data ((c ++ data).take (filled c), fillEvents c)
  /-- the header declares no more than what is cached -/
  | flow (n : ℕ) (cached : c ≠ []) (enough : headSizeTotal ≤ (c ++ data).length)
      (size : packetFormat.size (c ++ data) = some n) (beyond : n ≤ filled c) :
      Reassembles c data ((c ++ data).take (filled c),
        fillEvents c ++ [.head (DbTransHead.read (c ++ data))])
  /-- the payload stays incomplete -/
  | payload (n : ℕ) (cached : c ≠ []) (enough : headSizeTotal ≤ (c ++ data).length)
      (size : packetFormat.size (c ++ data) = some n) (under : filled c < n)
      (few : (c ++ data).length < n) :
      Reassembles c data (c ++ data, fillEvents c ++ [.head (DbTransHead.read (c ++ data)),
        .memcpy (filled c) ((c ++ data).length - filled c)])
  /-- the packet is completed -/
  | complete (n : ℕ) (cached : c ≠ []) (enough : headSizeTotal ≤ (c ++ data).length)
      (size : packetFormat.size (c ++ data) = some n) (under : filled c < n)
      (all : n ≤ (c ++ data).length) :
      Reassembles c data (kept (packetFormat.split ((c ++ data).drop n)).2,
        fillEvents c ++ [.head (DbTransHead.read (c ++ data)),
          .memcpy (filled c) (n - filled c), deliver ((c ++ data).take n)] ++
          directEvents ((c ++ data).drop n))

theorem reassembles (c data : List UInt8) : Reassembles c data (reassemble c data) := by
  rw [reassemble]
  by_cases hnil : c = []
  · rw [if_pos hnil]
    exact .direct hnil
  rw [if_neg hnil]
  by_cases hdata : data = []
  · rw [if_pos hdata]
    exact .idle hnil hdata
  rw [if_neg hdata]
  by_cases hshort : (c ++ data).length < headSizeTotal
  · rw [if_pos hshort]
    exact .short hnil hshort
  have hlen := Nat.not_lt.mp hshort
  rw [if_neg hshort]
  cases hsize : packetFormat.size (c ++ data) with
  | none => exact .invalid hnil hlen hsize
  | some n =>
    by_cases hflow : n ≤ filled c
    · simp only [if_pos hflow]
      exact .flow n hnil hlen hsize hflow
    by_cases hleft : (c ++ data).length < n
    · simp only [if_neg hflow, if_pos hleft]
      exact .payload n hnil hlen hsize (Nat.not_le.mp hflow) hleft
    · simp only [if_neg hflow, if_neg hleft]
      exact .complete n hnil hlen hsize (Nat.not_le.mp hflow) (Nat.not_lt.mp hleft)

theorem le_filled : c.length ≤ filled c := Nat.le_max_left _ _

theorem filled_le {c data : List UInt8} (h : headSizeTotal ≤ (c ++ data).length) :
    filled c ≤ (c ++ data).length := Nat.max_le.mpr ⟨by simp, h⟩

/-- The size of a packet that a header with the right magic code declares. -/
theorem size_eq_some {n : ℕ} {p : List UInt8} (h : packetFormat.size p = some n) :
    (DbTransHead.read p).magic = headMagicCode ∧
      n = headSizeTotal + (DbTransHead.read p).length.toNat := by
  have hmagic : (DbTransHead.read p).magic = headMagicCode := by
    by_contra hm
    rw [packetFormat_size_none hm] at h
    simp at h
  exact ⟨hmagic, (Option.some.inj ((packetFormat_size hmagic).symm.trans h)).symm⟩

theorem size_eq_none {p : List UInt8} (h : packetFormat.size p = none) :
    (DbTransHead.read p).magic ≠ headMagicCode := fun hm => by
  rw [packetFormat_size hm] at h
  simp at h

/-! ## The cache -/

/-- The cached bytes of a channel are `c`. -/
structure Caches (channel : Channel) (c : List UInt8) : Prop where
  count : channel.ccount.toNat = c.length
  bytes : load channel.cbuf 0 c.length = c

theorem caches_nil : Caches channel [] ↔ channel.ccount = 0 :=
  ⟨fun h => UInt16.toNat_inj.mp h.count, fun h => ⟨by rw [h]; rfl, rfl⟩⟩

/-- A copy behind the cached bytes, as long as the count does not overflow. -/
theorem Caches.cache (h : Caches channel c) (hlt : (c ++ p).length < 65536) :
    Caches (channel.cache p) (c ++ p) := by
  simp only [List.length_append] at hlt
  constructor
  · simp only [Channel.cache, UInt16.toNat_add, UInt16.toNat_ofNat', h.count, List.length_append]
    omega
  · rw [Channel.cache, h.count, List.length_append, load_store, h.bytes]

@[simp] theorem cache_nil : channel.cache [] = channel := by
  simp [Channel.cache]

/-- What is in `cbuf` after a copy behind the cached bytes. -/
theorem Caches.load_cache (h : Caches channel c) :
    load (channel.cache p).cbuf 0 (c.length + p.length) = c ++ p := by
  rw [Channel.cache, h.count, load_store, h.bytes]

theorem Caches.memcpy (h : Caches channel c) : channel.memcpy p = .memcpy c.length p.length := by
  rw [Channel.memcpy, h.count]

/-! ## Refinement -/

/-- The loop from a packet boundary on. -/
theorem unpackLoop_direct (hzero : channel.ccount = 0) : ∀ (fuel : ℕ) (p : List UInt8),
    p.length ≤ fuel → unpackLoop fuel channel p =
      (channel.cache (kept (packetFormat.split p).2), directEvents p) := by
  have hempty : (channel, []) =
      (channel.cache (kept (packetFormat.split []).2), directEvents []) := by
    simp [directEvents, kept, keepEvents]
  have hcount : channel.ccount.toNat = 0 := by rw [hzero]; rfl
  -- Induction on the fuel: every iteration that goes on leaves fewer bytes.
  intro fuel
  induction fuel with
  | zero =>
    intro p hp
    obtain rfl := List.length_eq_zero_iff.mp (Nat.le_zero.mp hp)
    exact hempty
  | succ fuel ih =>
    intro p hp
    rw [unpackLoop]
    by_cases hnil : p = []
    · subst hnil
      rw [if_pos rfl]
      exact hempty
    rw [if_neg hnil, unpackIteration, if_pos hzero, unpackDirect]
    by_cases hshort : p.length < headSizeTotal
    · rw [if_pos hshort, directEvents, Format.split_short hshort]
      simp [kept, keepEvents, hnil, hshort, Channel.memcpy, hcount]
    rw [if_neg hshort]
    by_cases hmagic : (DbTransHead.read p).magic = headMagicCode
    · have hsize := packetFormat_size hmagic
      simp only [if_pos hmagic]
      by_cases hleft : p.length < (DbTransHead.read p).length.toNat + headSizeTotal
      · -- the tail of the split
        rw [if_pos hleft, directEvents, Format.split_pending hsize (by omega)]
        simp [kept, keepEvents, hnil, hshort, Channel.memcpy, hcount]
      · -- the first packet of the split; the loop goes on with the rest (induction)
        have hlen : headSizeTotal ≤ headSizeTotal + (DbTransHead.read p).length.toNat := by omega
        rw [if_neg hleft, directEvents, Format.split_packet hsize (by omega)]
        simp only
        rw [ih _ (by simp only [List.length_drop, headSizeTotal] at hp ⊢; omega)]
        simp [directEvents, deliver, DbTransHead.read_take_of_le hlen, List.drop_take]
    · rw [if_neg hmagic, directEvents, Format.split_broken (Nat.not_lt.mp hshort)
        (packetFormat_size_none hmagic)]
      simp [kept, keepEvents]

/-- A header in the cache is the header of the stream. -/
theorem Caches.read (h : Caches channel c) (hc : headSizeTotal ≤ c.length) :
    DbTransHead.read (load channel.cbuf 0 headSizeTotal) = DbTransHead.read (c ++ p) := by
  rw [← take_load hc, h.bytes, DbTransHead.read_take, DbTransHead.read_append hc]

/-- The rest of an iteration, when the header is in the cache. -/
theorem unpackPayload_none (h : Caches channel c) (hc : headSizeTotal ≤ c.length)
    (hsize : packetFormat.size (c ++ p) = none) :
    unpackPayload channel p = ⟨channel, [], none⟩ := by
  simp only [unpackPayload, h.read hc (p := p), if_neg (size_eq_none hsize)]

theorem unpackPayload_some {n : ℕ} (h : Caches channel c) (hc : headSizeTotal ≤ c.length)
    (hsize : packetFormat.size (c ++ p) = some n) :
    unpackPayload channel p =
      if n ≤ c.length then ⟨channel, [.head (DbTransHead.read (c ++ p))], none⟩
      else if (c ++ p).length < n then
        ⟨channel.cache p, [.head (DbTransHead.read (c ++ p)), .memcpy c.length p.length], none⟩
      else
        ⟨{ channel.cache (p.take (n - c.length)) with ccount := 0 },
          [.head (DbTransHead.read (c ++ p)), .memcpy c.length (n - c.length),
            deliver ((c ++ p).take n)], some ((c ++ p).drop n)⟩ := by
  obtain ⟨hmagic, rfl⟩ := size_eq_some hsize
  simp only [unpackPayload, h.read hc (p := p), if_pos hmagic, h.count]
  by_cases hflow : headSizeTotal + (DbTransHead.read (c ++ p)).length.toNat ≤ c.length
  · rw [if_neg (by omega), if_pos hflow]
  rw [if_pos (by omega), if_neg hflow, Nat.add_comm _ headSizeTotal]
  by_cases hshort : (c ++ p).length < headSizeTotal + (DbTransHead.read (c ++ p)).length.toNat
  · rw [if_pos (by simp only [List.length_append] at hshort; omega), if_pos hshort, h.memcpy]
  · rw [if_neg (by simp only [List.length_append] at hshort; omega), if_neg hshort]
    set len := (DbTransHead.read (c ++ p)).length.toNat with hlen
    have hk : headSizeTotal + len - c.length ≤ p.length := by
      simp only [List.length_append] at hshort
      omega
    -- the packet is the cached bytes and the first bytes of the chunk
    have htake : (c ++ p).take (headSizeTotal + len) =
        c ++ p.take (headSizeTotal + len - c.length) := by
      rw [List.take_append, List.take_of_length_le (by omega)]
    have hdrop : (c ++ p).drop (headSizeTotal + len) = p.drop (headSizeTotal + len - c.length) := by
      rw [List.drop_append, List.drop_of_length_le (by omega), List.nil_append]
    -- The callback gets a pointer into `cbuf`, where the payload is complete by now.
    have hload : load (channel.cache (p.take (headSizeTotal + len - c.length))).cbuf
        headSizeTotal len = ((c ++ p).take (headSizeTotal + len)).drop headSizeTotal := by
      have hcache := h.load_cache (p := p.take (headSizeTotal + len - c.length))
      rw [List.length_take, Nat.min_eq_left hk, Nat.add_sub_cancel' (by omega)] at hcache
      rw [htake, ← hcache, drop_load, Nat.zero_add]
    rw [h.memcpy, List.length_take, Nat.min_eq_left hk, hload, hdrop, deliver,
      DbTransHead.read_take_of_le (by omega)]

/-- Completing the header and going on, with a filled cache. -/
theorem unpackCached_eq (h : Caches channel c) (hlen : headSizeTotal ≤ (c ++ data).length) :
    ∃ channel' rest, Caches channel' ((c ++ data).take (filled c)) ∧
      (c ++ data).take (filled c) ++ rest = c ++ data ∧ rest.length ≤ data.length ∧
      unpackCached channel data = { unpackPayload channel' rest with
        events := fillEvents c ++ (unpackPayload channel' rest).events } := by
  have hlen' : headSizeTotal ≤ c.length + data.length := by simpa using hlen
  by_cases hc : c.length < headSizeTotal
  · -- the missing bytes of the header are copied first
    have htake : (c ++ data).take headSizeTotal = c ++ data.take (headSizeTotal - c.length) := by
      rw [List.take_append, List.take_of_length_le (by omega)]
    have hfilled : filled c = headSizeTotal := Nat.max_eq_right (by omega)
    refine ⟨channel.cache (data.take (headSizeTotal - c.length)),
      data.drop (headSizeTotal - c.length), ?_, ?_, by simp, ?_⟩
    · rw [hfilled, htake]
      apply h.cache
      have h16 : headSizeTotal = 16 := rfl
      simp only [List.length_append, List.length_take]
      omega
    · rw [hfilled, htake, List.append_assoc, List.take_append_drop]
    · rw [unpackCached, h.count, if_pos hc, fillEvents, if_pos hc]
      simp only
      rw [if_neg (by omega), h.memcpy, List.length_take, Nat.min_eq_left (by omega)]
      rfl
  · -- the header is there already
    have hfilled : filled c = c.length := Nat.max_eq_left (by omega)
    refine ⟨channel, data, ?_, ?_, Nat.le_refl _, ?_⟩
    · rw [hfilled, List.take_left' rfl]
      exact h
    · rw [hfilled, List.take_left' rfl]
    · rw [unpackCached, h.count, if_neg hc, fillEvents, if_neg hc]
      rfl

/-- A call that enters the loop. -/
theorem unpack_of_ne_nil (h : data ≠ []) :
    yangipcTransmissionUnpack channel data =
      match unpackIteration channel data with
      | ⟨channel, events, none⟩ => (channel, events)
      | ⟨channel, events, some left⟩ =>
        let r := unpackLoop (data.length - 1) channel left
        (r.1, events ++ r.2) := by
  obtain ⟨b, rest, rfl⟩ := List.exists_cons_of_ne_nil h
  rfl

/-- **Unpacking refines reassembly.** A call has the events of `reassemble`, and leaves its bytes
in the cache as long as their number fits into `ccount`. -/
theorem unpack_refines (h : Caches channel c) (data : List UInt8) :
    (yangipcTransmissionUnpack channel data).2 = (reassemble c data).2 ∧
      ((reassemble c data).1.length < 65536 →
        Caches (yangipcTransmissionUnpack channel data).1 (reassemble c data).1) := by
  by_cases hnil : c = []
  · subst hnil
    -- from a packet boundary on
    rw [yangipcTransmissionUnpack, unpackLoop_direct (caches_nil.mp h) _ _ (Nat.le_refl _),
      reassemble, if_pos rfl]
    exact ⟨rfl, fun hlt => h.cache hlt⟩
  have hne : channel.ccount ≠ 0 := fun hz => hnil (List.length_eq_zero_iff.mp (by
    rw [← h.count, hz]
    rfl))
  rw [reassemble, if_neg hnil]
  by_cases hdata : data = []
  · subst hdata
    exact ⟨rfl, fun _ => h⟩
  rw [if_neg hdata, unpack_of_ne_nil hdata, unpackIteration, if_neg hne]
  by_cases hshort : (c ++ data).length < headSizeTotal
  -- the chunk does not complete the header
  · have hshort' : c.length + data.length < headSizeTotal := by simpa using hshort
    rw [if_pos hshort, unpackCached, h.count, if_pos (by omega)]
    simp only
    rw [if_pos (by omega), h.memcpy]
    exact ⟨rfl, fun hlt => h.cache hlt⟩
  rw [if_neg hshort]
  -- The header is completed; what follows works on the channel with the header in its cache.
  obtain ⟨channel', rest, hcaches, hstream, hrest, he⟩ :=
    unpackCached_eq h (Nat.not_lt.mp hshort)
  have hfilled : ((c ++ data).take (filled c)).length = filled c := by
    have hlen' : headSizeTotal ≤ c.length + data.length := by simpa using hshort
    rw [List.length_take, List.length_append, filled]
    omega
  have hhead : headSizeTotal ≤ ((c ++ data).take (filled c)).length := by
    rw [hfilled]
    exact Nat.le_max_right _ _
  rw [he]
  cases hsize : packetFormat.size (c ++ data) with
  | none =>
    rw [unpackPayload_none hcaches hhead (by rw [hstream, hsize])]
    exact ⟨by simp, fun _ => hcaches⟩
  | some n =>
    rw [unpackPayload_some hcaches hhead (by rw [hstream, hsize]), hstream, hfilled]
    by_cases hflow : n ≤ filled c
    · simp only [if_pos hflow]
      exact ⟨trivial, fun _ => hcaches⟩
    simp only [if_neg hflow]
    by_cases hleft : (c ++ data).length < n
    · simp only [if_pos hleft]
      have hlength : rest.length = (c ++ data).length - filled c := by
        have := congrArg List.length hstream
        rw [List.length_append, hfilled] at this
        omega
      refine ⟨by rw [hlength], fun hlt => ?_⟩
      rw [← hstream] at hlt ⊢
      exact hcaches.cache hlt
    · -- the packet is delivered, and the loop goes on from a packet boundary
      simp only [if_neg hleft]
      have hle : c.length ≤ filled c := Nat.le_max_left _ _
      rw [unpackLoop_direct rfl _ _ (by simp only [List.length_drop, List.length_append]; omega)]
      refine ⟨rfl, fun hlt => ?_⟩
      exact (caches_nil.mpr rfl).cache hlt

end Transmission

end YangIpc
