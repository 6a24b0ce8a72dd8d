import YangIpc.Transmission.Unpack

/-!
# The round trip of packets

Payloads are packed one after the other on one channel, and the bytes arrive at another channel in
chunks cut anywhere.  The cache of the receiver holds, after each chunk, the tail of the stream
seen so far, so that the callback is called for each packet of the stream, in order.

## Main definitions

* `deliveries`: the calls of the callback among the events
* `packAll`, `expected`: the packets of a list of payloads, and the calls they are meant to cause

## Main results

* `reassemble_smooth`: one chunk of a stream of packets
* `payloads_arrive_once_in_order`: the round trip
-/

namespace YangIpc

namespace Transmission

open Bytes Framing

variable {hndCrc8 : List UInt8 → UInt8} {channel : Channel} {c data : List UInt8}
  {ps : List (List UInt8)}

/-! ## Deliveries -/

/-- The event is a call of the callback. -/
def Event.isRecive : Event → Bool
  | .recive .. => true
  | _ => false

/-- The calls of the callback, in order. -/
def deliveries (events : List Event) : List Event := events.filter Event.isRecive

@[simp] theorem deliveries_append (l l' : List Event) :
    deliveries (l ++ l') = deliveries l ++ deliveries l' := List.filter_append ..

@[simp] theorem deliveries_keepEvents (tail : Tail UInt8) : deliveries (keepEvents tail) = [] := by
  cases tail with
  | pending rest =>
    simp only [keepEvents]
    split
    · rfl
    · split <;> rfl
  | broken rest => rfl

@[simp] theorem deliveries_fillEvents : deliveries (fillEvents c) = [] := by
  unfold fillEvents
  split <;> rfl

@[simp] theorem deliveries_directEvents :
    deliveries (directEvents data) = (packetFormat.split data).1.map deliver := by
  rw [directEvents, deliveries_append, deliveries_keepEvents, List.append_nil]
  induction (packetFormat.split data).1 with
  | nil => rfl
  | cons p rest ih =>
    rw [List.flatMap_cons, deliveries_append, ih]
    rfl

/-! ## One chunk -/

/-- Every packet of the stream has a payload, and the stream is not broken. -/
structure Smooth (stream rest : List UInt8) : Prop where
  payload : ∀ p ∈ (packetFormat.split stream).1, headSizeTotal < p.length
  tail : (packetFormat.split stream).2 = .pending rest

/-- **One chunk of a smooth stream.** The packets completed by the chunk are delivered, and the
tail is cached. -/
theorem reassemble_smooth {rest : List UInt8} (hc : packetFormat.Pending c)
    (hs : Smooth (c ++ data) rest) :
    (reassemble c data).1 = rest ∧
      deliveries (reassemble c data).2 = (packetFormat.split (c ++ data)).1.map deliver := by
  have hcases := reassembles c data
  have htail := hs.tail
  generalize reassemble c data = r at hcases ⊢
  cases hcases with
  | direct empty =>
    subst empty
    rw [List.nil_append] at htail
    simp [htail, kept]
  | idle cached nothing =>
    subst nothing
    rw [List.append_nil, hc.split] at htail ⊢
    obtain rfl : c = rest := by simpa using htail
    exact ⟨rfl, rfl⟩
  | short cached few =>
    rw [Format.split_short few] at htail ⊢
    obtain rfl : c ++ data = rest := by simpa using htail
    exact ⟨rfl, rfl⟩
  | invalid cached enough size =>
    -- a smooth stream has no invalid header
    rw [Format.split_broken enough size] at htail
    simp at htail
  | flow n cached enough size beyond =>
    -- a packet without payload, or one that would have been complete before: excluded
    have hhead : headSizeTotal ≤ n := packetFormat.head_le_of_size _ n size
    have hmem : (c ++ data).take n ∈ (packetFormat.split (c ++ data)).1 := by
      rw [Format.split_packet size (Nat.le_trans beyond (filled_le enough))]
      exact List.mem_cons_self
    have hpayload := hs.payload _ hmem
    rw [List.length_take] at hpayload
    rcases hc with hlt | ⟨m, hm, hlt⟩
    · have hfilled : filled c = headSizeTotal := Nat.max_eq_right (Nat.le_of_lt hlt)
      omega
    · rcases Nat.le_total c.length headSizeTotal with hle | hge
      · have hfilled : filled c = headSizeTotal := Nat.max_eq_right hle
        omega
      · have hfilled : filled c = c.length := Nat.max_eq_left hge
        have heq := (Format.size_append hge data).symm.trans size
        obtain rfl : m = n := Option.some.inj (hm.symm.trans heq)
        omega
  | payload n cached enough size under few =>
    rw [Format.split_pending size few] at htail ⊢
    obtain rfl : c ++ data = rest := by simpa using htail
    simp only [deliveries_append, deliveries_fillEvents]
    exact ⟨trivial, rfl⟩
  | complete n cached enough size under all =>
    rw [Format.split_packet size all] at htail ⊢
    simp only [deliveries_append, deliveries_fillEvents, deliveries_directEvents]
    rw [htail]
    exact ⟨rfl, rfl⟩

/-! ## A run -/

/-- **All chunks of a stream.** The packets of the stream are delivered, and its tail is cached. -/
theorem receive_stream : ∀ (chunks : List (List UInt8)) (channel : Channel) (c : List UInt8)
    (ps : List (List UInt8)) (tail : List UInt8), Caches channel c → packetFormat.Pending c →
    packetFormat.split (c ++ chunks.flatten) = (ps, .pending tail) →
    (∀ p ∈ ps, headSizeTotal < p.length ∧ p.length < 65536) → tail.length < 65536 →
    Caches (receive channel chunks).1 tail ∧
      deliveries (receive channel chunks).2 = ps.map deliver := by
  -- Induction on the chunks; the cache holds the tail of the stream seen so far.
  intro chunks
  induction chunks with
  | nil =>
    intro channel c ps tail hcaches hc hsplit _ _
    rw [List.flatten_nil, List.append_nil, hc.split] at hsplit
    obtain ⟨rfl, htail⟩ := Prod.mk.inj hsplit
    obtain rfl : c = tail := by simpa using htail
    exact ⟨hcaches, rfl⟩
  | cons chunk rest ih =>
    intro channel c ps tail hcaches hc hsplit hps htail
    rw [List.flatten_cons, ← List.append_assoc] at hsplit
    cases hcut : (packetFormat.split (c ++ chunk)).2 with
    | broken b =>
      -- a broken prefix would leave the whole stream broken
      have hbroken := Format.broken_append rest.flatten _ hcut
      rw [hsplit] at hbroken
      simp at hbroken
    | pending c' =>
      have happend := Format.split_append rest.flatten _ hcut
      rw [hsplit] at happend
      obtain ⟨hpackets, hrest⟩ := Prod.mk.inj happend
      have hc' := Format.pending_of_split _ hcut
      obtain ⟨hcache, hdeliver⟩ := reassemble_smooth hc
        ⟨fun p hp => (hps p (by rw [hpackets]; exact List.mem_append_left _ hp)).1, hcut⟩
      obtain ⟨hevents, hnext⟩ := unpack_refines hcaches chunk
      rw [hcache] at hnext
      -- What is cached is the beginning of a packet still to come or of the tail, so `ccount`
      -- does not overflow.
      have hlength : c'.length < 65536 := by
        rcases hc'.length_le (Prod.ext rfl hrest.symm) with hle | ⟨p, hp, hle⟩
        · exact Nat.lt_of_le_of_lt hle htail
        · exact Nat.lt_of_le_of_lt hle
            (hps p (by rw [hpackets]; exact List.mem_append_right _ hp)).2
      obtain ⟨hlast, hdeliveries⟩ := ih _ c' (packetFormat.split (c' ++ rest.flatten)).1 tail
        (hnext hlength) hc' (Prod.ext rfl hrest.symm)
        (fun p hp => hps p (by rw [hpackets]; exact List.mem_append_right _ hp)) htail
      refine ⟨hlast, ?_⟩
      rw [receive, deliveries_append, hevents, hdeliver, hdeliveries, hpackets, List.map_append]

/-- **All chunks of a stream of packets.** -/
theorem receive_packets (chunks : List (List UInt8)) (channel : Channel) (c : List UInt8)
    (ps : List (List UInt8)) (hcaches : Caches channel c) (hc : packetFormat.Pending c)
    (hsplit : packetFormat.split (c ++ chunks.flatten) = (ps, .pending []))
    (hps : ∀ p ∈ ps, headSizeTotal < p.length ∧ p.length < 65536) :
    (receive channel chunks).1.ccount = 0 ∧
      deliveries (receive channel chunks).2 = ps.map deliver := by
  obtain ⟨hlast, hdeliver⟩ :=
    receive_stream chunks channel c ps [] hcaches hc hsplit hps (by decide)
  exact ⟨caches_nil.mp hlast, hdeliver⟩

/-! ## Packing and unpacking -/

/-- The packets of payloads packed one after the other, each with the time it is packed. -/
def packAll (hndCrc8 : List UInt8 → UInt8) :
    Channel → List (UInt32 × List UInt8) → List (List UInt8)
  | _, [] => []
  | channel, (milliseconds, data) :: rest =>
    let channel := yangipcTransmissionPack hndCrc8 milliseconds channel data
    channel.packed data.length :: packAll hndCrc8 channel rest

/-- The calls of the callback these packets are meant to cause, after the sequence number
`sequence`. -/
def expected : UInt16 → List (UInt32 × List UInt8) → List Event
  | _, [] => []
  | sequence, (milliseconds, data) :: rest =>
    .recive (sequence + 1) headFlagsCrc milliseconds (sequence + 1).toUInt8 data
      (UInt16.ofNat data.length) :: expected (sequence + 1) rest

theorem length_packed {milliseconds : UInt32} :
    ((yangipcTransmissionPack hndCrc8 milliseconds channel data).packed data.length).length =
      headSizeTotal + data.length := length_load

variable (hndCrc8) in
/-- Packed payloads are packets, and delivering them is what is expected. -/
theorem packAll_spec : ∀ (payloads : List (UInt32 × List UInt8)) (channel : Channel),
    (∀ x ∈ payloads, x.2.length < 65536) →
    (∀ p ∈ packAll hndCrc8 channel payloads, packetFormat.IsPacket p) ∧
      (packAll hndCrc8 channel payloads).map deliver = expected channel.sequence payloads := by
  intro payloads
  induction payloads with
  | nil => exact fun _ _ => ⟨by simp [packAll], rfl⟩
  | cons x rest ih =>
    intro channel h
    obtain ⟨milliseconds, data⟩ := x
    obtain ⟨hpackets, hdeliver⟩ := ih (yangipcTransmissionPack hndCrc8 milliseconds channel data)
      fun y hy => h y (List.mem_cons_of_mem _ hy)
    have hlength := h (milliseconds, data) List.mem_cons_self
    simp only [packAll, packed_eq]
    constructor
    · intro p hp
      rcases List.mem_cons.mp hp with rfl | hp
      · exact isPacket_packed hlength
      · exact hpackets p hp
    · rw [List.map_cons, hdeliver, deliver, DbTransHead.read_write,
        List.drop_left' (DbTransHead.length_write _)]
      rfl

/-- The lengths of the packets are those of the payloads and a header. -/
theorem length_of_mem_packAll {p : List UInt8} : ∀ (payloads : List (UInt32 × List UInt8))
    (channel : Channel), p ∈ packAll hndCrc8 channel payloads →
    ∃ x ∈ payloads, p.length = headSizeTotal + x.2.length := by
  intro payloads
  induction payloads with
  | nil => exact fun _ h => by simp [packAll] at h
  | cons x rest ih =>
    obtain ⟨milliseconds, data⟩ := x
    intro channel h
    rcases List.mem_cons.mp h with rfl | h
    · exact ⟨_, List.mem_cons_self, length_packed⟩
    · obtain ⟨y, hy, hlen⟩ := ih _ h
      exact ⟨y, List.mem_cons_of_mem _ hy, hlen⟩

/-- **Payloads arrive once and in order.** However the bytes of the packets are cut into chunks,
the callback is called once for each payload, in order, with its bytes and length, the flags and
the time it was packed with, and sequence numbers that go up by one; and nothing is left in the
cache. -/
theorem payloads_arrive_once_in_order (hndCrc8 : List UInt8 → UInt8) (sender receiver : Channel)
    (payloads : List (UInt32 × List UInt8)) (chunks : List (List UInt8))
    (hlength : ∀ x ∈ payloads, 1 ≤ x.2.length ∧
      x.2.length ≤ min sender.tsize.toNat (receiver.csize.toNat - headSizeTotal))
    (hempty : receiver.ccount = 0)
    (hchunks : chunks.flatten = (packAll hndCrc8 sender payloads).flatten) :
    (receive receiver chunks).1.ccount = 0 ∧
      deliveries (receive receiver chunks).2 = expected sender.sequence payloads := by
  have hcsize := receiver.csize.toNat_lt
  obtain ⟨hpackets, hdeliver⟩ := packAll_spec hndCrc8 payloads sender
    fun x hx => by have := hlength x hx; omega
  rw [← hdeliver]
  refine receive_packets chunks receiver [] _ (caches_nil.mpr hempty) (.inl (by decide)) ?_ ?_
  · rw [List.nil_append, hchunks]
    exact Format.split_flatten hpackets
  · intro p hp
    obtain ⟨x, hx, hlen⟩ := length_of_mem_packAll payloads sender hp
    have := hlength x hx
    omega

/-- A channel for payloads of up to eight bytes, the memory behind it cleared. -/
def smallChannel : Channel := yangipcTransmissionMalloc 8 8 (fun _ => 0) fun _ => 0

/-- Two payloads, cut inside of the first header and inside of the second payload. -/
theorem payloads_arrive_once_in_order_two :
    let bytes := (packAll (fun _ => 0) smallChannel [(7, [1, 2, 3]), (9, [4, 5])]).flatten
    let chunks := [bytes.take 5, (bytes.drop 5).take 31, bytes.drop 36]
    (receive smallChannel chunks).1.ccount = 0 ∧
      deliveries (receive smallChannel chunks).2 =
        [.recive 1 1 7 1 [1, 2, 3] 3, .recive 2 1 9 2 [4, 5] 2] :=
  payloads_arrive_once_in_order (fun _ => 0) smallChannel smallChannel
    [(7, [1, 2, 3]), (9, [4, 5])] _ (by decide) rfl (by decide)

end Transmission

end YangIpc
