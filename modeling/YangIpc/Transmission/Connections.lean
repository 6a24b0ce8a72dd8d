import Mathlib.Data.Int.Notation
import Mathlib.Data.List.GetD
import YangIpc.Core.Message
import YangIpc.Transmission.Liveness

/-!
# One connection after the other

The command server serves one client at a time, and unpacks what it receives from each of them
into the same channel.  When a client disconnects inside of a packet, the beginning of the packet
stays in the cache, and the packets of the next client are read behind it.

## Main definitions

* `Connection`, `serveConnection`: an accepted connection, and how the server serves it
* `yangipcCmdServerThread`: the accept loop
* `Sendable`: the packets a client may send

## Main results

* `next_connection_may_start_dirty`: a packet of the second connection that is not delivered
* `next_connection_clean_iff`: the next connection starts clean if and only if the first one was
  cut off at the end of a packet
* `connections_clean`: a run of connections that all end there
-/

namespace YangIpc

namespace Transmission

open Bytes Framing YangIpc.Core

variable {channel : Channel} {c data p : List UInt8} {ps : List (List UInt8)} {csize : UInt16}

/-! ## The command server -/

/-- `db_cmd_info_t`, as far as the server thread uses it. -/
structure DbCmdInfo where
  serverState : Bool
  clientFd : ℤ
  remoteAddress : UInt32
  dbChannel : Channel

/-- What is observed of the server. -/
inductive ServerEvent
  | sendMsg (msg : YangipcMsg)
  | close (fd : ℤ)
  | unpack (event : Event)
deriving DecidableEq, Repr

/-- The call of the callback, if the event is one. -/
def ServerEvent.recive : ServerEvent → Option Event
  | .unpack (.recive sequence flags timestamp sequences data length) =>
    some (.recive sequence flags timestamp sequences data length)
  | _ => none

/-- The calls of the callback, in order. -/
def callbacks (events : List ServerEvent) : List Event := events.filterMap ServerEvent.recive

/-- A connection: what `accept` returns, and the results of `recv` until it returns no more
bytes. -/
structure Connection where
  fd : ℤ
  address : UInt32
  chunks : List (List UInt8)
  chunks_ne : ∀ chunk ∈ chunks, chunk ≠ []

/-- The inner loop.  When `recv` returns no bytes, the socket is closed. -/
def serveClient (info : DbCmdInfo) : List (List UInt8) → DbCmdInfo × List ServerEvent
  | [] =>
    if info.serverState then
      ({ info with clientFd := -1, serverState := false },
        [.close info.clientFd, .sendMsg ⟨.remoteDeviceDisconnected, 0⟩])
    else (info, [])
  | chunk :: rest =>
    if info.serverState then
      let r := yangipcTransmissionUnpack info.dbChannel chunk
      let r' := serveClient { info with dbChannel := r.1 } rest
      (r'.1, r.2.map .unpack ++ r'.2)
    else (info, [])

/-- What the server does with a new connection. -/
def serveConnection (info : DbCmdInfo) (connection : Connection) :
    DbCmdInfo × List ServerEvent :=
  let info := { info with clientFd := connection.fd, remoteAddress := connection.address }
  if info.serverState then serveClient info connection.chunks
  else
    let r := serveClient { info with serverState := true } connection.chunks
    (r.1, .sendMsg ⟨.remoteDeviceConnected, connection.address⟩ :: r.2)

/-- `yangipc_cmd_server_thread`: what it does with each of the connections it accepts.  An error
of `accept` ends it. -/
def yangipcCmdServerThread (info : DbCmdInfo) : List Connection → List (List ServerEvent)
  | [] => []
  | connection :: rest =>
    if connection.fd < 0 then []
    else
      let r := serveConnection info connection
      r.2 :: yangipcCmdServerThread r.1 rest

/-- `yangipc_cmd_server_init`: the information is cleared, and the channel is new. -/
def yangipcCmdServerInit (dbChannel : Channel) : DbCmdInfo := ⟨false, 0, 0, dbChannel⟩

/-! ## What a connection does to the channel -/

theorem recive_unpack (e : Event) :
    ServerEvent.recive (.unpack e) = if e.isRecive then some e else none := by
  cases e <;> rfl

theorem callbacks_unpack (events : List Event) :
    callbacks (events.map .unpack) = deliveries events := by
  induction events with
  | nil => rfl
  | cons e rest ih =>
    rw [callbacks] at ih
    rw [callbacks, List.map_cons, List.filterMap_cons, recive_unpack, deliveries, List.filter_cons]
    by_cases he : e.isRecive = true
    · simp only [if_pos he, ih]
      rfl
    · simp only [if_neg he, ih]
      rfl

theorem callbacks_append (l l' : List ServerEvent) :
    callbacks (l ++ l') = callbacks l ++ callbacks l' := List.filterMap_append

/-- Serving a client is receiving its chunks; the flag is cleared at the end. -/
theorem serveClient_spec : ∀ (chunks : List (List UInt8)) (info : DbCmdInfo),
    info.serverState = true →
    (serveClient info chunks).1.dbChannel = (receive info.dbChannel chunks).1 ∧
      (serveClient info chunks).1.serverState = false ∧
      callbacks (serveClient info chunks).2 = deliveries (receive info.dbChannel chunks).2 := by
  intro chunks
  induction chunks with
  | nil =>
    intro info h
    rw [serveClient, if_pos h]
    exact ⟨rfl, rfl, rfl⟩
  | cons chunk rest ih =>
    intro info h
    obtain ⟨hchannel, hstate, hcallbacks⟩ :=
      ih { info with dbChannel := (yangipcTransmissionUnpack info.dbChannel chunk).1 } h
    rw [serveClient, if_pos h, receive]
    refine ⟨hchannel, hstate, ?_⟩
    rw [callbacks_append, callbacks_unpack, hcallbacks, deliveries_append]

/-- **A connection and the channel.** Nothing but the chunks received changes the channel. -/
theorem serveConnection_spec (info : DbCmdInfo) (connection : Connection) :
    (serveConnection info connection).1.dbChannel =
        (receive info.dbChannel connection.chunks).1 ∧
      callbacks (serveConnection info connection).2 =
        deliveries (receive info.dbChannel connection.chunks).2 := by
  rw [serveConnection]
  split
  · rename_i h
    obtain ⟨hchannel, -, hcallbacks⟩ := serveClient_spec connection.chunks _ h
    exact ⟨hchannel, hcallbacks⟩
  · obtain ⟨hchannel, -, hcallbacks⟩ := serveClient_spec connection.chunks
      { info with
        clientFd := connection.fd, remoteAddress := connection.address, serverState := true } rfl
    exact ⟨hchannel, hcallbacks⟩

/-! ## Packets of a client -/

/-- A packet with a payload, that fits into a `cbuf` of `csize` bytes. -/
structure Sendable (csize : UInt16) (p : List UInt8) : Prop where
  packet : packetFormat.IsPacket p
  payload : headSizeTotal < p.length
  fits : p.length ≤ csize.toNat

/-- A connection on which the packets `ps` are sent, cut off after `rest` of the last of them. -/
theorem serveConnection_packets {info : DbCmdInfo} {connection : Connection} {rest : List UInt8}
    (hempty : info.dbChannel.ccount = 0) (hps : ∀ p ∈ ps, Sendable csize p)
    (hsplit : packetFormat.split connection.chunks.flatten = (ps, .pending rest))
    (hrest : rest.length < 65536) :
    Caches (serveConnection info connection).1.dbChannel rest ∧
      callbacks (serveConnection info connection).2 = ps.map deliver := by
  have hcsize := csize.toNat_lt
  obtain ⟨hchannel, hcallbacks⟩ := serveConnection_spec info connection
  rw [hchannel, hcallbacks]
  exact receive_stream _ _ [] ps rest (caches_nil.mpr hempty) (.inl (by decide))
    (by rw [List.nil_append, hsplit])
    (fun p hp => ⟨(hps p hp).payload, Nat.lt_of_le_of_lt (hps p hp).fits hcsize⟩) hrest

/-- The same when the connection ends with the last packet. -/
theorem serveConnection_flatten {info : DbCmdInfo} {connection : Connection}
    (hempty : info.dbChannel.ccount = 0) (hps : ∀ p ∈ ps, Sendable csize p)
    (hflatten : connection.chunks.flatten = ps.flatten) :
    (serveConnection info connection).1.dbChannel.ccount = 0 ∧
      callbacks (serveConnection info connection).2 = ps.map deliver := by
  have hsplit : packetFormat.split connection.chunks.flatten = (ps, .pending []) := by
    rw [hflatten, Format.split_flatten fun p hp => (hps p hp).packet]
  obtain ⟨hcaches, hcallbacks⟩ := serveConnection_packets hempty hps hsplit (by decide)
  exact ⟨caches_nil.mp hcaches, hcallbacks⟩

/-! ## Behind the beginning of a packet -/

/-- The smallest packet, with a payload of one byte.  All numbers a misplaced header could read
its length from are large. -/
def probe (sequence : UInt16) : List UInt8 :=
  [0xD5, 0xF0, 0xFF, 0xFF, 0xFF, 0xFF, 0xFF, 0xFF] ++ encode16 sequence ++
    [1, 0, 0, 0, 0, 0, 0]

theorem read_probe (sequence : UInt16) :
    DbTransHead.read (probe sequence) =
      ⟨headMagicCode, 0xFFFF, 0xFFFFFFFF, sequence, 1, 0, 0, 0, 0⟩ := by
  simp only [DbTransHead.read, probe, encode16, List.cons_append, List.nil_append,
    List.getD_cons_zero, List.getD_cons_succ, decode16_encode16]
  rfl

@[simp] theorem length_probe (sequence : UInt16) : (probe sequence).length = 17 := rfl

theorem sendable_probe {sequence : UInt16} (h : headSizeTotal < csize.toNat) :
    Sendable csize (probe sequence) where
  packet := by
    rw [Format.IsPacket, packetFormat_size (by rw [read_probe]), read_probe]
    rfl
  payload := Nat.lt_of_lt_of_eq (by decide) (length_probe sequence).symm
  fits := h

/-- Behind an incomplete header, the length is read from one of the large numbers. -/
theorem length_behind (h0 : c ≠ []) (hc : c.length < 12)
    (hmagic : (DbTransHead.read (c ++ probe 0xFFFF)).magic = headMagicCode) :
    53248 ≤ (DbTransHead.read (c ++ probe 0xFFFF)).length.toNat := by
  have hpos : 0 < c.length := List.length_pos_of_ne_nil h0
  have hget (i : ℕ) (hi : c.length ≤ i) :
      (c ++ probe 0xFFFF).getD i 0 = (probe 0xFFFF).getD (i - c.length) 0 :=
    List.getD_append_right _ _ _ _ hi
  simp only [DbTransHead.read] at hmagic ⊢
  by_cases hone : c.length = 1
  · -- the second byte of the magic code would be the first one
    rw [hget 1 (by omega), hone] at hmagic
    have hhigh := congrArg UInt16.toNat hmagic
    rw [toNat_decode16] at hhigh
    have hlow := ((c ++ probe 0xFFFF).getD 0 0).toNat_lt
    have hbyte : ((probe 0xFFFF).getD (1 - 1) 0).toNat = 213 := by decide
    have hcode : headMagicCode.toNat = 61653 := by decide
    omega
  · rw [hget 11 (by omega), toNat_decode16]
    have hbytes : ∀ k < 10, 208 ≤ ((probe 0xFFFF).getD k 0).toNat := by decide
    have hbyte := hbytes (11 - c.length) (by omega)
    omega

variable (data) in
/-- With a filled cache, the first packet delivered begins with the cached bytes. -/
theorem deliveries_cached (h0 : c ≠ []) :
    deliveries (reassemble c data).2 = [] ∨
      ∃ n l, packetFormat.size (c ++ data) = some n ∧ n ≤ (c ++ data).length ∧
        deliveries (reassemble c data).2 = deliver ((c ++ data).take n) :: l := by
  have hcases := reassembles c data
  generalize reassemble c data = r at hcases ⊢
  cases hcases with
  | direct empty => exact absurd empty h0
  | idle cached nothing => exact .inl rfl
  | short cached few => exact .inl rfl
  | invalid cached enough size => exact .inl deliveries_fillEvents
  | flow n cached enough size beyond =>
    simp only [deliveries_append, deliveries_fillEvents]
    exact .inl rfl
  | payload n cached enough size under few =>
    simp only [deliveries_append, deliveries_fillEvents]
    exact .inl rfl
  | complete n cached enough size under all =>
    refine .inr ⟨n, deliveries (directEvents ((c ++ data).drop n)), size, all, ?_⟩
    simp only [deliveries_append, deliveries_fillEvents]
    rfl

/-- **A packet that is not delivered.** Behind any cached bytes, some smallest packet is not what
the callback is called for. -/
theorem exists_disturbed (h0 : c ≠ []) :
    ∃ sequence, deliveries (reassemble c (probe sequence)).2 ≠ [deliver (probe sequence)] := by
  by_cases hc : c.length < 12
  · -- the header in the cache gets a length that the packet does not reach
    refine ⟨0xFFFF, fun heq => ?_⟩
    rcases deliveries_cached (probe 0xFFFF) h0 with hnil | ⟨n, l, hsize, hle, -⟩
    · simp [hnil] at heq
    · obtain ⟨hmagic, rfl⟩ := size_eq_some hsize
      have hlong := length_behind h0 hc hmagic
      rw [List.length_append, length_probe] at hle
      omega
  · -- the header in the cache has its own sequence number
    let sequence := (DbTransHead.read c).sequence + 1
    refine ⟨sequence, fun heq => ?_⟩
    rcases deliveries_cached (probe sequence) h0 with hnil | ⟨n, l, hsize, -, hdeliver⟩
    · simp [hnil] at heq
    · rw [hdeliver] at heq
      have hevent := (List.cons.inj heq).1
      rw [deliver, deliver, read_probe, DbTransHead.recive, DbTransHead.recive,
        DbTransHead.read_take_of_le (packetFormat.head_le_of_size _ _ hsize)] at hevent
      have hread : (DbTransHead.read (c ++ probe sequence)).sequence =
          (DbTransHead.read c).sequence := by
        simp only [DbTransHead.read]
        rw [List.getD_append _ _ _ _ (by omega), List.getD_append _ _ _ _ (by omega)]
      injection hevent with hsequence
      rw [hread] at hsequence
      have hne : (DbTransHead.read c).sequence ≠ (DbTransHead.read c).sequence + 1 := by
        simp
      exact hne hsequence

/-! ## The next connection -/

/-- A client that sends one packet in one piece. -/
def packetConnection : Connection := ⟨4, 0, [smallPacket], by decide⟩

/-- A client that disconnects after five bytes of it. -/
def cutConnection : Connection := ⟨3, 0, [smallPacket.take 5], by decide⟩

theorem sendable_smallPacket : ∀ p ∈ [smallPacket], Sendable smallChannel.csize p := by
  intro p hp
  obtain rfl := List.mem_singleton.mp hp
  exact ⟨by decide, by decide, by decide⟩

/-- **The next connection may start dirty.** A client sends five bytes of a packet and
disconnects; the packet the next client sends is not delivered. -/
theorem next_connection_may_start_dirty :
    ¬∀ (info : DbCmdInfo) (ps qs : List (List UInt8)) (first second : Connection),
      info.dbChannel.ccount = 0 →
      (∀ p ∈ ps, Sendable info.dbChannel.csize p) → first.chunks.flatten <+: ps.flatten →
      (∀ q ∈ qs, Sendable info.dbChannel.csize q) → second.chunks.flatten = qs.flatten →
      callbacks (serveConnection (serveConnection info first).1 second).2 = qs.map deliver := by
  intro h
  have hclean := h (yangipcCmdServerInit smallChannel) [smallPacket] [smallPacket] cutConnection
    packetConnection rfl sendable_smallPacket ⟨smallPacket.drop 5, by decide⟩
    sendable_smallPacket (by decide)
  exact absurd hclean (by decide +kernel)

/-- **The next connection starts clean if and only if the first one was cut off at the end of a
packet.** Only then each list of packets, sent in any segmentation, is delivered once, in order
and unchanged. -/
theorem next_connection_clean_iff (info : DbCmdInfo) (ps : List (List UInt8)) (first : Connection)
    (hempty : info.dbChannel.ccount = 0) (hps : ∀ p ∈ ps, Sendable info.dbChannel.csize p)
    (hcut : first.chunks.flatten <+: ps.flatten) :
    (∀ (qs : List (List UInt8)) (second : Connection),
      (∀ q ∈ qs, Sendable info.dbChannel.csize q) → second.chunks.flatten = qs.flatten →
      callbacks (serveConnection (serveConnection info first).1 second).2 = qs.map deliver) ↔
    ∃ sent, sent <+: ps ∧ first.chunks.flatten = sent.flatten := by
  have hcsize := info.dbChannel.csize.toNat_lt
  obtain ⟨sent, rest, hsent, hsplit, hstream, hrest⟩ :=
    Format.split_prefix ps (fun p hp => (hps p hp).packet) _ hcut
  have hlength : rest.length < 65536 := by
    rcases hrest with rfl | ⟨p, hp, -, hlt⟩
    · decide
    · exact Nat.lt_trans (Nat.lt_of_lt_of_le hlt (hps p hp).fits) hcsize
  have hsendable : ∀ p ∈ sent, Sendable info.dbChannel.csize p :=
    fun p hp => hps p (hsent.subset hp)
  obtain ⟨hcaches, -⟩ := serveConnection_packets hempty hsendable hsplit hlength
  constructor
  · intro hclean
    -- What is left in the cache disturbs a packet of the second connection.
    by_cases hnil : rest = []
    · exact ⟨sent, hsent, by rw [hstream, hnil, List.append_nil]⟩
    obtain ⟨p, hp, -, -⟩ := hrest.resolve_left hnil
    obtain ⟨sequence, hdisturbed⟩ := exists_disturbed hnil
    have hprobe := hclean [probe sequence] ⟨0, 0, [probe sequence], by simp [probe]⟩
      (by simpa using
        sendable_probe (Nat.lt_of_lt_of_le (hps p hp).payload (hps p hp).fits)) rfl
    obtain ⟨-, hcallbacks⟩ := serveConnection_spec (serveConnection info first).1
      ⟨0, 0, [probe sequence], by simp [probe]⟩
    rw [hcallbacks] at hprobe
    simp only [receive, List.append_nil, (unpack_refines hcaches (probe sequence)).1] at hprobe
    exact absurd hprobe hdisturbed
  · rintro ⟨sent', hsent', hflatten⟩ qs second hqs hsecond
    -- At the end of a packet nothing is left in the cache.
    have hpackets : ∀ p ∈ sent', packetFormat.IsPacket p :=
      fun p hp => (hps p (hsent'.subset hp)).packet
    rw [hflatten, Format.split_flatten hpackets] at hsplit
    obtain rfl : [] = rest := by simpa using (Prod.mk.inj hsplit).2
    exact (serveConnection_flatten (caches_nil.mp hcaches) hqs hsecond).2

/-- A packet sent on a second connection arrives, when the first one was closed after a packet. -/
theorem next_connection_clean_iff_packet :
    callbacks (serveConnection
      (serveConnection (yangipcCmdServerInit smallChannel) packetConnection).1
      packetConnection).2 = [.recive 0 0 0 0 [1, 2, 3] 3] :=
  (next_connection_clean_iff (yangipcCmdServerInit smallChannel) [smallPacket] packetConnection rfl
    sendable_smallPacket ⟨[], by decide⟩).mpr ⟨[smallPacket], ⟨[], by decide⟩, by decide⟩
    [smallPacket] packetConnection sendable_smallPacket (by decide)

/-- **A run of connections.** As long as every client disconnects at the end of a packet, the
packets of each client are delivered once, in order and unchanged. -/
theorem connections_clean : ∀ (clients : List (Connection × List (List UInt8)))
    (info : DbCmdInfo), info.dbChannel.ccount = 0 →
    (∀ x ∈ clients, 0 ≤ x.1.fd ∧ (∀ p ∈ x.2, Sendable csize p) ∧
      x.1.chunks.flatten = x.2.flatten) →
    (yangipcCmdServerThread info (clients.map Prod.fst)).map callbacks =
      clients.map fun x => x.2.map deliver := by
  -- Induction on the connections: each of them leaves the cache empty for the next one.
  intro clients
  induction clients with
  | nil => exact fun _ _ _ => rfl
  | cons x rest ih =>
    intro info hempty h
    obtain ⟨hfd, hps, hflatten⟩ := h x List.mem_cons_self
    obtain ⟨hnext, hcallbacks⟩ := serveConnection_flatten hempty hps hflatten
    rw [List.map_cons, yangipcCmdServerThread, if_neg (Int.not_lt.mpr hfd), List.map_cons,
      List.map_cons, hcallbacks, ih _ hnext fun y hy => h y (List.mem_cons_of_mem _ hy)]

end Transmission

end YangIpc
