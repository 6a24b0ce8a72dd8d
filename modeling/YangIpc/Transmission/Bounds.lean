import YangIpc.Library.Run
import YangIpc.Transmission.Unpack

/-!
# The buffers of the command server

The command server receives into `rcv_buf`, which has `YANGIPC_NETWORK_MAX_SIZE + 1` bytes, asking
`recv` for up to `YANGIPC_CMD_BUFFER` bytes, and unpacks each chunk into the `cbuf` of a channel
made for `YANGIPC_CMD_BUFFER` bytes.  A chunk may be longer than `rcv_buf`, and a header completed
in the cache may declare a payload longer than `cbuf`; all other copies stay inside.

## Main definitions

* `serverChannel`, `serverStep`: the channel of the server, and what a chunk does to it
* `InBounds`: the writes caused by a chunk stay inside of the buffers
* `Contained`: the chunk fits into `rcv_buf`, and what is cached of its packet into `cbuf`

## Main results

* `writes_stay_in_bounds_iff`: all writes of a run are in bounds if and only if every chunk is
  contained
-/

namespace YangIpc

namespace Transmission

open Bytes Framing Transition

variable {channel : Channel} {c data chunk : List UInt8} {events : List Event} {b : ℕ}

/-! ## The highest address -/

/-- The end of the highest copy into `cbuf`. -/
def extent : List Event → ℕ
  | [] => 0
  | .memcpy offset length :: rest => max (offset + length) (extent rest)
  | .head _ :: rest => extent rest
  | .recive .. :: rest => extent rest

@[simp] theorem extent_append (l l' : List Event) :
    extent (l ++ l') = max (extent l) (extent l') := by
  induction l with
  | nil => simp [extent]
  | cons e rest ih => cases e <;> simp [extent, ih, Nat.max_assoc]

theorem extent_le_iff : extent events ≤ b ↔
    ∀ offset length, .memcpy offset length ∈ events → offset + length ≤ b := by
  induction events with
  | nil => simp [extent]
  | cons e rest ih =>
    cases e with
    | memcpy offset length =>
      rw [extent, Nat.max_le, ih]
      constructor
      · rintro ⟨hle, h⟩ o l hmem
        rcases List.mem_cons.mp hmem with heq | hmem
        · obtain ⟨rfl, rfl⟩ : o = offset ∧ l = length := by simpa using heq
          exact hle
        · exact h o l hmem
      · exact fun h =>
          ⟨h _ _ List.mem_cons_self, fun o l hmem => h o l (List.mem_cons_of_mem _ hmem)⟩
    | head _ => simpa [extent] using ih
    | recive => simpa [extent] using ih

@[simp] theorem extent_keepEvents (tail : Tail UInt8) :
    extent (keepEvents tail) = (kept tail).length := by
  cases tail with
  | pending rest =>
    simp only [keepEvents, kept]
    split
    · rename_i h
      rw [h]
      rfl
    · split <;> simp [extent]
  | broken rest => rfl

@[simp] theorem extent_directEvents :
    extent (directEvents data) = (kept (packetFormat.split data).2).length := by
  have hpackets : ∀ ps : List (List UInt8),
      extent (ps.flatMap fun p => [.head (DbTransHead.read p), deliver p]) = 0 := by
    intro ps
    induction ps with
    | nil => rfl
    | cons p rest ih =>
      rw [List.flatMap_cons, extent_append, ih]
      rfl
  rw [directEvents, extent_append, hpackets, extent_keepEvents, Nat.zero_max]

theorem length_kept_le : ∀ l, (kept (packetFormat.split l).2).length ≤ l.length := by
  refine packetFormat.split_induction (fun l h => ?_) (fun l h hs => ?_) (fun l n h hs hl => ?_)
    fun l n hs hl ih => ?_
  · rw [Format.split_short h]
    exact Nat.le_refl _
  · rw [Format.split_broken h hs]
    exact Nat.zero_le _
  · rw [Format.split_pending hs hl]
    exact Nat.le_refl _
  · rw [Format.split_packet hs hl]
    exact Nat.le_trans ih (by simp)

theorem extent_fillEvents : extent (fillEvents c) ≤ headSizeTotal := by
  unfold fillEvents
  split
  · simp only [extent, Nat.max_zero]
    omega
  · exact Nat.zero_le _

/-- What is cached of the first packet of a stream, if its header is completed in the cache. -/
def cachedPart (c data : List UInt8) : ℕ :=
  if c ≠ [] ∧ headSizeTotal ≤ (c ++ data).length ∧
      (DbTransHead.read (c ++ data)).magic = headMagicCode then
    min (c ++ data).length (headSizeTotal + (DbTransHead.read (c ++ data)).length.toNat)
  else 0

/-- **The copies of one call.** With a cache and a chunk that fit into `b` bytes, the copies stay
inside of `b` bytes if and only if what is cached of the first packet does. -/
theorem extent_reassemble (hhead : headSizeTotal ≤ b) (hc : c.length ≤ b)
    (hdata : data.length ≤ b) :
    (extent (reassemble c data).2 ≤ b ↔ cachedPart c data ≤ b) ∧
      (cachedPart c data ≤ b → (reassemble c data).1.length ≤ b) := by
  have hfill := extent_fillEvents (c := c)
  have hfilled : filled c ≤ b := Nat.max_le.mpr ⟨hc, hhead⟩
  have hpart : cachedPart c data ≤ (c ++ data).length := by
    unfold cachedPart
    split
    · exact Nat.min_le_left _ _
    · exact Nat.zero_le _
  have hpart_some : ∀ n, c ≠ [] → headSizeTotal ≤ (c ++ data).length →
      packetFormat.size (c ++ data) = some n → cachedPart c data = min (c ++ data).length n := by
    intro n hnil hlen hsize
    obtain ⟨hmagic, rfl⟩ := size_eq_some hsize
    exact if_pos ⟨hnil, hlen, hmagic⟩
  have hcases := reassembles c data
  generalize reassemble c data = r at hcases ⊢
  cases hcases with
  | direct empty =>
    -- what is left of the chunk is cached
    have hkept := length_kept_le data
    have hzero : cachedPart c data = 0 := if_neg fun h => h.1 empty
    simp only [extent_directEvents]
    omega
  | idle cached nothing =>
    subst nothing
    rw [List.append_nil] at hpart
    simp only [extent]
    omega
  -- the bytes kept here are fewer than a header
  | short cached few =>
    simp only [List.length_append, extent] at few hpart ⊢
    omega
  | invalid cached enough size =>
    have hzero : cachedPart c data = 0 := if_neg fun h => size_eq_none size h.2.2
    simp only [List.length_take]
    omega
  -- only the header is completed, for which there is room
  | flow n cached enough size beyond =>
    have hcached := hpart_some n cached enough size
    simp only [extent_append, extent, List.length_take]
    omega
  | payload n cached enough size under few =>
    have hcached := hpart_some n cached enough size
    have hle := filled_le enough
    simp only [extent_append, extent]
    omega
  | complete n cached enough size under all =>
    -- the packet is cached as a whole, and then the tail of what follows it
    have hcached := hpart_some n cached enough size
    have hrest := length_kept_le ((c ++ data).drop n)
    have hfloor := le_filled (c := c)
    have htotal : (c ++ data).length = c.length + data.length := List.length_append
    rw [List.length_drop] at hrest
    simp only [extent_append, extent, extent_directEvents, deliver, DbTransHead.recive]
    omega

/-! ## The server -/

/-- `YANGIPC_NETWORK_MAX_SIZE`. -/
def yangipcNetworkMaxSize : ℕ := 1024

/-- `YANGIPC_CMD_BUFFER`. -/
def yangipcCmdBuffer : UInt16 := 1460

/-- The size of `rcv_buf`. -/
def rcvBufSize : ℕ := yangipcNetworkMaxSize + 1

/-- The channel `yangipc_cmd_server_init` makes. -/
def serverChannel (cbuf tbuf : Memory) : Channel :=
  yangipcTransmissionMalloc yangipcCmdBuffer yangipcCmdBuffer cbuf tbuf

/-- What a chunk does to the channel; a closed connection leaves the channel as it is. -/
def serverStep (channel : Channel) (chunk : List UInt8) : Channel :=
  (yangipcTransmissionUnpack channel chunk).1

/-- The bytes in the cache. -/
def Channel.cached (channel : Channel) : List UInt8 := load channel.cbuf 0 channel.ccount.toNat

/-- `recv` writes the chunk inside of `rcv_buf`, `unpack` copies inside of `cbuf`, and `ccount`
stays at most `csize`. -/
structure InBounds (channel : Channel) (chunk : List UInt8) : Prop where
  recv : chunk.length ≤ rcvBufSize
  memcpy : ∀ offset length, .memcpy offset length ∈ (yangipcTransmissionUnpack channel chunk).2 →
    offset + length ≤ channel.csize.toNat
  ccount : (serverStep channel chunk).ccount ≤ (serverStep channel chunk).csize

/-- The chunk fits into `rcv_buf`; and if it completes a header in the cache, with the right magic
code, then what has arrived of that packet fits into `cbuf`. -/
def Contained (channel : Channel) (chunk : List UInt8) : Prop :=
  let stream := channel.cached ++ chunk
  chunk.length ≤ rcvBufSize ∧
    (channel.ccount ≠ 0 → headSizeTotal ≤ stream.length →
      (DbTransHead.read stream).magic = headMagicCode →
      min stream.length (headSizeTotal + (DbTransHead.read stream).length.toNat) ≤
        channel.csize.toNat)

instance (channel : Channel) (chunk : List UInt8) : Decidable (Contained channel chunk) :=
  inferInstanceAs (Decidable (_ ∧ _))

theorem caches_cached (channel : Channel) : Caches channel channel.cached :=
  ⟨length_load.symm, by rw [Channel.cached, length_load]⟩

theorem Caches.cached_eq (h : Caches channel c) : channel.cached = c := by
  rw [Channel.cached, h.count, h.bytes]

/-- A call leaves everything but the cache alone. -/
theorem unpackIteration_csize (channel : Channel) (p : List UInt8) :
    (unpackIteration channel p).channel.csize = channel.csize := by
  have hpayload : ∀ channel p, (unpackPayload channel p).channel.csize = channel.csize := by
    intro channel p
    simp only [unpackPayload]
    repeat' split
    all_goals rfl
  -- Only `unpackPayload` is left in a branch; all others return a channel made by `cache`.
  simp only [unpackIteration, unpackDirect, unpackCached]
  repeat' split
  all_goals first | rfl | exact hpayload _ _

theorem unpackLoop_csize : ∀ (fuel : ℕ) (channel : Channel) (p : List UInt8),
    (unpackLoop fuel channel p).1.csize = channel.csize := by
  intro fuel
  induction fuel with
  | zero => exact fun _ _ => rfl
  | succ fuel ih =>
    intro channel p
    have hiteration := unpackIteration_csize channel p
    rw [unpackLoop]
    split
    · rfl
    · split
      · rename_i channel' events he
        rw [he] at hiteration
        exact hiteration
      · rename_i channel' events left he
        rw [he] at hiteration
        exact (ih channel' left).trans hiteration

theorem serverStep_csize (channel : Channel) (chunk : List UInt8) :
    (serverStep channel chunk).csize = channel.csize := unpackLoop_csize _ _ _

theorem contained_iff : Contained channel chunk ↔
    chunk.length ≤ rcvBufSize ∧ cachedPart channel.cached chunk ≤ channel.csize.toNat := by
  have hzero : channel.ccount = 0 ↔ channel.cached = [] := by
    rw [← caches_nil]
    exact ⟨Caches.cached_eq, fun h => h ▸ caches_cached channel⟩
  unfold Contained cachedPart
  apply and_congr_right
  intro _
  split
  · rename_i h
    exact ⟨fun hall => hall (mt hzero.mp h.1) h.2.1 h.2.2, fun hle _ _ _ => hle⟩
  · rename_i h
    refine ⟨fun _ => Nat.zero_le _, fun _ hcount hlen hmagic => ?_⟩
    exact absurd ⟨mt hzero.mpr hcount, hlen, hmagic⟩ h

/-- **One chunk.** -/
theorem inBounds_iff_contained (hhead : headSizeTotal ≤ channel.csize.toNat)
    (hcount : channel.ccount ≤ channel.csize) (hchunk : chunk.length ≤ channel.csize.toNat) :
    InBounds channel chunk ↔ Contained channel chunk := by
  have hcaches := caches_cached channel
  have hc : channel.cached.length ≤ channel.csize.toNat := by
    rw [← hcaches.count]
    exact hcount
  obtain ⟨hextent, hlength⟩ := extent_reassemble hhead hc hchunk
  obtain ⟨hevents, hnext⟩ := unpack_refines hcaches chunk
  have hlt := channel.csize.toNat_lt
  rw [contained_iff]
  constructor
  · intro h
    refine ⟨h.recv, hextent.mp (extent_le_iff.mpr fun offset length hmem => ?_)⟩
    exact h.memcpy offset length (hevents ▸ hmem)
  · rintro ⟨hrecv, hpart⟩
    have hkept := hlength hpart
    refine ⟨hrecv, fun offset length hmem => ?_, ?_⟩
    · exact extent_le_iff.mp (hextent.mpr hpart) offset length (hevents ▸ hmem)
    · rw [serverStep_csize, UInt16.le_iff_toNat_le]
      exact Nat.le_trans (Nat.le_of_eq (hnext (by omega)).count) hkept

/-- A header that declares a payload of 65535 bytes. -/
def longHeader : List UInt8 := [0xD5, 0xF0, 1, 0, 0, 0, 0, 0, 0, 0, 0xFF, 0xFF, 0, 0, 0, 0]

/-- As many bytes as `rcv_buf` has. -/
def longChunk : List UInt8 := List.replicate 1025 0

/-- **Writes may leave the buffers.** A peer sends as many bytes as `recv` asks for, which do not
fit into `rcv_buf`; or it declares a long payload, which does not fit into `cbuf`, in chunks that
fit into `rcv_buf`. -/
theorem writes_may_leave_buffers :
    (¬∀ chunks : List (List UInt8),
      (∀ chunk ∈ chunks, chunk.length ≤ yangipcCmdBuffer.toNat) →
      Along serverStep InBounds (serverChannel (fun _ => 0) fun _ => 0) chunks) ∧
    ¬∀ chunks : List (List UInt8), (∀ chunk ∈ chunks, chunk.length ≤ rcvBufSize) →
      Along serverStep InBounds (serverChannel (fun _ => 0) fun _ => 0) chunks := by
  constructor
  · -- one chunk of the size `recv` is asked for
    intro h
    have hlength : (List.replicate 1460 (0 : UInt8)).length = 1460 := List.length_replicate
    have hrecv := (h [List.replicate 1460 0] fun chunk hchunk => by
      rw [List.mem_singleton.mp hchunk, hlength]
      decide).1.recv
    rw [hlength] at hrecv
    exact absurd hrecv (by decide)
  · -- the header is cached, the first chunk still fits, the second does not
    intro h
    have hlength : longChunk.length = 1025 := List.length_replicate
    obtain ⟨-, h₂, h₃, -⟩ := h [longHeader, longChunk, longChunk] (by
      simp only [List.forall_mem_cons, hlength]
      decide)
    have hcontained := (inBounds_iff_contained (by rw [serverStep_csize, serverStep_csize]; decide)
      h₂.ccount (by rw [serverStep_csize, serverStep_csize, hlength]; decide)).mp h₃
    have hover : ¬Contained (serverStep (serverStep (serverChannel (fun _ => 0) fun _ => 0)
        longHeader) longChunk) longChunk := by decide +kernel
    exact hover hcontained

/-- **All writes stay in bounds if and only if every chunk is contained.** The chunks are those
`recv` returns when it is asked for `YANGIPC_CMD_BUFFER` bytes. -/
theorem writes_stay_in_bounds_iff (cbuf tbuf : Memory) (chunks : List (List UInt8))
    (hrecv : ∀ chunk ∈ chunks, chunk.length ≤ yangipcCmdBuffer.toNat) :
    Along serverStep InBounds (serverChannel cbuf tbuf) chunks ↔
      Along serverStep Contained (serverChannel cbuf tbuf) chunks := by
  have hbuffer : yangipcCmdBuffer.toNat = 1460 := rfl
  refine along_congr (B := fun channel => channel.csize = 1476 ∧ channel.ccount ≤ channel.csize)
    (fun channel hb chunk hchunk => ?_) (fun channel hb chunk _ h => ?_) _
    ⟨rfl, UInt16.le_iff_toNat_le.mpr (Nat.zero_le _)⟩
  · obtain ⟨hcsize, hcount⟩ := hb
    have hsize : channel.csize.toNat = 1476 := by rw [hcsize]; rfl
    have hlen := hrecv chunk hchunk
    exact inBounds_iff_contained (by rw [hsize]; decide) hcount (by omega)
  · exact ⟨(serverStep_csize channel chunk).trans hb.1, h.ccount⟩

/-- The same for a header that arrives in two chunks. -/
theorem writes_stay_in_bounds_iff_header :
    Along serverStep InBounds (serverChannel (fun _ => 0) fun _ => 0)
      [longHeader.take 5, longHeader.drop 5] :=
  (writes_stay_in_bounds_iff _ _ _ (by decide)).mpr ⟨by decide, by decide, trivial⟩

end Transmission

end YangIpc
