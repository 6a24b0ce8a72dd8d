import Mathlib.Logic.Function.Basic
import YangIpc.Transmission.RoundTrip
import YangIpc.Transmission.SendLoop

/-!
# Voice on its way to the peer

`yangipc_voice_send_callback` of `yangipc_audio_device.c`, with the audio callbacks of
`yangipc_tcp_service.c` and `yangipc_udp_service.c`.  The callbacks of the two services are the
same but for the service they belong to.  A block of audio is packed into the transmit buffer of
the audio channel, and sent from there: over TCP it may stop anywhere in a packet.

## Main definitions

* `VoicePath`: the pointers that lead from the callback to a channel; `VoicePath.Broken` if one of
  them is null
* `yangipcVoiceSendCallback`, `voiceRun`: the callback, and what its calls do one after the other
* `successes`, `arriving`: the calls that succeed, and those of the callback of the peer that are
  meant to follow
* `Sent.Torn`: the beginning of a packet is sent, and not its end

## Main results

* `receive_packets_before`: packets in front of anything are delivered
* `voice_blocks_arrive`: what the peer gets over TCP
* `voice_datagrams_arrive`: what the peer gets over UDP
-/

namespace YangIpc

namespace Transmission

open Bytes Framing SendLoop

/-! ## The callbacks -/

/-- The two LAN services. -/
inductive LanService
  | tcp
  | udp
deriving DecidableEq, Repr

/-- `db_tcp_service_t` or `db_udp_service_t`: the channel for audio. -/
structure LanAudio where
  audChannel : Option Channel

/-- The pointers that a call of the callback follows. -/
structure VoicePath where
  /-- `gl_db_audio_device_info` is there. -/
  deviceInfo : Bool
  audioTransferCb : Option LanService
  /-- `db_tcp_service` and `db_udp_service`. -/
  service : LanService → Option LanAudio

/-- A call of the callback: the block, the clock, `aud_status` when it is tested, and what the
socket answers. -/
structure VoiceCall where
  data : List UInt8
  milliseconds : UInt32
  audStatus : Bool
  answers : ℕ → SendAnswer

/-- `BK_FAIL`, and nothing is sent. -/
def SendLoop.Sent.refused : Sent := ⟨[], 0, -1⟩

/-- `yangipc_tcp_aud_get_tx_size` and `yangipc_udp_aud_get_tx_size`; compared with a length, the
result is unsigned. -/
def audGetTxSize (service : Option LanAudio) : UInt32 :=
  match service with
  | some ⟨some channel⟩ => channel.tsize.toUInt32 - UInt32.ofNat headSizeTotal
  | _ => 0

/-- `yangipc_tcp_aud_send_packet` and `yangipc_udp_aud_send_packet`: `buffer` is an address in
`tbuf`, and what is sent begins a header before it. -/
def audSendPacket (channel : Channel) (audStatus : Bool) (answers : ℕ → SendAnswer) (buffer : ℕ)
    (len : UInt32) : Sent :=
  if audStatus then
    yangipcSocketSendto answers (fun i => channel.tbuf (buffer + i).toNat) len (-16)
  else .refused

variable (hndCrc8 : List UInt8 → UInt8)

/-- `yangipc_voice_send_callback`; `none` if a null pointer is followed. -/
def yangipcVoiceSendCallback (path : VoicePath) (call : VoiceCall) : Option (VoicePath × Sent) :=
  let len := UInt32.ofNat call.data.length
  if path.deviceInfo = false then some (path, .refused)
  else
    match path.audioTransferCb with
    | none => some (path, .refused)
    | some lan =>
      if audGetTxSize (path.service lan) < len then some (path, .refused)
      else
        -- `prepare` packs without a look at the connection
        match path.service lan with
        | some ⟨some channel⟩ =>
          let channel := yangipcTransmissionPack hndCrc8 call.milliseconds channel call.data
          some ({ path with
              service := Function.update path.service lan (some ⟨some channel⟩) },
            audSendPacket channel call.audStatus call.answers headSizeTotal len)
        | _ => none

/-- One call after the other: what each of them sends. -/
def voiceRun : VoicePath → List VoiceCall → Option (VoicePath × List (VoiceCall × Sent))
  | path, [] => some (path, [])
  | path, call :: rest => do
    let (path, sent) ← yangipcVoiceSendCallback hndCrc8 path call
    let (path, log) ← voiceRun path rest
    return (path, (call, sent) :: log)

/-! ## What is promised -/

/-- The callback leads to this channel, and its buffer has room for a header. -/
structure VoicePath.Leads (path : VoicePath) (lan : LanService) (channel : Channel) : Prop where
  deviceInfo : path.deviceInfo = true
  audioTransferCb : path.audioTransferCb = some lan
  service : path.service lan = some ⟨some channel⟩
  room : headSizeTotal ≤ channel.tsize.toNat

/-- One of the pointers is null. -/
def VoicePath.Broken (path : VoicePath) : Prop :=
  path.deviceInfo = false ∨ ∀ lan channel, path.audioTransferCb = some lan →
    path.service lan ≠ some ⟨some channel⟩

/-- The block fits into the transmit buffer. -/
def VoiceCall.Fits (tsize : UInt16) (call : VoiceCall) : Prop :=
  headSizeTotal + call.data.length ≤ tsize.toNat

instance VoiceCall.decidableFits (tsize : UInt16) (call : VoiceCall) :
    Decidable (call.Fits tsize) :=
  inferInstanceAs (Decidable (_ ≤ _))

/-- The packet of a call. -/
def VoiceCall.packet (sequence : UInt16) (call : VoiceCall) : List UInt8 :=
  (packHead hndCrc8 call.milliseconds sequence call.data).write ++ call.data

/-- The call has reported success. -/
def Succeeded (call : VoiceCall) (sent : Sent) : Prop := sent.ret = Int32.ofNat call.data.length

instance (call : VoiceCall) (sent : Sent) : Decidable (Succeeded call sent) :=
  inferInstanceAs (Decidable (_ = _))

/-- The beginning of a packet is sent, and not its end. -/
def SendLoop.Sent.Torn (sent : Sent) : Prop := sent.ret < 0 ∧ sent.accepted ≠ []

instance (sent : Sent) : Decidable sent.Torn := inferInstanceAs (Decidable (_ ∧ _))

/-- The call of the callback of the peer that a block is meant to cause. -/
def VoiceCall.event (sequence : UInt16) (call : VoiceCall) : Event :=
  .recive sequence headFlagsCrc call.milliseconds sequence.toUInt8 call.data
    (UInt16.ofNat call.data.length)

/-- The calls that succeed, with the numbers of their packets.  A call that fails behind `prepare`
has used a number, and one whose block is too long has not. -/
def successes (tsize : UInt16) : UInt16 → List (VoiceCall × Sent) → List (UInt16 × VoiceCall)
  | _, [] => []
  | sequence, (call, sent) :: rest =>
    if call.Fits tsize then
      if Succeeded call sent then
        (sequence + 1, call) :: successes tsize (sequence + 1) rest
      else successes tsize (sequence + 1) rest
    else successes tsize sequence rest

/-- The calls of the callback of the peer that are meant to follow. -/
def arriving (tsize sequence : UInt16) (log : List (VoiceCall × Sent)) : List Event :=
  (successes tsize sequence log).map fun x => x.2.event x.1

/-- The socket accepts a datagram whole, or not at all. -/
def VoiceCall.Datagrams (call : VoiceCall) : Prop :=
  ∀ n count, call.answers n = .accepts count → 65535 ≤ count

/-- A call that has packed its block under this number: the beginning of the packet is sent, and
success is reported for all of it. -/
structure Attempt (sequence : UInt16) (call : VoiceCall) (sent : Sent) : Prop where
  accepted : sent.accepted <+: call.packet hndCrc8 sequence
  succeeded : Succeeded call sent ↔ sent.accepted = call.packet hndCrc8 sequence
  failed : ¬Succeeded call sent → sent.ret < 0
  whole : call.Datagrams → ¬sent.Torn

/-- What each call sends and reports. -/
def Reported (tsize : UInt16) : UInt16 → List (VoiceCall × Sent) → Prop
  | _, [] => True
  | sequence, (call, sent) :: rest =>
    if call.Fits tsize then
      Attempt hndCrc8 (sequence + 1) call sent ∧ Reported tsize (sequence + 1) rest
    else sent = .refused ∧ Reported tsize sequence rest

variable {hndCrc8} {path : VoicePath} {lan : LanService} {channel : Channel} {call : VoiceCall}
  {sent : Sent} {tsize sequence : UInt16} {log log' : List (VoiceCall × Sent)}
  {c data : List UInt8} {ps : List (List UInt8)}

/-! ## One call -/

theorem deliver_packet : deliver (call.packet hndCrc8 sequence) = call.event sequence := by
  rw [deliver, VoiceCall.packet, DbTransHead.read_write,
    List.drop_left' (DbTransHead.length_write _)]
  rfl

theorem VoiceCall.Fits.lt (h : call.Fits tsize) :
    headSizeTotal + call.data.length < 65536 := Nat.lt_of_le_of_lt h tsize.toNat_lt

theorem length_packet :
    (call.packet hndCrc8 sequence).length = headSizeTotal + call.data.length := by
  rw [VoiceCall.packet, List.length_append, DbTransHead.length_write]

theorem VoiceCall.Datagrams.count (h : call.Datagrams) (n : ℕ) {offered : ℕ}
    (hle : offered ≤ 65535) :
    (call.answers n).count false offered = none ∨ (call.answers n).count false offered = some 0 ∨
      (call.answers n).count false offered = some offered := by
  cases hanswer : call.answers n with
  | closed => exact .inl rfl
  | error => exact .inl rfl
  | again => exact .inr (.inl rfl)
  | accepts count =>
    exact .inr (.inr (congrArg some (Nat.min_eq_right (Nat.le_trans hle (h n count hanswer)))))

/-- The loop sends all, or nothing. -/
theorem sendLoop_datagram {ptr : Memory} {size : UInt16} {offset : Int32} (h : call.Datagrams)
    (maxRetry : ℕ) :
    (sendLoop false ptr size offset call.answers maxRetry 0).accepted = [] ∨
      (sendLoop false ptr size offset call.answers maxRetry 0).accepted =
        load ptr 0 size.toNat := by
  have hsize := Nat.le_of_lt_succ size.toNat_lt
  have hall : (0 : UInt16) + UInt16.ofNat size.toNat = size := by simp
  have hnone : (0 : UInt16) + UInt16.ofNat 0 = 0 := rfl
  induction maxRetry with
  | zero =>
    rw [sendLoop.eq_def]
    split
    · exact .inl rfl
    rcases h.count 0 hsize with hcount | hcount | hcount <;>
      simp only [UInt16.toNat_zero, Nat.sub_zero, hcount]
    · exact .inl trivial
    · left
      split <;> rfl
    · right
      rw [if_pos hall]
  | succ maxRetry ih =>
    rw [sendLoop.eq_def]
    split
    · exact .inl rfl
    rcases h.count (maxRetry + 1) hsize with hcount | hcount | hcount <;>
      simp only [UInt16.toNat_zero, Nat.sub_zero, hcount]
    · exact .inl trivial
    · split
      · exact .inl rfl
      split
      -- nothing is accepted, and the loop goes on
      · exact ih
      · exact .inl rfl
    · right
      rw [if_pos hall]

/-- The test of the length. -/
theorem getTxSize_lt_iff (h : path.Leads lan channel) (hlength : call.data.length < 4294967296) :
    audGetTxSize (path.service lan) < UInt32.ofNat call.data.length ↔
      ¬call.Fits channel.tsize := by
  have hroom := h.room
  have htsize := channel.tsize.toNat_lt
  -- the subtraction does not wrap, since the buffer has room for a header
  rw [h.service, audGetTxSize, UInt32.lt_iff_toNat_lt, UInt32.toNat_sub, UInt32.toNat_ofNat',
    UInt32.toNat_ofNat', UInt16.toNat_toUInt32, VoiceCall.Fits]
  unfold headSizeTotal at *
  omega

variable (hndCrc8 channel) in
/-- What is sent from behind the header is the packet. -/
theorem region_packed (h : call.Fits tsize) :
    region (fun i => (yangipcTransmissionPack hndCrc8 call.milliseconds channel call.data).tbuf
        ((headSizeTotal : ℤ) + i).toNat) (UInt32.ofNat call.data.length) (-16) =
      call.packet hndCrc8 (channel.sequence + 1) := by
  have hlt := h.lt
  -- the offset `-sizeof(db_trans_head_t)` leads back to the header in front of the block
  have hoffset : (-16 : Int32).toInt = -16 := by decide
  have hlength : (UInt32.ofNat call.data.length).toNat = call.data.length := by
    rw [UInt32.toNat_ofNat', Nat.mod_eq_of_lt (by omega)]
  have haddress (i : ℕ) : ((headSizeTotal : ℤ) + (-16 + i)).toNat = i := by
    rw [headSizeTotal]
    omega
  have hsize : ((call.data.length : ℤ) - -16).toNat = headSizeTotal + call.data.length := by
    rw [headSizeTotal]
    omega
  simp only [region, hoffset, hlength, haddress, hsize]
  exact packed_eq

theorem not_succeeded_refused (h : call.Fits tsize) : ¬Succeeded call .refused := by
  have hlt := h.lt
  intro hsucceeded
  have hnat := congrArg Int32.toInt hsucceeded
  rw [Int32.toInt_ofNat_of_lt (by omega)] at hnat
  have hrefused : SendLoop.Sent.refused.ret.toInt = -1 := by decide
  omega

/-- **A packed block is sent**, as far as the socket accepts it. -/
theorem attempt_send (h : call.Fits tsize) :
    Attempt hndCrc8 (channel.sequence + 1) call
      (audSendPacket (yangipcTransmissionPack hndCrc8 call.milliseconds channel call.data)
        call.audStatus call.answers headSizeTotal (UInt32.ofNat call.data.length)) := by
  have hlt := h.lt
  have hhead : headSizeTotal = 16 := rfl
  have hoffset : (-16 : Int32).toInt = -16 := by decide
  have hlength : (UInt32.ofNat call.data.length).toNat = call.data.length := by
    rw [UInt32.toNat_ofNat', Nat.mod_eq_of_lt (by omega)]
  have hsize : ((UInt32.ofNat call.data.length - (-16 : Int32).toUInt32).toUInt16.toNat : ℤ) =
      (UInt32.ofNat call.data.length).toNat - (-16 : Int32).toInt :=
    toNat_size (by omega) (by omega)
  rw [audSendPacket]
  by_cases hstatus : call.audStatus = true
  · rw [if_pos hstatus]
    obtain ⟨-, haccepted, hret, -, hfailed⟩ := (allOrReported call.answers
      (fun i => (yangipcTransmissionPack hndCrc8 call.milliseconds channel call.data).tbuf
        ((headSizeTotal : ℤ) + i).toNat) (UInt32.ofNat call.data.length) (-16)
      (by omega) (by omega)).2
    have hregion := region_packed hndCrc8 channel h
    rw [hregion] at haccepted hret hfailed
    have hsucceeded : ∀ ret : Int32, ret.toUInt32 = UInt32.ofNat call.data.length ↔
        ret = Int32.ofNat call.data.length := by
      intro ret
      rw [← Int32.toUInt32_ofNat']
      exact ⟨fun heq => by simpa using congrArg UInt32.toInt32 heq, congrArg Int32.toUInt32⟩
    rw [hsucceeded] at hret
    -- a datagram is accepted whole or not at all, so it is not torn
    refine ⟨haccepted, hret, fun hno => hfailed (hret.not.mp hno), fun hdatagrams htorn => ?_⟩
    rw [region, ← hsize, Int.toNat_natCast] at hregion
    rcases sendLoop_datagram hdatagrams yangipcSendMaxRetry with hnone | hall
    · exact htorn.2 hnone
    · have hnegative := htorn.1
      rw [hret.mpr (hall.trans hregion), Int32.lt_iff_toInt_lt,
        Int32.toInt_ofNat_of_lt (by omega)] at hnegative
      exact absurd hnegative (Int.not_lt.mpr (Int.natCast_nonneg _))
  · rw [if_neg hstatus]
    refine ⟨List.nil_prefix, iff_of_false (not_succeeded_refused h) fun hnil => ?_,
      fun _ => by decide, fun _ htorn => htorn.2 rfl⟩
    have hzero := congrArg List.length hnil
    rw [length_packet] at hzero
    have hnone : SendLoop.Sent.refused.accepted.length = 0 := rfl
    omega

variable (hndCrc8) in
/-- **One call.** The block is packed and sent, or it is too long. -/
theorem voiceSendCallback_spec (h : path.Leads lan channel)
    (hlength : call.data.length < 4294967296) :
    ∃ path' sent channel', yangipcVoiceSendCallback hndCrc8 path call = some (path', sent) ∧
      path'.Leads lan channel' ∧ channel'.tsize = channel.tsize ∧
      if call.Fits channel.tsize then
        channel'.sequence = channel.sequence + 1 ∧
          Attempt hndCrc8 (channel.sequence + 1) call sent
      else channel'.sequence = channel.sequence ∧ sent = .refused := by
  have htest := getTxSize_lt_iff h hlength
  rw [yangipcVoiceSendCallback, h.deviceInfo, h.audioTransferCb]
  by_cases hfits : call.Fits channel.tsize
  · have hshort := htest.not.mpr (not_not.mpr hfits)
    rw [h.service] at hshort
    simp only [Bool.true_eq_false, if_false, h.service, if_neg hshort, if_pos hfits]
    exact ⟨_, _, yangipcTransmissionPack hndCrc8 call.milliseconds channel call.data, rfl,
      ⟨rfl, rfl, Function.update_self .., h.room⟩, rfl, rfl,
      attempt_send hfits⟩
  · simp only [Bool.true_eq_false, if_false, if_pos (htest.mpr hfits), if_neg hfits]
    exact ⟨path, .refused, channel, rfl, h, rfl, rfl, rfl⟩

/-- The size that is free, if no service or no channel is there. -/
theorem audGetTxSize_eq_zero {service : Option LanAudio}
    (h : ∀ channel, service ≠ some ⟨some channel⟩) : audGetTxSize service = 0 := by
  rcases service with _ | ⟨_ | channel⟩
  · rfl
  · rfl
  · exact absurd rfl (h channel)

/-- A block that is not empty has a length that is not zero. -/
theorem VoiceCall.length_pos (hdata : call.data ≠ []) (hlength : call.data.length < 4294967296) :
    (0 : UInt32) < UInt32.ofNat call.data.length := by
  have hpos := List.length_pos_of_ne_nil hdata
  rw [UInt32.lt_iff_toNat_lt, UInt32.toNat_ofNat', Nat.mod_eq_of_lt hlength]
  exact hpos

variable (hndCrc8) in
/-- **With a null pointer** every call fails, and sends nothing. -/
theorem voiceSendCallback_broken (h : path.Broken) (hdata : call.data ≠ [])
    (hlength : call.data.length < 4294967296) :
    yangipcVoiceSendCallback hndCrc8 path call = some (path, .refused) := by
  rw [yangipcVoiceSendCallback]
  split
  · rfl
  rename_i hinfo
  have hservice := h.resolve_left hinfo
  cases hcb : path.audioTransferCb with
  | none => rfl
  | some lan =>
    -- the size is zero, and the block longer
    have hzero := audGetTxSize_eq_zero fun channel => hservice lan channel hcb
    exact if_pos (hzero ▸ VoiceCall.length_pos hdata hlength)

variable (hndCrc8) in
/-- **No null pointer** is followed, wherever the pointers lead. -/
theorem voiceSendCallback_ne_none (hdata : call.data ≠ [])
    (hlength : call.data.length < 4294967296) :
    yangipcVoiceSendCallback hndCrc8 path call ≠ none := by
  by_cases hbroken : path.Broken
  · rw [voiceSendCallback_broken hndCrc8 hbroken hdata hlength]
    exact Option.some_ne_none _
  · simp only [VoicePath.Broken, not_or, not_forall, not_not] at hbroken
    obtain ⟨hinfo, lan, channel, hcb, hservice⟩ := hbroken
    rw [yangipcVoiceSendCallback, if_neg hinfo, hcb]
    dsimp only
    split
    · exact Option.some_ne_none _
    · rw [hservice]
      exact Option.some_ne_none _

/-! ## All calls -/

variable (hndCrc8) in
/-- **A run of calls** on any pointers. -/
theorem exists_voiceRun : ∀ (calls : List VoiceCall) (path : VoicePath),
    (∀ call ∈ calls, call.data ≠ [] ∧ call.data.length < 4294967296) →
    ∃ path' log, voiceRun hndCrc8 path calls = some (path', log) ∧ log.map Prod.fst = calls ∧
      (path.Broken → ∀ x ∈ log, x.2 = .refused) := by
  intro calls
  induction calls with
  | nil => exact fun path _ => ⟨path, [], rfl, rfl, fun _ x hx => absurd hx List.not_mem_nil⟩
  | cons call rest ih =>
    intro path hcalls
    obtain ⟨hdata, hlength⟩ := hcalls call List.mem_cons_self
    have hcallback : yangipcVoiceSendCallback hndCrc8 path call ≠ none :=
      voiceSendCallback_ne_none hndCrc8 hdata hlength
    obtain ⟨⟨path₁, sent⟩, hcall⟩ := Option.ne_none_iff_exists'.mp hcallback
    obtain ⟨path₂, log, hrun, hlog, hrefused⟩ :=
      ih path₁ fun x hx => hcalls x (List.mem_cons_of_mem _ hx)
    refine ⟨path₂, (call, sent) :: log, ?_, by rw [List.map_cons, hlog], fun hbroken => ?_⟩
    · rw [voiceRun, hcall]
      show (voiceRun hndCrc8 path₁ rest).bind _ = _
      rw [hrun]
      rfl
    · rw [voiceSendCallback_broken hndCrc8 hbroken hdata hlength, Option.some.injEq,
        Prod.mk.injEq] at hcall
      obtain ⟨rfl, rfl⟩ := hcall
      exact List.forall_mem_cons.mpr ⟨rfl, hrefused hbroken⟩

/-- **A run of calls** on a channel: what every call has sent and reported. -/
theorem reported_of_voiceRun {calls : List VoiceCall} {path' : VoicePath}
    (hleads : path.Leads lan channel) (hlength : ∀ call ∈ calls, call.data.length < 4294967296)
    (hrun : voiceRun hndCrc8 path calls = some (path', log)) :
    Reported hndCrc8 channel.tsize channel.sequence log := by
  induction calls generalizing path path' channel log with
  | nil =>
    obtain rfl : [] = log := congrArg Prod.snd (Option.some.inj hrun)
    trivial
  | cons call rest ih =>
    obtain ⟨path₁, sent, channel₁, hcall, hleads₁, htsize, hspec⟩ :=
      voiceSendCallback_spec hndCrc8 hleads (hlength call List.mem_cons_self)
    rw [voiceRun, hcall] at hrun
    change (voiceRun hndCrc8 path₁ rest).bind (fun r => some (r.1, (call, sent) :: r.2)) = _ at hrun
    obtain ⟨⟨path₂, log₁⟩, hrest, heq⟩ := Option.bind_eq_some_iff.mp hrun
    obtain rfl : (call, sent) :: log₁ = log := congrArg Prod.snd (Option.some.inj heq)
    have hreported := ih hleads₁ (fun x hx => hlength x (List.mem_cons_of_mem _ hx)) hrest
    rw [htsize] at hreported
    rw [Reported]
    split
    · rename_i hfits
      rw [if_pos hfits] at hspec
      exact ⟨hspec.2, hspec.1 ▸ hreported⟩
    · rename_i hfits
      rw [if_neg hfits] at hspec
      exact ⟨hspec.2, hspec.1 ▸ hreported⟩

theorem Reported.take : ∀ {sequence} (log : List (VoiceCall × Sent)),
    Reported hndCrc8 tsize sequence (log ++ log') → Reported hndCrc8 tsize sequence log := by
  intro sequence log
  induction log generalizing sequence with
  | nil => exact fun _ => trivial
  | cons x rest ih =>
    obtain ⟨call, sent⟩ := x
    intro h
    rw [List.cons_append, Reported] at h
    rw [Reported]
    split
    · rename_i hfits
      rw [if_pos hfits] at h
      exact ⟨h.1, ih h.2⟩
    · rename_i hfits
      rw [if_neg hfits] at h
      exact ⟨h.1, ih h.2⟩

variable (hndCrc8) in
/-- The packets of the calls that succeed. -/
def arrivingPackets (tsize sequence : UInt16) (log : List (VoiceCall × Sent)) : List (List UInt8) :=
  (successes tsize sequence log).map fun x => x.2.packet hndCrc8 x.1

theorem fits_of_mem_successes : ∀ {sequence} (log : List (VoiceCall × Sent))
    (x : UInt16 × VoiceCall), x ∈ successes tsize sequence log →
    x.2.Fits tsize ∧ ∃ sent, (x.2, sent) ∈ log := by
  intro sequence log
  induction log generalizing sequence with
  | nil => exact fun x hx => absurd hx List.not_mem_nil
  | cons y rest ih =>
    obtain ⟨call, sent⟩ := y
    intro x hx
    have hrest {sequence : UInt16} (hx : x ∈ successes tsize sequence rest) :
        x.2.Fits tsize ∧ ∃ sent', (x.2, sent') ∈ (call, sent) :: rest := by
      obtain ⟨hfits, sent', hmem⟩ := ih x hx
      exact ⟨hfits, sent', List.mem_cons_of_mem _ hmem⟩
    rw [successes] at hx
    split at hx
    · rename_i hfits
      split at hx
      · rcases List.mem_cons.mp hx with rfl | hx
        · exact ⟨hfits, sent, List.mem_cons_self⟩
        · exact hrest hx
      · exact hrest hx
    · exact hrest hx

/-- What is accepted when no packet is torn: the packets of the calls that succeed. -/
theorem accepted_eq : ∀ {sequence} (log : List (VoiceCall × Sent)),
    Reported hndCrc8 tsize sequence log → (∀ x ∈ log, ¬x.2.Torn) →
    (log.map fun x => x.2.accepted).filter (· ≠ []) =
      arrivingPackets hndCrc8 tsize sequence log := by
  intro sequence log
  induction log generalizing sequence with
  | nil => exact fun _ _ => rfl
  | cons x rest ih =>
    obtain ⟨call, sent⟩ := x
    intro h htorn
    have hrest := fun x hx => htorn x (List.mem_cons_of_mem _ hx)
    rw [Reported] at h
    rw [List.map_cons, List.filter_cons, arrivingPackets, successes]
    split at h
    · rename_i hfits
      rw [if_pos hfits]
      by_cases hsucceeded : Succeeded call sent
      · have hpacket := h.1.succeeded.mp hsucceeded
        -- a packet has a header, so a call that succeeds has sent something
        have hsome : sent.accepted ≠ [] := by
          intro hnil
          have hlength := congrArg List.length hpacket
          rw [hnil, length_packet] at hlength
          exact Nat.noConfusion (hlength.trans (Nat.add_comm _ _))
        rw [if_pos (decide_eq_true hsome), if_pos hsucceeded, ih h.2 hrest, hpacket]
        rfl
      · have hnone : sent.accepted = [] := by
          by_contra hne
          exact htorn (call, sent) List.mem_cons_self ⟨h.1.failed hsucceeded, hne⟩
        rw [if_neg (by simp [hnone]), if_neg hsucceeded, ih h.2 hrest]
        rfl
    · rename_i hfits
      rw [if_neg hfits, if_neg (by simp [h.1, SendLoop.Sent.refused]), ih h.2 hrest]
      rfl

/-- **What is on the wire** when no packet is torn. -/
theorem wire_eq (h : Reported hndCrc8 tsize sequence log) (htorn : ∀ x ∈ log, ¬x.2.Torn) :
    (log.map fun x => x.2.accepted).flatten =
      (arrivingPackets hndCrc8 tsize sequence log).flatten := by
  rw [← accepted_eq log h htorn, List.flatten_filter_ne_nil]

theorem Reported.not_torn : ∀ {sequence} (log : List (VoiceCall × Sent)),
    Reported hndCrc8 tsize sequence log → (∀ x ∈ log, x.1.Datagrams) → ∀ x ∈ log, ¬x.2.Torn := by
  intro sequence log
  induction log generalizing sequence with
  | nil => exact fun _ _ x hx => absurd hx List.not_mem_nil
  | cons y rest ih =>
    obtain ⟨call, sent⟩ := y
    intro h hdatagrams x hx
    have hrest := fun x hx => hdatagrams x (List.mem_cons_of_mem _ hx)
    rw [Reported] at h
    split at h
    · rcases List.mem_cons.mp hx with rfl | hx
      · exact h.1.whole (hdatagrams _ List.mem_cons_self)
      · exact ih h.2 hrest x hx
    · rcases List.mem_cons.mp hx with rfl | hx
      · exact fun htorn => htorn.2 (by rw [h.1]; rfl)
      · exact ih h.2 hrest x hx

/-! ## Packets in front of anything -/

/-- A packet that is as long as what is cached has no payload. -/
theorem size_eq_of_le_filled {n : ℕ} (hc : packetFormat.Pending c)
    (hsize : packetFormat.size (c ++ data) = some n) (hle : n ≤ filled c) : n = headSizeTotal := by
  have hhead : headSizeTotal ≤ n := packetFormat.head_le_of_size _ n hsize
  by_cases hshort : c.length ≤ headSizeTotal
  · have hfilled : filled c = headSizeTotal := Nat.max_eq_right hshort
    omega
  · have hfilled : filled c = c.length := Nat.max_eq_left (by omega)
    rcases hc with hlt | ⟨m, hm, hlt⟩
    · exact absurd (Nat.le_of_lt hlt) hshort
    · -- the cached header declares more than what is cached
      have heq := (Format.size_append (Nat.le_of_not_le hshort) data).symm.trans hsize
      obtain rfl : m = n := Option.some.inj (hm.symm.trans heq)
      omega

/-- One chunk: packets with a payload are delivered, whatever is behind them. -/
theorem reassemble_packets_before (hc : packetFormat.Pending c)
    (hps : ps <+: (packetFormat.split (c ++ data)).1)
    (hpayload : ∀ p ∈ ps, headSizeTotal < p.length) :
    ps.map deliver <+: deliveries (reassemble c data).2 := by
  have hcases := reassembles c data
  generalize reassemble c data = r at hcases ⊢
  -- without packets there is nothing to show
  by_cases hnil : ps = []
  · subst hnil
    exact List.nil_prefix
  have hsome : (packetFormat.split (c ++ data)).1 ≠ [] := by
    intro hnone
    rw [hnone] at hps
    exact hnil (List.prefix_nil.mp hps)
  cases hcases with
  | direct empty =>
    subst empty
    rw [List.nil_append] at hps
    simp only [deliveries_directEvents]
    exact hps.map deliver
  | idle cached nothing =>
    subst nothing
    rw [List.append_nil, hc.split] at hsome
    exact absurd rfl hsome
  | short cached few => exact absurd (by rw [Format.split_short few]) hsome
  | invalid cached enough size => exact absurd (by rw [Format.split_broken enough size]) hsome
  -- a cached packet that is complete has no payload, which the packets here have
  | flow n cached enough size beyond =>
    have hle : n ≤ (c ++ data).length := Nat.le_trans beyond (filled_le enough)
    rw [Format.split_packet size hle] at hps
    obtain ⟨p, ps, rfl⟩ := List.exists_cons_of_ne_nil hnil
    obtain ⟨rfl, -⟩ := List.cons_prefix_cons.mp hps
    have hlong := hpayload _ List.mem_cons_self
    have hshort := size_eq_of_le_filled hc size beyond
    rw [List.length_take] at hlong
    omega
  | payload n cached enough size under few =>
    exact absurd (by rw [Format.split_pending size few]) hsome
  | complete n cached enough size under all =>
    rw [Format.split_packet size all] at hps
    simp only [deliveries_append, deliveries_fillEvents, deliveries_directEvents]
    exact hps.map deliver

/-- **All chunks.** Packets with a payload are delivered, whatever is behind them. -/
theorem receive_packets_before : ∀ (chunks : List (List UInt8)) (channel : Channel)
    (c : List UInt8) (ps : List (List UInt8)), Caches channel c → packetFormat.Pending c →
    ps <+: (packetFormat.split (c ++ chunks.flatten)).1 →
    (∀ p ∈ ps, headSizeTotal < p.length ∧ p.length < 65536) →
    ps.map deliver <+: deliveries (receive channel chunks).2 := by
  -- Induction on the chunks; the packets completed by the first one are split off.
  intro chunks
  induction chunks with
  | nil =>
    intro channel c ps hcaches hc hps _
    rw [List.flatten_nil, List.append_nil, hc.split] at hps
    obtain rfl := List.prefix_nil.mp hps
    exact List.nil_prefix
  | cons chunk rest ih =>
    intro channel c ps hcaches hc hps hlengths
    obtain ⟨hevents, hnext⟩ := unpack_refines hcaches chunk
    rw [receive, deliveries_append, hevents]
    -- if the chunk completes them all, there is nothing more to show
    have hdone (hps : ps <+: (packetFormat.split (c ++ chunk)).1) :
        ps.map deliver <+: deliveries (reassemble c chunk).2 ++
          deliveries (receive (yangipcTransmissionUnpack channel chunk).1 rest).2 :=
      (reassemble_packets_before hc hps fun p hp => (hlengths p hp).1).trans
        (List.prefix_append _ _)
    rw [List.flatten_cons, ← List.append_assoc] at hps
    cases hcut : (packetFormat.split (c ++ chunk)).2 with
    | broken b =>
      rw [Format.split_broken_append rest.flatten _ hcut] at hps
      exact hdone hps
    | pending c' =>
      have hc' := Format.pending_of_split _ hcut
      rw [Format.split_append rest.flatten _ hcut] at hps
      rcases List.prefix_or_prefix_of_prefix hps (List.prefix_append _ _) with hps | ⟨qs, rfl⟩
      · exact hdone hps
      have hqs := (List.prefix_append_right_inj _).mp hps
      by_cases hnil : qs = []
      · subst hnil
        exact hdone (by rw [List.append_nil])
      obtain ⟨q, qs, rfl⟩ := List.exists_cons_of_ne_nil hnil
      -- the rest of the first packet still to come is not cached yet, so `ccount` does not overflow
      obtain ⟨t, ht⟩ := hqs
      have hlength : c'.length < 65536 :=
        Nat.lt_of_le_of_lt (hc'.length_le_head (ht.symm.trans (List.cons_append ..)))
          (hlengths q (by simp)).2
      obtain ⟨hcache, hdeliver⟩ := reassemble_smooth hc
        ⟨fun p hp => (hlengths p (List.mem_append_left _ hp)).1, hcut⟩
      rw [hcache] at hnext
      rw [List.map_append, hdeliver]
      exact (List.prefix_append_right_inj _).mpr (ih _ c' (q :: qs) (hnext hlength) hc' ⟨t, ht⟩
        fun p hp => hlengths p (List.mem_append_right _ hp))

variable (hndCrc8 tsize sequence) in
theorem arrivingPackets_spec (log : List (VoiceCall × Sent)) (hdata : ∀ x ∈ log, x.1.data ≠ []) :
    (∀ p ∈ arrivingPackets hndCrc8 tsize sequence log, packetFormat.IsPacket p ∧
        headSizeTotal < p.length ∧ p.length < 65536) ∧
      (arrivingPackets hndCrc8 tsize sequence log).map deliver = arriving tsize sequence log := by
  constructor
  · intro p hp
    obtain ⟨x, hx, rfl⟩ := List.mem_map.mp hp
    obtain ⟨hfits, sent, hmem⟩ := fits_of_mem_successes log x hx
    have hlt := hfits.lt
    have hpos : 0 < x.2.data.length := List.length_pos_of_ne_nil (hdata _ hmem)
    exact ⟨isPacket_packed (by omega), by rw [length_packet]; omega, by rw [length_packet]; omega⟩
  · rw [arrivingPackets, arriving, List.map_map]
    exact List.map_congr_left fun x _ => deliver_packet

/-! ## End to end -/

/-- **Blocks of audio arrive over TCP.** Wherever the pointers lead and whatever the socket answers,
no call follows a null pointer; while a pointer is null every call fails and sends nothing.  On a
channel, each call reports whether its whole packet was sent.  However the bytes are cut into
chunks, the blocks of the calls that succeed before a packet is torn are the first that the peer is
called with, in order, and the only ones if no packet is torn. -/
theorem voice_blocks_arrive (hndCrc8 : List UInt8 → UInt8) (path : VoicePath)
    (calls : List VoiceCall)
    (hcalls : ∀ call ∈ calls, call.data ≠ [] ∧ call.data.length < 4294967296) :
    ∃ path' log, voiceRun hndCrc8 path calls = some (path', log) ∧ log.map Prod.fst = calls ∧
      (path.Broken → ∀ x ∈ log, x.2 = .refused) ∧
      ∀ lan channel, path.Leads lan channel →
        Reported hndCrc8 channel.tsize channel.sequence log ∧
        ∀ (receiver : Channel) (chunks : List (List UInt8)), receiver.ccount = 0 →
          chunks.flatten = (log.map fun x => x.2.accepted).flatten →
          ∀ before after, log = before ++ after → (∀ x ∈ before, ¬x.2.Torn) →
            arriving channel.tsize channel.sequence before <+:
                deliveries (receive receiver chunks).2 ∧
              (after = [] → (receive receiver chunks).1.ccount = 0 ∧
                deliveries (receive receiver chunks).2 =
                  arriving channel.tsize channel.sequence before) := by
  obtain ⟨path', log, hrun, hlog, hrefused⟩ := exists_voiceRun hndCrc8 calls path hcalls
  refine ⟨path', log, hrun, hlog, hrefused, fun lan channel hleads => ?_⟩
  have hreported := reported_of_voiceRun hleads (fun call hcall => (hcalls call hcall).2) hrun
  refine ⟨hreported, fun receiver chunks hempty hchunks before after hsplit htorn => ?_⟩
  subst hsplit
  have hdata : ∀ x ∈ before, x.1.data ≠ [] := fun x hx =>
    (hcalls x.1 (hlog ▸ List.mem_map_of_mem (List.mem_append_left _ hx))).1
  obtain ⟨hpackets, hdeliver⟩ := arrivingPackets_spec hndCrc8 channel.tsize channel.sequence before
    hdata
  have hlengths := fun p hp => (hpackets p hp).2
  rw [List.map_append, List.flatten_append, wire_eq hreported.take htorn] at hchunks
  rw [← hdeliver]
  constructor
  · refine receive_packets_before chunks receiver [] _ (caches_nil.mpr hempty) (.inl (by decide)) ?_
      hlengths
    rw [List.nil_append, hchunks, Format.split_flatten_append fun p hp => (hpackets p hp).1]
    exact List.prefix_append _ _
  · rintro rfl
    refine receive_packets chunks receiver [] _ (caches_nil.mpr hempty) (.inl (by decide)) ?_
      hlengths
    rw [List.nil_append, hchunks]
    simp only [List.map_nil, List.flatten_nil, List.append_nil]
    exact Format.split_flatten fun p hp => (hpackets p hp).1

/-- **Blocks of audio arrive over UDP.** Wherever the pointers lead no call follows a null pointer,
and while one is null nothing is sent.  The datagrams sent on a channel are the packets of the calls
that succeed, and whichever of them reach the peer, lost, repeated or in any order, it is called
with just their blocks. -/
theorem voice_datagrams_arrive (hndCrc8 : List UInt8 → UInt8) (path : VoicePath)
    (calls : List VoiceCall)
    (hcalls : ∀ call ∈ calls, call.data ≠ [] ∧ call.data.length < 4294967296 ∧ call.Datagrams) :
    ∃ path' log, voiceRun hndCrc8 path calls = some (path', log) ∧ log.map Prod.fst = calls ∧
      (path.Broken → ∀ x ∈ log, x.2 = .refused) ∧
      ∀ lan channel, path.Leads lan channel →
        (log.map fun x => x.2.accepted).filter (· ≠ []) =
          arrivingPackets hndCrc8 channel.tsize channel.sequence log ∧
        ∀ (receiver : Channel) (received : List (UInt16 × VoiceCall)), receiver.ccount = 0 →
          (∀ x ∈ received, x ∈ successes channel.tsize channel.sequence log) →
          let datagrams := received.map fun x => x.2.packet hndCrc8 x.1
          (receive receiver datagrams).1.ccount = 0 ∧
            deliveries (receive receiver datagrams).2 = received.map fun x => x.2.event x.1 := by
  obtain ⟨path', log, hrun, hlog, hrefused⟩ := exists_voiceRun hndCrc8 calls path
    fun call hcall => ⟨(hcalls call hcall).1, (hcalls call hcall).2.1⟩
  refine ⟨path', log, hrun, hlog, hrefused, fun lan channel hleads => ?_⟩
  have hreported := reported_of_voiceRun hleads (fun call hcall => (hcalls call hcall).2.1) hrun
  have hmem : ∀ x ∈ log, x.1 ∈ calls := fun x hx => hlog ▸ List.mem_map_of_mem hx
  have htorn := hreported.not_torn log fun x hx => (hcalls x.1 (hmem x hx)).2.2
  refine ⟨accepted_eq log hreported htorn, fun receiver received hempty hreceived => ?_⟩
  obtain ⟨hpackets, -⟩ := arrivingPackets_spec hndCrc8 channel.tsize channel.sequence log
    fun x hx => (hcalls x.1 (hmem x hx)).1
  have hsome : ∀ p ∈ received.map fun x => x.2.packet hndCrc8 x.1,
      p ∈ arrivingPackets hndCrc8 channel.tsize channel.sequence log := by
    intro p hp
    obtain ⟨x, hx, rfl⟩ := List.mem_map.mp hp
    exact List.mem_map_of_mem (hreceived x hx)
  have hdeliver : (received.map fun x => x.2.packet hndCrc8 x.1).map deliver =
      received.map fun x => x.2.event x.1 := by
    rw [List.map_map]
    exact List.map_congr_left fun x _ => deliver_packet
  rw [← hdeliver]
  refine receive_packets _ receiver [] _ (caches_nil.mpr hempty) (.inl (by decide)) ?_
    fun p hp => (hpackets p (hsome p hp)).2
  rw [List.nil_append]
  exact Format.split_flatten fun p hp => (hpackets p (hsome p hp)).1

/-- An empty block gets past the test of the length, and follows the null pointer behind it. -/
example : yangipcVoiceSendCallback (fun _ => 0) ⟨true, some .tcp, fun _ => none⟩
    ⟨[], 0, true, fun _ => .again⟩ = none := rfl

/-! ## Runs -/

/-- The audio channel that a service begins with: of `YANGIPC_TCP_NETWORK_MAX_SIZE` or
`YANGIPC_UDP_NETWORK_MAX_SIZE`. -/
def lanAudChannel : LanService → Channel
  | .tcp => yangipcTransmissionMalloc 1460 1460 (fun _ => 0) fun _ => 0
  | .udp => yangipcTransmissionMalloc 1472 1472 (fun _ => 0) fun _ => 0

/-- A service has been started. -/
def lanVoicePath (lan : LanService) : VoicePath :=
  ⟨true, some lan, fun l => if l = lan then some ⟨some (lanAudChannel lan)⟩ else none⟩

theorem lanVoicePath_leads (lan : LanService) :
    (lanVoicePath lan).Leads lan (lanAudChannel lan) where
  deviceInfo := rfl
  audioTransferCb := rfl
  service := if_pos rfl
  room := by cases lan <;> decide

/-- The first block finds no connection, the next two are sent in pieces, and the packet of the
last one is torn. -/
def tornCalls : List VoiceCall :=
  [⟨[1], 7, false, fun _ => .again⟩, ⟨[2, 3], 7, true, fun _ => .accepts 5⟩,
    ⟨[4, 5, 6], 8, true, fun n => if n = 2000 then .again else .accepts 9⟩,
    ⟨[7], 9, true, fun n => if n = 2000 then .accepts 3 else .closed⟩]

/-- The two blocks in front of the torn packet arrive, with the second and the third number. -/
theorem voice_blocks_arrive_torn : ∃ chunks : List (List UInt8),
    chunks.flatten.length = 18 + 19 + 3 ∧
    [.recive 2 1 7 2 [2, 3] 2, .recive 3 1 8 3 [4, 5, 6] 3] <+:
      deliveries (receive (lanAudChannel .tcp) chunks).2 := by
  obtain ⟨path', log, hrun, -, -, hchannel⟩ :=
    voice_blocks_arrive (fun _ => 0) (lanVoicePath .tcp) tornCalls (by decide)
  obtain ⟨-, harrive⟩ := hchannel .tcp (lanAudChannel .tcp) (lanVoicePath_leads .tcp)
  have hlog : (voiceRun (fun _ => 0) (lanVoicePath .tcp) tornCalls).any (fun r =>
      (r.2.map fun x => x.2.accepted).flatten.length = 40 ∧
        (∀ x ∈ r.2.take 3, ¬x.2.Torn) ∧ arriving 1460 0 (r.2.take 3) =
          [.recive 2 1 7 2 [2, 3] 2, .recive 3 1 8 3 [4, 5, 6] 3]) = true := by decide +kernel
  rw [hrun, Option.any_some, decide_eq_true_eq] at hlog
  obtain ⟨hlength, htorn, harriving⟩ := hlog
  refine ⟨[(log.map fun x => x.2.accepted).flatten], by simpa using hlength, ?_⟩
  rw [← harriving]
  exact (harrive (lanAudChannel .tcp) _ rfl (by simp) _ (log.drop 3)
    (List.take_append_drop 3 log).symm htorn).1

/-- Blocks over UDP; the second one is not sent. -/
def datagramCalls : List VoiceCall :=
  [⟨[1], 7, true, fun _ => .accepts 65535⟩, ⟨[2, 3], 7, true, fun _ => .error⟩,
    ⟨[4, 5, 6], 8, true, fun n => if n = 2000 then .again else .accepts 65535⟩]

theorem datagrams_datagramCalls : ∀ call ∈ datagramCalls, call.Datagrams := by
  intro call hcall n count hanswer
  simp only [datagramCalls, List.mem_cons, List.not_mem_nil, or_false] at hcall
  rcases hcall with rfl | rfl | rfl
  · exact (SendAnswer.accepts.inj hanswer).le
  · exact SendAnswer.noConfusion hanswer
  · simp only at hanswer
    split at hanswer
    · exact SendAnswer.noConfusion hanswer
    · exact (SendAnswer.accepts.inj hanswer).le

/-- The third block arrives twice, and before the first. -/
theorem voice_datagrams_arrive_twice : ∃ datagrams : List (List UInt8), datagrams.length = 3 ∧
    deliveries (receive (lanAudChannel .udp) datagrams).2 =
      [.recive 3 1 8 3 [4, 5, 6] 3, .recive 3 1 8 3 [4, 5, 6] 3, .recive 1 1 7 1 [1] 1] := by
  have hdata : ∀ call ∈ datagramCalls, call.data ≠ [] ∧ call.data.length < 4294967296 := by decide
  obtain ⟨path', log, hrun, -, -, hchannel⟩ := voice_datagrams_arrive (fun _ => 0)
    (lanVoicePath .udp) datagramCalls fun call hcall =>
      ⟨(hdata call hcall).1, (hdata call hcall).2, datagrams_datagramCalls call hcall⟩
  obtain ⟨-, harrive⟩ := hchannel .udp (lanAudChannel .udp) (lanVoicePath_leads .udp)
  have hlog : (voiceRun (fun _ => 0) (lanVoicePath .udp) datagramCalls).any (fun r =>
      (successes 1472 0 r.2).map (fun x => x.2.event x.1) =
        [.recive 1 1 7 1 [1] 1, .recive 3 1 8 3 [4, 5, 6] 3]) = true := by decide +kernel
  rw [hrun, Option.any_some, decide_eq_true_eq] at hlog
  obtain ⟨first, third, hsuccesses⟩ :=
    List.length_eq_two.mp (by simpa using congrArg List.length hlog)
  rw [hsuccesses, List.map_cons, List.map_cons, List.cons.injEq, List.cons.injEq] at hlog
  obtain ⟨hfirst, hthird, -⟩ := hlog
  refine ⟨_, rfl, (harrive (lanAudChannel .udp) [third, third, first] rfl ?_).2.trans ?_⟩
  · show ∀ x ∈ [third, third, first], x ∈ successes 1472 0 log
    simp [hsuccesses]
  · rw [List.map_cons, List.map_cons, List.map_cons, hfirst, hthird, List.map_nil]

end Transmission

end YangIpc
