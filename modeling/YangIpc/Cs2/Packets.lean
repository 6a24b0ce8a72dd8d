import YangIpc.Cs2.Write
import YangIpc.Transmission.Packet

/-!
# Sending packets over a session

Images, audio and events are sent by three copies of one loop, which calls
`yangipc_cs2_p2p_write` until all bytes of a packet are accepted.  The copy for audio goes on only
while the session id is positive, although zero is a session like any other.

## Main definitions

* `sendLoop`: the loop
* `yangipcCs2ImgSendPacket`, `yangipcCs2AudSendPacket`, `yangipcCs2P2pEventSend`: the copies
* `P2pPacket`, `SendsWhole`: a packet of one of them, and what is promised of it
* `CutShort`: an audio packet of the session zero, when the buffer is found full

## Main results

* `sendLoop_whole`: a loop that goes on sends everything
* `sendsWhole_iff`: the calls that keep the promise
-/

namespace YangIpc

namespace Cs2

open Bytes
open Transmission (headSizeTotal)

/-! ## The senders -/

section Senders

variable (thd : ℕ)

/-- The loop, `index` bytes having been accepted: those accepted from there on, and the index it
ends with; `none` for an error.  Every call of `yangipc_cs2_p2p_write` has its own answers; the
whole is `none` if there are not enough of them. -/
def sendLoop (channel : P2pChannel) (again : Bool) (ptr : Memory) (size : ℕ) :
    List (List PpcsOutcome) → ℕ → Option (List UInt8 × Option ℕ)
  | [], _ => none
  | call :: rest, index =>
    match yangipcCs2P2pWrite thd channel (fun i => ptr (index + i)) (size - index) call with
    | none => none
    | some (piece, sendByte) =>
      if sendByte < 0 then some (piece, none)
      else
        let next := index + sendByte.toInt.toNat
        if next < size && again then
          (sendLoop channel again ptr size rest next).map fun r => (piece ++ r.1, r.2)
        else some (piece, some next)

/-- The value returned: the index, less the header, as an unsigned difference. -/
def sendResult (head : UInt32) : Option ℕ → Int32
  | none => -1
  | some index => (UInt32.ofNat index - head).toInt32

/-- What the copies for images and audio have in common.  The session id stays as it is, so the
test inside of the loop for images is the one before it. -/
def sendPacket (channel : P2pChannel) (status : Bool) (sid : Int32) (again : Bool)
    (data : ℤ → UInt8) (len : UInt32) (calls : List (List PpcsOutcome)) :
    Option (List UInt8 × Int32) :=
  let ptr : Memory := fun i => data (i - headSizeTotal)
  let size := (len + UInt32.ofNat headSizeTotal).toUInt16
  if status = false then some ([], -1)
  else if sid < 0 then some ([], -1)
  else
    (sendLoop thd channel again ptr size.toNat calls 0).map fun r =>
      (r.1, sendResult (UInt32.ofNat headSizeTotal) r.2)

/-- `yangipc_cs2_img_send_packet`, with `img_status` and `s_current_sessionid`. -/
def yangipcCs2ImgSendPacket (status : Bool) (sid : Int32) :
    (ℤ → UInt8) → UInt32 → List (List PpcsOutcome) → Option (List UInt8 × Int32) :=
  sendPacket thd .img status sid true

/-- `yangipc_cs2_aud_send_packet`. -/
def yangipcCs2AudSendPacket (status : Bool) (sid : Int32) :
    (ℤ → UInt8) → UInt32 → List (List PpcsOutcome) → Option (List UInt8 × Int32) :=
  sendPacket thd .aud status sid (decide (0 < sid))

/-- `yangipc_cs2_p2p_event_send`. -/
def yangipcCs2P2pEventSend (data : ℤ → UInt8) (length : UInt16) (calls : List (List PpcsOutcome)) :
    Option (List UInt8 × Int32) :=
  (sendLoop thd .cmd true (fun i => data i) length.toNat calls 0).map fun r =>
    (r.1, sendResult 0 r.2)

end Senders

/-- The three copies. -/
inductive P2pSender
  | img
  | aud
  | event
deriving DecidableEq, Repr

/-- The bytes in front of the data that are sent with them. -/
def P2pSender.headSize : P2pSender → ℕ
  | img => headSizeTotal
  | aud => headSizeTotal
  | event => 0

/-- A packet, the size of which fits 16 bits. -/
structure P2pPacket where
  sender : P2pSender
  len : UInt32
  data : ℤ → UInt8
  fits : len.toNat + sender.headSize < 65536

namespace P2pPacket

/-- The number of its bytes. -/
def size (p : P2pPacket) : ℕ := p.len.toNat + p.sender.headSize

/-- Its memory. -/
def ptr (p : P2pPacket) : Memory := fun i => p.data (i - p.sender.headSize)

/-- Its bytes. -/
def bytes (p : P2pPacket) : List UInt8 := load p.ptr 0 p.size

/-- It is sent, with the status of its channel and the session id. -/
def send (thd : ℕ) (status : Bool) (sid : Int32) (p : P2pPacket)
    (calls : List (List PpcsOutcome)) : Option (List UInt8 × Int32) :=
  match p.sender with
  | .img => yangipcCs2ImgSendPacket thd status sid p.data p.len calls
  | .aud => yangipcCs2AudSendPacket thd status sid p.data p.len calls
  | .event => yangipcCs2P2pEventSend thd p.data p.len.toUInt16 calls

end P2pPacket

/-- Unless the result is an error, all bytes have been accepted, and the result is the length. -/
def SendsWhole (thd : ℕ) (status : Bool) (sid : Int32) (p : P2pPacket)
    (calls : List (List PpcsOutcome)) : Prop :=
  ∀ bytes ret, p.send thd status sid calls = some (bytes, ret) → 0 ≤ ret →
    bytes = p.bytes ∧ ret.toInt = p.len.toNat

/-- Audio is sent to the session zero, and the buffer is found full after the header has been
accepted, but not the whole packet. -/
def CutShort (thd : ℕ) (status : Bool) (sid : Int32) (p : P2pPacket)
    (calls : List (List PpcsOutcome)) : Prop :=
  p.sender = .aud ∧ status = true ∧ sid = 0 ∧ ∃ first rest n, calls = first :: rest ∧
    headSizeTotal ≤ n ∧ n < p.size ∧ StopsAt (cs2AudMaxTxBufferThd thd) first n

/-! ## The loop -/

section Loop

variable {thd : ℕ} {channel : P2pChannel} {ptr buff : Memory} {size index last : ℕ}
  {outcomes : List PpcsOutcome} {calls : List (List PpcsOutcome)} {bytes : List UInt8}
  {ret : Int32}

/-- One call of `yangipc_cs2_p2p_write`. -/
theorem p2pWrite_spec (h : yangipcCs2P2pWrite thd channel buff size outcomes = some (bytes, ret)) :
    ret < 0 ∨ ∃ n, Written (channel.threshold thd) buff size outcomes 0 n bytes ret := by
  unfold yangipcCs2P2pWrite at h
  split at h
  case isTrue hzero =>
    obtain ⟨rfl, rfl⟩ := Prod.mk.inj (Option.some.inj h)
    exact .inr ⟨0, le_rfl, Nat.zero_le _, rfl, rfl, fun hlt => by omega⟩
  case isFalse hpos => exact writeLoop_spec (Nat.pos_of_ne_zero hpos) h

/-- **One iteration** that ends without an error: a piece is accepted, and the loop goes on or
ends. -/
theorem sendLoop_cons {again : Bool} {call : List PpcsOutcome} (hsize : size < 65536)
    (h : sendLoop thd channel again ptr size (call :: calls) index = some (bytes, some last)) :
    ∃ n ≤ size - index,
      (index + n < size → StopsAt (channel.threshold thd) call n) ∧
      ((index + n < size ∧ again = true ∧ ∃ bytes',
          sendLoop thd channel again ptr size calls (index + n) = some (bytes', some last) ∧
            bytes = load ptr index n ++ bytes') ∨
        ((index + n < size → again = false) ∧ bytes = load ptr index n ∧ last = index + n)) := by
  rw [sendLoop] at h
  split at h
  case h_1 => exact absurd h.symm (Option.some_ne_none _)
  case h_2 piece sendByte hwrite =>
    split at h
    case isTrue =>
      exact absurd (Prod.mk.inj (Option.some.inj h)).2.symm (Option.some_ne_none _)
    case isFalse hok =>
      obtain ⟨n, -, hn, hpiece, rfl, hstops⟩ := (p2pWrite_spec hwrite).resolve_left hok
      rw [Nat.sub_zero] at hpiece hstops
      have hload : load (fun i => ptr (index + i)) 0 n = load ptr index n := by simp [load]
      rw [hload] at hpiece
      rw [Int32.toInt_ofNat_of_lt (by omega), Int.toNat_natCast] at h
      refine ⟨n, hn, fun hlt => hstops (by omega), ?_⟩
      simp only [Bool.and_eq_true, decide_eq_true_eq] at h
      split at h
      case isTrue hagain =>
        obtain ⟨⟨bytes', last'⟩, hrest, heq⟩ := Option.map_eq_some_iff.mp h
        obtain ⟨rfl, rfl⟩ := Prod.mk.inj heq
        exact .inl ⟨hagain.1, hagain.2, bytes', hrest, by rw [hpiece]⟩
      case isFalse hend =>
        obtain ⟨rfl, hlast⟩ := Prod.mk.inj (Option.some.inj h)
        refine .inr ⟨fun hlt => ?_, hpiece, (Option.some.inj hlast).symm⟩
        exact eq_false_of_ne_true fun hagain => hend ⟨hlt, hagain⟩

/-- **A loop that goes on** ends with an error, or with everything accepted. -/
theorem sendLoop_whole (hsize : size < 65536) (hindex : index ≤ size)
    (h : sendLoop thd channel true ptr size calls index = some (bytes, some last)) :
    last = size ∧ bytes = load ptr index (size - index) := by
  induction calls generalizing index bytes with
  | nil => exact absurd h.symm (Option.some_ne_none _)
  | cons call rest ih =>
    obtain ⟨n, hn, -, ⟨hlt, -, bytes', hrest, rfl⟩ | ⟨hend, rfl, rfl⟩⟩ := sendLoop_cons hsize h
    · obtain ⟨rfl, rfl⟩ := ih hlt.le hrest
      have hsum : last - index = n + (last - (index + n)) := by omega
      rw [hsum, load_add]
      exact ⟨rfl, rfl⟩
    · have hall : index + n = size := by
        by_contra hne
        exact Bool.false_ne_true (hend (by omega)).symm
      rw [← hall, Nat.add_sub_cancel_left]
      exact ⟨rfl, rfl⟩

/-- The value that is returned for an index, less the header. -/
theorem toInt_sendResult {head : ℕ} (hindex : index < 65536) (hhead : head < 65536) :
    (sendResult (UInt32.ofNat head) (some index)).toInt = index - head := by
  have hdiff : (UInt32.ofNat index - UInt32.ofNat head).toNat =
      (4294967296 - head + index) % 4294967296 := by
    rw [UInt32.toNat_sub, UInt32.toNat_ofNat', UInt32.toNat_ofNat']
    omega
  rw [sendResult, toInt_eq, UInt32.toUInt32_toInt32, hdiff]
  omega

theorem nonneg_sendResult_iff {head : ℕ} (hindex : index < 65536) (hhead : head < 65536) :
    0 ≤ sendResult (UInt32.ofNat head) (some index) ↔ head ≤ index := by
  rw [Int32.le_iff_toInt_le, toInt_sendResult hindex hhead, Int32.toInt_zero]
  omega

end Loop

/-! ## The packets -/

section Packets

variable {thd : ℕ} {status again : Bool} {sid : Int32} {p : P2pPacket} {channel : P2pChannel}
  {calls : List (List PpcsOutcome)} {bytes : List UInt8} {ret : Int32}

/-- The loop for a packet. -/
def P2pPacket.loop (thd : ℕ) (channel : P2pChannel) (again : Bool) (p : P2pPacket)
    (calls : List (List PpcsOutcome)) : Option (List UInt8 × Int32) :=
  (sendLoop thd channel again p.ptr p.size calls 0).map fun r =>
    (r.1, sendResult (UInt32.ofNat p.sender.headSize) r.2)

/-- The loop of a packet with a header is reached if the channel is ready and the session valid. -/
theorem sendPacket_eq (hhead : p.sender.headSize = headSizeTotal) :
    sendPacket thd channel status sid again p.data p.len calls =
      if status = true ∧ 0 ≤ sid then p.loop thd channel again calls else some ([], -1) := by
  have hfits := p.fits
  have hsize : (p.len + UInt32.ofNat headSizeTotal).toUInt16.toNat = p.size := by
    rw [hhead] at hfits
    rw [P2pPacket.size, hhead, UInt32.toNat_toUInt16, UInt32.toNat_add, UInt32.toNat_ofNat']
    omega
  have hptr : (fun i : ℕ => p.data (i - headSizeTotal)) = p.ptr := by
    unfold P2pPacket.ptr
    rw [hhead]
  unfold sendPacket P2pPacket.loop
  simp only [hsize, hptr, hhead]
  cases status with
  | false => rfl
  | true =>
    by_cases hsid : sid < 0
    · rw [if_neg (by simp), if_pos hsid, if_neg fun h => Int32.not_lt.mpr h.2 hsid]
    · rw [if_neg (by simp), if_neg hsid, if_pos ⟨rfl, Int32.not_lt.mp hsid⟩]

theorem eventSend_eq (hsender : p.sender = .event) :
    yangipcCs2P2pEventSend thd p.data p.len.toUInt16 calls = p.loop thd .cmd true calls := by
  have hfits := p.fits
  have hhead : p.sender.headSize = 0 := by rw [hsender]; rfl
  have hsize : p.len.toUInt16.toNat = p.size := by
    rw [P2pPacket.size, hhead, UInt32.toNat_toUInt16]
    omega
  have hptr : (fun i : ℕ => p.data i) = p.ptr := by
    unfold P2pPacket.ptr
    rw [hhead]
    exact funext fun i => congrArg p.data (Int.sub_zero _).symm
  rw [yangipcCs2P2pEventSend, P2pPacket.loop, hsize, hptr, hhead]
  rfl

theorem not_nonneg_minus_one : ¬(0 : Int32) ≤ -1 := by decide

/-- A loop that goes on keeps the promise. -/
theorem whole_of_loop_true (h : p.loop thd channel true calls = some (bytes, ret))
    (hret : 0 ≤ ret) : bytes = p.bytes ∧ ret.toInt = p.len.toNat := by
  obtain ⟨⟨bytes', last⟩, hloop, heq⟩ := Option.map_eq_some_iff.mp h
  obtain ⟨rfl, rfl⟩ := Prod.mk.inj heq
  cases last with
  | none => exact absurd hret not_nonneg_minus_one
  | some last =>
    have hfits := p.fits
    obtain ⟨rfl, rfl⟩ := sendLoop_whole p.fits (Nat.zero_le _) hloop
    refine ⟨rfl, (toInt_sendResult p.fits (by omega)).trans ?_⟩
    omega

theorem sendsWhole_img (hsender : p.sender = .img) : SendsWhole thd status sid p calls := by
  intro bytes ret hsend hret
  have hhead : p.sender.headSize = headSizeTotal := by rw [hsender]; rfl
  rw [P2pPacket.send, hsender] at hsend
  simp only [yangipcCs2ImgSendPacket] at hsend
  rw [sendPacket_eq hhead] at hsend
  split at hsend
  case isTrue => exact whole_of_loop_true hsend hret
  case isFalse =>
    obtain ⟨-, rfl⟩ := Prod.mk.inj (Option.some.inj hsend)
    exact absurd hret not_nonneg_minus_one

theorem sendsWhole_event (hsender : p.sender = .event) : SendsWhole thd status sid p calls := by
  intro bytes ret hsend hret
  rw [P2pPacket.send, hsender] at hsend
  simp only at hsend
  rw [eventSend_eq hsender] at hsend
  exact whole_of_loop_true hsend hret

/-- A full buffer ends a loop that does not go on. -/
theorem sendLoop_of_stopsAt {ptr : Memory} {size n : ℕ} {first : List PpcsOutcome}
    (hsize : size < 65536) (hn : n < size) (h : StopsAt (channel.threshold thd) first n) :
    sendLoop thd channel false ptr size (first :: calls) 0 = some (load ptr 0 n, some n) := by
  have hwrite : yangipcCs2P2pWrite thd channel (fun i => ptr (0 + i)) (size - 0) first =
      some (load ptr 0 n, Int32.ofNat n) := by
    have hptr : (fun i => ptr (0 + i)) = ptr := funext fun i => congrArg ptr (Nat.zero_add i)
    rw [hptr, Nat.sub_zero, yangipcCs2P2pWrite, if_neg (by omega),
      writeLoop_of_stopsAt h (by omega), Nat.zero_add]
  have hvalue : (Int32.ofNat n).toInt = n := Int32.toInt_ofNat_of_lt (by omega)
  have hok : ¬Int32.ofNat n < 0 := by
    rw [Int32.lt_iff_toInt_lt, hvalue, Int32.toInt_zero]
    omega
  rw [sendLoop, hwrite]
  simp only
  rw [if_neg hok, hvalue, Int.toNat_natCast, Nat.zero_add, Bool.and_false,
    if_neg Bool.false_ne_true]

/-- A loop that does not go on keeps the promise unless the buffer is found full behind the
header. -/
theorem whole_of_loop_false (h : p.loop thd channel false calls = some (bytes, ret))
    (hret : 0 ≤ ret) (hcut : ¬∃ first rest n, calls = first :: rest ∧ p.sender.headSize ≤ n ∧
      n < p.size ∧ StopsAt (channel.threshold thd) first n) :
    bytes = p.bytes ∧ ret.toInt = p.len.toNat := by
  obtain ⟨⟨bytes', last⟩, hloop, heq⟩ := Option.map_eq_some_iff.mp h
  obtain ⟨rfl, rfl⟩ := Prod.mk.inj heq
  cases last with
  | none => exact absurd hret not_nonneg_minus_one
  | some last =>
    cases calls with
    | nil => exact absurd hloop.symm (Option.some_ne_none _)
    | cons first rest =>
      have hfits := p.fits
      obtain ⟨n, hn, hstops, ⟨-, hagain, -⟩ | ⟨-, rfl, rfl⟩⟩ := sendLoop_cons p.fits hloop
      · exact absurd hagain Bool.false_ne_true
      rw [Nat.sub_zero] at hn
      have hlast : n < 65536 := Nat.lt_of_le_of_lt hn p.fits
      simp only [Nat.zero_add] at hret hstops ⊢
      have hhead := (nonneg_sendResult_iff hlast (by omega)).mp hret
      have hall : n = p.size := by
        by_contra hne
        have hlt : n < p.size := Nat.lt_of_le_of_ne hn hne
        exact hcut ⟨first, rest, n, rfl, hhead, hlt, hstops hlt⟩
      refine ⟨by rw [hall]; rfl, (toInt_sendResult hlast (by omega)).trans ?_⟩
      rw [hall, P2pPacket.size]
      omega

theorem audSend_eq (hsender : p.sender = .aud) :
    p.send thd status sid calls =
      if status = true ∧ 0 ≤ sid then p.loop thd .aud (decide (0 < sid)) calls
      else some ([], -1) := by
  have hhead : p.sender.headSize = headSizeTotal := by rw [hsender]; rfl
  rw [P2pPacket.send, hsender]
  exact sendPacket_eq hhead

theorem sendsWhole_aud_iff (hsender : p.sender = .aud) :
    SendsWhole thd status sid p calls ↔ ¬CutShort thd status sid p calls := by
  have hhead : p.sender.headSize = headSizeTotal := by rw [hsender]; rfl
  constructor
  · rintro hwhole ⟨-, hstatus, rfl, first, rest, n, rfl, hn, hlt, hstops⟩
    have hfits := p.fits
    have hlast : n < 65536 := hlt.trans p.fits
    have hsend : p.send thd status 0 (first :: rest) =
        some (load p.ptr 0 n, sendResult (UInt32.ofNat p.sender.headSize) (some n)) := by
      have hloop : sendLoop thd .aud false p.ptr p.size (first :: rest) 0 =
          some (load p.ptr 0 n, some n) := sendLoop_of_stopsAt p.fits hlt hstops
      have hzero : decide ((0 : Int32) < 0) = false := rfl
      rw [audSend_eq hsender, if_pos ⟨hstatus, Int32.le_refl 0⟩, hzero, P2pPacket.loop, hloop,
        Option.map_some]
    have hret := (nonneg_sendResult_iff hlast (by omega)).mpr (hhead.symm ▸ hn)
    have hlength := (hwhole _ _ hsend hret).2
    rw [toInt_sendResult hlast (by omega)] at hlength
    rw [P2pPacket.size] at hlt
    omega
  · intro hcut bytes ret hsend hret
    rw [audSend_eq hsender] at hsend
    split at hsend
    case isFalse =>
      obtain ⟨-, rfl⟩ := Prod.mk.inj (Option.some.inj hsend)
      exact absurd hret not_nonneg_minus_one
    case isTrue h =>
      obtain ⟨hstatus, hsid⟩ := h
      by_cases hpos : 0 < sid
      · rw [decide_eq_true hpos] at hsend
        exact whole_of_loop_true hsend hret
      · rw [decide_eq_false hpos] at hsend
        refine whole_of_loop_false hsend hret ?_
        rintro ⟨first, rest, n, hcalls, hn, hlt, hstops⟩
        have hzero : sid = 0 := Int32.le_antisymm (Int32.not_lt.mp hpos) hsid
        exact hcut ⟨hsender, hstatus, hzero, first, rest, n, hcalls, hhead ▸ hn, hlt, hstops⟩

/-- **A packet is sent as a whole** unless it is audio for the session zero and is cut short. -/
theorem sendsWhole_iff (thd : ℕ) (status : Bool) (sid : Int32) (p : P2pPacket)
    (calls : List (List PpcsOutcome)) :
    SendsWhole thd status sid p calls ↔ ¬CutShort thd status sid p calls := by
  cases hsender : p.sender with
  | img => exact iff_of_true (sendsWhole_img hsender) fun h => by simp [h.1] at hsender
  | aud => exact sendsWhole_aud_iff hsender
  | event => exact iff_of_true (sendsWhole_event hsender) fun h => by simp [h.1] at hsender

/-- An audio packet of four bytes, behind its header. -/
def audioPacket : P2pPacket := ⟨.aud, 4, fun _ => 0, by decide⟩

/-- Eighteen bytes are accepted, and then the buffer is full. -/
def fullAfterEighteen : List PpcsOutcome := [⟨0, 0, .accepts 18⟩, ⟨0, 1048576, .accepts 0⟩]

/-- **A packet is cut short** in the session zero. -/
theorem not_sendsWhole_session_zero :
    ¬∀ (thd : ℕ) (status : Bool) (sid : Int32), 0 ≤ sid →
      ∀ (p : P2pPacket) (calls : List (List PpcsOutcome)),
        SendsWhole thd status sid p calls := by
  intro h
  have hstops : StopsAt (cs2AudMaxTxBufferThd 262144) fullAfterEighteen 18 :=
    .inr ⟨18, 0, rfl, ⟨by decide, by decide, rfl⟩, .inl ⟨rfl, by decide, by decide⟩⟩
  refine (sendsWhole_aud_iff rfl).mp
    (h 262144 true 0 (by decide) audioPacket [fullAfterEighteen]) ?_
  exact ⟨rfl, rfl, rfl, _, _, 18, rfl, by decide, by decide, hstops⟩

end Packets

end Cs2

end YangIpc
