import YangIpc.Core.Beacon
import YangIpc.Core.Services
import YangIpc.Library.Run

/-!
# Starting services

The message loop records a service before it is initialised, ignores what the initialiser returns,
and refuses every later request.  A start that fails is never taken back: the service stays
recorded, and the pointers are what the initialiser left behind.

## Main definitions

* `CoreWorld`, `CoreWorld.next`: the loop and the services, over messages with their answers
* `Services.Initialised`: a service has its channels and its threads
* `CoreWorld.InStep`, `CoreWorld.Supplied`: what is promised of a message, and when it keeps it
* `CoreWorld.Clean`: the invariant

## Main results

* `cmdServerInit_cases`, `udpServiceInit_cases`, `tcpServiceInit_cases`, `cs2ServiceInit_cases`: one
  initialiser
* `inStep_iff`, `Clean.next`: one message
* `starts_inStep_iff`: every run
-/

namespace YangIpc

namespace Core

open Transition

/-! ## The loop and the services -/

/-- The state of the loop, and the services until an initialiser is undefined. -/
structure CoreWorld (Timer : Type) where
  core : CoreState Timer
  services : Option Services

/-- The service a message asks for. -/
def CoreInput.requested (input : CoreInput) : YangipcService :=
  match input.msg.event with
  | .lanUdpServiceStartRequest => .lanUdp
  | .lanTcpServiceStartRequest => .lanTcp
  | .p2pCs2ServiceStartRequest => .p2pCs2
  | _ => .none

namespace CoreWorld

variable {Timer : Type} (api : TimerApi Timer) (cs2 : Bool)

/-- The world after a message. -/
def next (w : CoreWorld Timer) (step : CoreInput × InitAnswers) : CoreWorld Timer :=
  match w.services with
  | none => w
  | some services =>
    let r := yangipcMessageHandle api cs2 w.core step.1
    ⟨r.1, r.2.foldlM (perform step.2) services⟩

/-- Before the first message. -/
def start : CoreWorld Timer := ⟨.start, some .none⟩

end CoreWorld

/-- A pointer leads to an object with a property. -/
def Pointer.LeadsTo {α : Type} (p : Pointer α) (ready : α → Prop) : Prop :=
  ∃ a, p = .object a ∧ ready a

/-- The command server has its channel and its thread. -/
def Services.CmdServer (s : Services) : Prop := s.cmdInfo.LeadsTo fun c => c.thread = true

/-- The TCP service has its channels and its threads. -/
def DbTcpService.Ready (t : DbTcpService) : Prop :=
  t.imgChannel.isSome = true ∧ t.audChannel.isSome = true ∧ t.imgThd = true ∧ t.audThd = true

/-- The CS2 service has its channels and its thread. -/
def YangipcCs2Info.Ready (c : YangipcCs2Info) : Prop :=
  c.imgChannel.isSome = true ∧ c.audChannel.isSome = true ∧ c.thd = true

/-- A service has been initialised: its channels and its threads are there, and those of the
command server where it belongs to the service. -/
def Services.Initialised (s : Services) : YangipcService → Prop
  | .none => False
  | .lanUdp => s.CmdServer ∧ s.udpService.LeadsTo fun u => u.thd = true
  | .lanTcp => s.CmdServer ∧ s.tcpService.LeadsTo DbTcpService.Ready
  | .p2pCs2 => s.cs2Info.LeadsTo YangipcCs2Info.Ready

/-- No pointer leads to freed memory. -/
def Services.Valid (s : Services) : Prop :=
  s.cmdInfo ≠ .freed ∧ s.udpService ≠ .freed ∧ s.tcpService ≠ .freed ∧ s.cs2Info ≠ .freed

/-- The recorded service is initialised, no other is, and no pointer dangles. -/
structure Services.Sound (s : Services) (service : YangipcService) : Prop where
  named : service ≠ .none → s.Initialised service
  single : ∀ a b, s.Initialised a → s.Initialised b → a = b
  valid : s.Valid

/-- The invariant: the recorded service is initialised, and the pointers of the others are
`NULL`. -/
structure Services.Only (s : Services) (service : YangipcService) : Prop where
  fresh : service = .none → s = .none
  named : service ≠ .none → s.Initialised service
  udp : service ≠ .lanUdp → s.udpService = .null
  tcp : service ≠ .lanTcp → s.tcpService = .null
  cs2 : service ≠ .p2pCs2 → s.cs2Info = .null
  valid : s.Valid

namespace InitAnswers

variable (answers : InitAnswers)

/-- There is memory for a channel. -/
def Channel (name : ChannelName) : Prop :=
  answers.malloc (.channel name) = true ∧ answers.malloc (.cbuf name) = true ∧
    answers.malloc (.tbuf name) = true

/-- The command server is given all it asks for. -/
def CmdServer : Prop :=
  answers.malloc .cmdInfo = true ∧ answers.Channel .cmd ∧ answers.createThread .cmdServer = true

/-- So is the UDP service, -/
def UdpService : Prop :=
  answers.malloc .udpService = true ∧ answers.Channel .udpImg ∧ answers.Channel .udpAud ∧
    answers.createThread .udpService = true

/-- the TCP service, -/
def TcpService : Prop :=
  answers.malloc .tcpService = true ∧ answers.Channel .tcpImg ∧ answers.Channel .tcpAud ∧
    answers.createThread .tcpImage = true ∧ answers.createThread .tcpAudio = true

/-- and the CS2 service. -/
def Cs2Service : Prop :=
  answers.key = true ∧ answers.malloc .cs2Info = true ∧ answers.Channel .cs2 ∧
    answers.Channel .cs2Img ∧ answers.Channel .cs2Aud ∧ answers.createThread .cs2Service = true

/-- No allocation and no thread creation of a start fails. -/
def Complete : YangipcService → Prop
  | .none => True
  | .lanUdp => answers.CmdServer ∧ answers.UdpService
  | .lanTcp => answers.CmdServer ∧ answers.TcpService
  | .p2pCs2 => answers.Cs2Service

end InitAnswers

namespace CoreWorld

variable {Timer : Type} (api : TimerApi Timer) (cs2 : Bool)

/-- What is promised of a message: the services are sound afterwards, and a start succeeds or
changes nothing. -/
def InStep (w : CoreWorld Timer) (step : CoreInput × InitAnswers) : Prop :=
  ∃ s, (w.next api cs2 step).services = some s ∧ s.Sound (w.next api cs2 step).core.service ∧
    (step.1.requested ≠ .none →
      (w.next api cs2 step).core.service = step.1.requested ∧ s.Initialised step.1.requested ∨
        w.next api cs2 step = w)

/-- No allocation and no thread creation fails in a start that is not refused. -/
def Supplied (w : CoreWorld Timer) (step : CoreInput × InitAnswers) : Prop :=
  w.core.service = .none → (step.1.requested = .p2pCs2 → cs2 = true) →
    step.2.Complete step.1.requested

/-- The invariant, in a world whose initialisers were defined. -/
def Clean (w : CoreWorld Timer) : Prop := ∃ s, w.services = some s ∧ s.Only w.core.service

end CoreWorld

/-! ## Pointers -/

namespace Pointer

variable {α : Type} {p : Pointer α} {ready : α → Prop}

@[simp] theorem leadsTo_object {a : α} : (object a).LeadsTo ready ↔ ready a :=
  ⟨fun ⟨_, h, hready⟩ => object.inj h ▸ hready, fun h => ⟨a, rfl, h⟩⟩

@[simp] theorem not_leadsTo_null : ¬(null : Pointer α).LeadsTo ready := fun ⟨_, h, _⟩ => nomatch h

@[simp] theorem not_leadsTo_freed : ¬(freed : Pointer α).LeadsTo ready :=
  fun ⟨_, h, _⟩ => nomatch h

theorem LeadsTo.valid (h : p.LeadsTo ready) : p ≠ .freed := by
  rintro rfl
  exact not_leadsTo_freed h

end Pointer

/-! ## One initialiser -/

section Initialisers

variable {s : Services}

/-- A channel is there if and only if there is memory for it; without memory for its head the
function is undefined. -/
theorem transmissionMalloc_cases (answers : InitAnswers) (name : ChannelName)
    (maxRxSize maxTxSize : UInt16) :
    (¬answers.Channel name ∧
      yangipcTransmissionMalloc answers name maxRxSize maxTxSize = none) ∨
    ∃ r, yangipcTransmissionMalloc answers name maxRxSize maxTxSize = some r ∧
      (r.isSome = true ↔ answers.Channel name) := by
  unfold yangipcTransmissionMalloc InitAnswers.Channel
  split
  · split
    · split
      · exact .inr ⟨_, rfl, iff_of_true rfl ⟨‹_›, ‹_›, ‹_›⟩⟩
      · exact .inr ⟨_, rfl, iff_of_false nofun fun h => absurd h.2.2 ‹_›⟩
    · exact .inr ⟨_, rfl, iff_of_false nofun fun h => absurd h.2.1 ‹_›⟩
  · exact .inl ⟨fun h => absurd h.1 ‹_›, rfl⟩

/-- The command server is there if and only if nothing it asks for is refused. -/
theorem cmdServerInit_cases (answers : InitAnswers) (s : Services) :
    (¬answers.CmdServer ∧ yangipcCmdServerInit answers s = none) ∨
      ∃ p, yangipcCmdServerInit answers s = some { s with cmdInfo := p } ∧
        (p.LeadsTo (fun c => c.thread = true) ↔ answers.CmdServer) := by
  unfold yangipcCmdServerInit InitAnswers.CmdServer
  split
  · rename_i hmalloc
    rcases transmissionMalloc_cases answers .cmd yangipcCmdBuffer yangipcCmdBuffer with
      ⟨hnot, hc⟩ | ⟨_ | c, hc, hchannel⟩ <;> rw [hc]
    · exact .inl ⟨fun h => hnot h.2.1, rfl⟩
    · exact .inl ⟨fun h => absurd (hchannel.mpr h.2.1) nofun, rfl⟩
    · exact .inr ⟨_, rfl, by simp [hmalloc, ← hchannel]⟩
  · rename_i hmalloc
    exact .inr ⟨_, rfl, by simp [hmalloc]⟩

/-- The UDP service is there if and only if nothing it asks for is refused. -/
theorem udpServiceInit_cases (answers : InitAnswers) (hnull : s.udpService = .null) :
    (¬answers.UdpService ∧ yangipcUdpServiceInit answers s = none) ∨
      ∃ p ok, yangipcUdpServiceInit answers s = some ({ s with udpService := p }, ok) ∧
        (p.LeadsTo (fun u => u.thd = true) ↔ answers.UdpService) := by
  unfold yangipcUdpServiceInit InitAnswers.UdpService
  rw [hnull]
  dsimp only
  split
  · rename_i hmalloc
    rcases transmissionMalloc_cases answers .udpImg 0 yangipcUdpNetworkMaxSize with
      ⟨hnot, hi⟩ | ⟨_ | img, hi, himg⟩ <;> rw [hi]
    · exact .inl ⟨fun h => hnot h.2.1, rfl⟩
    · exact .inr ⟨_, _, rfl, by simp [← himg]⟩
    · rcases transmissionMalloc_cases answers .udpAud yangipcUdpNetworkMaxSize
        yangipcUdpNetworkMaxSize with ⟨hnot, ha⟩ | ⟨_ | aud, ha, haud⟩ <;> rw [ha]
      · exact .inl ⟨fun h => hnot h.2.2.1, rfl⟩
      · exact .inr ⟨_, _, rfl, by simp [← haud]⟩
      · exact .inr ⟨_, _, rfl, by simp [hmalloc, ← himg, ← haud]⟩
  · rename_i hmalloc
    exact .inl ⟨fun h => hmalloc h.1, rfl⟩

/-- The TCP service is there if and only if nothing it asks for is refused. -/
theorem tcpServiceInit_cases (answers : InitAnswers) (s : Services) :
    (¬answers.TcpService ∧ yangipcTcpServiceInit answers s = none) ∨
      ∃ p, yangipcTcpServiceInit answers s = some { s with tcpService := p } ∧
        (p.LeadsTo DbTcpService.Ready ↔ answers.TcpService) := by
  unfold yangipcTcpServiceInit InitAnswers.TcpService
  split
  · rename_i hmalloc
    rcases transmissionMalloc_cases answers .tcpImg 0 yangipcTcpNetworkMaxSize with
      ⟨hnot, hi⟩ | ⟨img, hi, himg⟩ <;> rw [hi]
    · exact .inl ⟨fun h => hnot h.2.1, rfl⟩
    rcases transmissionMalloc_cases answers .tcpAud yangipcTcpNetworkMaxSize
      yangipcTcpNetworkMaxSize with ⟨hnot, ha⟩ | ⟨aud, ha, haud⟩ <;> rw [ha]
    · exact .inl ⟨fun h => hnot h.2.2.1, rfl⟩
    · exact .inr ⟨_, rfl, by simp [DbTcpService.Ready, hmalloc, ← himg, ← haud]⟩
  · rename_i hmalloc
    exact .inr ⟨_, rfl, by simp [hmalloc]⟩

/-- The CS2 service is there if and only if nothing it asks for is refused. -/
theorem cs2ServiceInit_cases (answers : InitAnswers) (hnull : s.cs2Info = .null) :
    (¬answers.Cs2Service ∧ yangipcCs2ServiceInit answers s = none) ∨
      ∃ p ok, yangipcCs2ServiceInit answers s = some ({ s with cs2Info := p }, ok) ∧
        (p.LeadsTo YangipcCs2Info.Ready ↔ answers.Cs2Service) := by
  have hsame : some (s, false) = some ({ s with cs2Info := .null }, false) := by rw [← hnull]
  unfold yangipcCs2ServiceInit InitAnswers.Cs2Service
  split
  · rename_i hkey
    rw [hnull]
    dsimp only
    split
    · rename_i hmalloc
      unfold cs2Fill
      rcases transmissionMalloc_cases answers .cs2 yangipcNetworkMaxSize
        yangipcNetworkMaxSize with ⟨hnot, hc⟩ | ⟨_ | c, hc, hchannel⟩ <;> rw [hc]
      · exact .inl ⟨fun h => hnot h.2.2.1, rfl⟩
      · exact .inl ⟨fun h => absurd (hchannel.mpr h.2.2.1) nofun, rfl⟩
      rcases transmissionMalloc_cases answers .cs2Img 0 yangipcTcpNetworkMaxSize with
        ⟨hnot, hi⟩ | ⟨_ | img, hi, himg⟩ <;> simp only [Option.bind_eq_bind, Option.bind_some, hi]
      · exact .inl ⟨fun h => hnot h.2.2.2.1, rfl⟩
      · exact .inr ⟨_, _, rfl, by simp [YangipcCs2Info.Ready, ← himg]⟩
      rcases transmissionMalloc_cases answers .cs2Aud 1600 yangipcTcpNetworkMaxSize with
        ⟨hnot, ha⟩ | ⟨_ | aud, ha, haud⟩ <;> rw [ha]
      · exact .inl ⟨fun h => hnot h.2.2.2.2.1, rfl⟩
      · exact .inr ⟨_, _, rfl, by simp [YangipcCs2Info.Ready, ← haud]⟩
      · refine .inr ⟨_, _, rfl, ?_⟩
        simp [YangipcCs2Info.Ready, hkey, hmalloc, ← hchannel, ← himg, ← haud]
    · rename_i hmalloc
      exact .inr ⟨_, _, hsame, by simp [hmalloc]⟩
  · rename_i hkey
    exact .inr ⟨_, _, hsame, by simp [hkey]⟩

end Initialisers

/-! ## One start -/

section Starts

variable {s : Services} {service a : YangipcService}

/-- No more than the recorded service is initialised. -/
theorem Services.Only.eq_of_initialised (h : s.Only service) (ha : s.Initialised a) :
    a = service := by
  by_contra hne
  cases a with
  | none => exact ha
  | lanUdp => exact Pointer.not_leadsTo_null (h.udp (Ne.symm hne) ▸ ha.2)
  | lanTcp => exact Pointer.not_leadsTo_null (h.tcp (Ne.symm hne) ▸ ha.2)
  | p2pCs2 =>
    have hleads : s.cs2Info.LeadsTo YangipcCs2Info.Ready := ha
    exact Pointer.not_leadsTo_null (h.cs2 (Ne.symm hne) ▸ hleads)

theorem Services.Only.sound (h : s.Only service) : s.Sound service where
  named := h.named
  single _ _ ha hb := (h.eq_of_initialised ha).trans (h.eq_of_initialised hb).symm
  valid := h.valid

theorem only_none : Services.none.Only .none where
  fresh _ := rfl
  named h := absurd rfl h
  udp _ := rfl
  tcp _ := rfl
  cs2 _ := rfl
  valid := ⟨nofun, nofun, nofun, nofun⟩

/-- The initialisers of a service were given all they asked for and have initialised it, or they
have not. -/
def Started (answers : InitAnswers) (service : YangipcService) (r : Option Services) : Prop :=
  answers.Complete service ∧ (∃ t, r = some t ∧ t.Only service) ∨
    ¬answers.Complete service ∧ ∀ t, r = some t → ¬t.Initialised service

theorem started_udp (answers : InitAnswers) :
    Started answers .lanUdp
      ([CoreAction.cmdServerInit, .udpServiceInit].foldlM (perform answers) Services.none) := by
  rcases cmdServerInit_cases answers .none with ⟨hcmd, hc⟩ | ⟨c, hc, hcmd⟩
  · refine .inr ⟨fun h => hcmd h.1, fun t ht => ?_⟩
    simp [perform, hc] at ht
  rcases udpServiceInit_cases (s := { Services.none with cmdInfo := c }) answers rfl with
    ⟨hudp, hu⟩ | ⟨u, ok, hu, hudp⟩
  · refine .inr ⟨fun h => hudp h.2, fun t ht => ?_⟩
    simp [perform, hc, hu] at ht
  have hr : [CoreAction.cmdServerInit, .udpServiceInit].foldlM (perform answers) Services.none =
      some { Services.none with cmdInfo := c, udpService := u } := by simp [perform, hc, hu]
  by_cases hcomplete : answers.Complete .lanUdp
  · have hc' := hcmd.mpr hcomplete.1
    have hu' := hudp.mpr hcomplete.2
    refine .inl ⟨hcomplete, _, hr, nofun, fun _ => ⟨hc', hu'⟩, fun h => absurd rfl h, fun _ => rfl,
      fun _ => rfl, hc'.valid, hu'.valid, nofun, nofun⟩
  · refine .inr ⟨hcomplete, fun t ht hinit => hcomplete ?_⟩
    obtain rfl := Option.some.inj (hr.symm.trans ht)
    exact ⟨hcmd.mp hinit.1, hudp.mp hinit.2⟩

theorem started_tcp (answers : InitAnswers) :
    Started answers .lanTcp
      ([CoreAction.cmdServerInit, .tcpServiceInit].foldlM (perform answers) Services.none) := by
  rcases cmdServerInit_cases answers .none with ⟨hcmd, hc⟩ | ⟨c, hc, hcmd⟩
  · refine .inr ⟨fun h => hcmd h.1, fun t ht => ?_⟩
    simp [perform, hc] at ht
  rcases tcpServiceInit_cases answers { Services.none with cmdInfo := c } with
    ⟨htcp, ht⟩ | ⟨p, ht, htcp⟩
  · refine .inr ⟨fun h => htcp h.2, fun t h => ?_⟩
    simp [perform, hc, ht] at h
  have hr : [CoreAction.cmdServerInit, .tcpServiceInit].foldlM (perform answers) Services.none =
      some { Services.none with cmdInfo := c, tcpService := p } := by simp [perform, hc, ht]
  by_cases hcomplete : answers.Complete .lanTcp
  · have hc' := hcmd.mpr hcomplete.1
    have hp' := htcp.mpr hcomplete.2
    refine .inl ⟨hcomplete, _, hr, nofun, fun _ => ⟨hc', hp'⟩, fun _ => rfl, fun h => absurd rfl h,
      fun _ => rfl, hc'.valid, nofun, hp'.valid, nofun⟩
  · refine .inr ⟨hcomplete, fun t ht hinit => hcomplete ?_⟩
    obtain rfl := Option.some.inj (hr.symm.trans ht)
    exact ⟨hcmd.mp hinit.1, htcp.mp hinit.2⟩

theorem started_cs2 (answers : InitAnswers) (key : UInt32) :
    Started answers .p2pCs2
      ([CoreAction.cs2ServiceInit key].foldlM (perform answers) Services.none) := by
  rcases cs2ServiceInit_cases (s := .none) answers rfl with ⟨hcs2, h⟩ | ⟨p, ok, h, hcs2⟩
  · refine .inr ⟨hcs2, fun t ht => ?_⟩
    simp [perform, h] at ht
  have hr : [CoreAction.cs2ServiceInit key].foldlM (perform answers) Services.none =
      some { Services.none with cs2Info := p } := by simp [perform, h]
  by_cases hcomplete : answers.Complete .p2pCs2
  · have hp := hcs2.mpr hcomplete
    exact .inl ⟨hcomplete, _, hr, nofun, fun _ => hp, fun _ => rfl, fun _ => rfl,
      fun h => absurd rfl h, nofun, nofun, nofun, hp.valid⟩
  · refine .inr ⟨hcomplete, fun t ht hinit => hcomplete ?_⟩
    obtain rfl := Option.some.inj (hr.symm.trans ht)
    exact hcs2.mp hinit

end Starts

/-! ## One message -/

namespace CoreWorld

variable {Timer : Type} {api : TimerApi Timer} {cs2 : Bool} {w : CoreWorld Timer}
  {step : CoreInput × InitAnswers}

theorem restartBeacon_service (res : Resources) (s : CoreState Timer) :
    (restartBeacon api res s).service = s.service := by
  unfold restartBeacon
  split <;> rfl

variable (api cs2) in
/-- A message that asks for no service leaves the services alone. -/
theorem next_of_other (h : step.1.requested = .none) {s : Services} (hs : w.services = some s) :
    (w.next api cs2 step).core.service = w.core.service ∧
      (w.next api cs2 step).services = some s := by
  obtain ⟨⟨⟨event, param⟩, res, address⟩, answers⟩ := step
  simp only [next, hs]
  cases event
  case lanUdpServiceStartRequest | lanTcpServiceStartRequest | p2pCs2ServiceStartRequest =>
    exact absurd h nofun
  case remoteDeviceConnected =>
    simp only [yangipcMessageHandle]
    split <;> exact ⟨rfl, rfl⟩
  case remoteDeviceDisconnected | imageTcpServiceDisconnected =>
    exact ⟨restartBeacon_service res w.core, rfl⟩
  all_goals exact ⟨rfl, rfl⟩

variable (api) in
/-- A request that is refused changes nothing. -/
theorem next_of_refused (h : step.1.requested ≠ .none)
    (hrefused : ¬(w.core.service = .none ∧ (step.1.requested = .p2pCs2 → cs2 = true))) :
    w.next api cs2 step = w := by
  obtain ⟨⟨⟨event, param⟩, res, address⟩, answers⟩ := step
  obtain ⟨core, _ | s⟩ := w
  · rfl
  simp only [next]
  cases event
  case lanUdpServiceStartRequest | lanTcpServiceStartRequest =>
    have hservice : core.service ≠ .none := fun hnone =>
      hrefused ⟨hnone, fun hcs2 => by cases hcs2⟩
    simp only [yangipcMessageHandle, if_pos hservice]
    rfl
  case p2pCs2ServiceStartRequest =>
    have hgate : cs2 = false ∨ core.service ≠ .none := by
      by_cases hservice : core.service = .none
      · exact .inl (Bool.eq_false_iff.mpr fun hcs2 => hrefused ⟨hservice, fun _ => hcs2⟩)
      · exact .inr hservice
    simp only [yangipcMessageHandle, if_pos hgate]
    rfl
  all_goals exact absurd rfl h

variable (api) in
/-- A request that is not refused is recorded, and the initialisers run. -/
theorem next_of_accepted (h : step.1.requested ≠ .none) (hnone : w.core.service = .none)
    (hcs2 : step.1.requested = .p2pCs2 → cs2 = true) (hs : w.services = some .none) :
    (w.next api cs2 step).core.service = step.1.requested ∧
      Started step.2 step.1.requested (w.next api cs2 step).services := by
  have hidle : ¬w.core.service ≠ .none := fun hne => hne hnone
  obtain ⟨⟨⟨event, param⟩, res, address⟩, answers⟩ := step
  simp only [next, hs]
  cases event
  case lanUdpServiceStartRequest =>
    simp only [yangipcMessageHandle, if_neg hidle]
    exact ⟨rfl, started_udp answers⟩
  case lanTcpServiceStartRequest =>
    simp only [yangipcMessageHandle, if_neg hidle]
    exact ⟨rfl, started_tcp answers⟩
  case p2pCs2ServiceStartRequest =>
    have hgate : ¬(cs2 = false ∨ w.core.service ≠ .none) := by simp [hnone, hcs2 rfl]
    simp only [yangipcMessageHandle, if_neg hgate]
    exact ⟨rfl, started_cs2 answers param⟩
  all_goals exact absurd rfl h

variable (api cs2 step) in
/-- A message is supplied and keeps its promise and the invariant, or neither. -/
theorem Clean.step_cases (h : Clean w) :
    Supplied cs2 w step ∧ InStep api cs2 w step ∧ Clean (w.next api cs2 step) ∨
      ¬Supplied cs2 w step ∧ ¬InStep api cs2 w step := by
  have hclean := h
  obtain ⟨s, hs, honly⟩ := h
  by_cases hother : step.1.requested = .none
  · obtain ⟨hservice, hservices⟩ := next_of_other api cs2 hother hs
    refine .inl ⟨fun _ _ => ?_, ⟨s, hservices, hservice ▸ honly.sound, fun hne =>
      absurd hother hne⟩, s, hservices, hservice ▸ honly⟩
    rw [hother]
    trivial
  by_cases hgate : w.core.service = .none ∧ (step.1.requested = .p2pCs2 → cs2 = true)
  · obtain ⟨hnone, hcs2⟩ := hgate
    obtain ⟨hservice, hstarted⟩ :=
      next_of_accepted api hother hnone hcs2 (honly.fresh hnone ▸ hs)
    rcases hstarted with ⟨hcomplete, t, ht, honly'⟩ | ⟨hnot, hfailed⟩
    · refine .inl ⟨fun _ _ => hcomplete, ⟨t, ht, hservice ▸ honly'.sound, fun _ => ?_⟩, t, ht,
        hservice ▸ honly'⟩
      exact .inl ⟨hservice, honly'.named hother⟩
    · -- the service is recorded and not initialised
      refine .inr ⟨fun hsupplied => hnot (hsupplied hnone hcs2), ?_⟩
      rintro ⟨t, ht, hsound, -⟩
      exact hfailed t ht (hservice ▸ hsound.named (hservice ▸ hother))
  · have hsame := next_of_refused api hother hgate
    unfold InStep
    rw [hsame]
    exact .inl ⟨fun hnone hcs2 => absurd ⟨hnone, hcs2⟩ hgate,
      ⟨s, hs, honly.sound, fun _ => .inr rfl⟩, hclean⟩

/-- **One message** keeps its promise if and only if nothing is refused to a start. -/
theorem inStep_iff (h : Clean w) : InStep api cs2 w step ↔ Supplied cs2 w step := by
  rcases h.step_cases api cs2 step with
    ⟨hsupplied, hstep, -⟩ | ⟨hsupplied, hstep⟩
  · exact iff_of_true hstep hsupplied
  · exact iff_of_false hstep hsupplied

theorem Clean.next (h : Clean w) (hstep : InStep api cs2 w step) :
    Clean (w.next api cs2 step) := by
  rcases h.step_cases api cs2 step with ⟨-, -, hnext⟩ | ⟨-, hnot⟩
  · exact hnext
  · exact absurd hstep hnot

theorem clean_start : Clean (start : CoreWorld Timer) := ⟨.none, rfl, only_none⟩

/-- **Every run.**  The services stay sound, and every start succeeds or changes nothing, if and
only if no allocation and no thread creation fails in a start that is not refused. -/
theorem starts_inStep_iff (api : TimerApi Timer) (cs2 : Bool)
    (steps : List (CoreInput × InitAnswers)) :
    Along (next api cs2) (InStep api cs2) start steps ↔
      Along (next api cs2) (Supplied cs2) start steps :=
  along_congr (B := Clean) (fun _ hw _ _ => inStep_iff hw)
    (fun _ hw _ _ hstep => hw.next hstep) start clean_start

/-- There is no memory for one buffer of the UDP service. -/
def shortOfMemory : InitAnswers where
  malloc b := b ≠ .cbuf .udpAud
  createThread _ := true
  key := true

/-- The UDP service stays recorded without having been initialised. -/
theorem not_inStep_shortOfMemory :
    ¬∀ (Timer : Type) (api : TimerApi Timer) (cs2 : Bool) (steps : List (CoreInput × InitAnswers)),
      Along (next api cs2) (InStep api cs2) start steps := by
  intro h
  have hstep := (h PlainTimer plainTimers false
    [(plainInput .lanUdpServiceStartRequest, shortOfMemory)]).1
  have hsupplied := (inStep_iff clean_start).mp hstep rfl nofun
  obtain ⟨-, -, -, ⟨-, hcbuf, -⟩, -⟩ := hsupplied
  exact absurd hcbuf nofun

end CoreWorld

end Core

end YangIpc
