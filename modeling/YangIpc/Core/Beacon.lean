import YangIpc.Core.Loop

/-!
# The beacon and the connection

A remote device that connects slows the beacon down.  When it disconnects, the loop starts the
beacon again; but a beacon that exists is left alone, so it stays slow.

## Main definitions

* `Beacon`, `Slow`: a beacon runs with a period; the slow one
* `lastConnection`, `expectedPeriod`: the last connection event, and the period it calls for

## Main results

* `beacon_stays_slow`: a run after which the beacon is slow without a connection
* `beacon_follows_iff`: when the beacon has the period called for
-/

namespace YangIpc

namespace Core

variable {Timer : Type} {api : TimerApi Timer} {cs2 : Bool} {s : CoreState Timer}
  {input : CoreInput} {inputs : List CoreInput}

/-- The beacon exists, and its timer runs with the period. -/
def Beacon (api : TimerApi Timer) (s : CoreState Timer) (period : UInt32) : Prop :=
  ∃ sdp, s.sdp = some sdp ∧ api.hasHandle sdp.timer = true ∧ api.isRunning sdp.timer = true ∧
    api.period sdp.timer = period

/-- The beacon exists, and has been slowed down. -/
def Slow (api : TimerApi Timer) (s : CoreState Timer) : Prop :=
  ∃ sdp, s.sdp = some sdp ∧ api.period sdp.timer = 60000

/-- A UDP or TCP service was started. -/
def OnLan (s : CoreState Timer) : Prop := s.service = .lanUdp ∨ s.service = .lanTcp

/-- Memory and sockets are there, and the loop goes on. -/
structure CoreInput.Fine (input : CoreInput) : Prop where
  malloc : input.res.malloc = true
  socket : input.res.socket ≠ none
  going : input.msg.event ≠ .exit

/-- The last of the events that a remote device connected or disconnected. -/
def lastConnection (inputs : List CoreInput) : Option Dbevt :=
  ((inputs.map fun input => input.msg.event).filter fun event =>
    event = .remoteDeviceConnected ∨ event = .remoteDeviceDisconnected).getLast?

/-- The period that the connection calls for. -/
def expectedPeriod (inputs : List CoreInput) : UInt32 :=
  if lastConnection inputs = some .remoteDeviceConnected then 60000 else 1000

/-- A remote device connected. -/
def Connects (input : CoreInput) : Prop := input.msg.event = .remoteDeviceConnected

instance : Decidable (Connects input) := inferInstanceAs (Decidable (_ = _))

/-! ## One message -/

theorem Beacon.period_inj {p q : UInt32} (hp : Beacon api s p) (hq : Beacon api s q) : p = q := by
  obtain ⟨sdp, hsdp, -, -, rfl⟩ := hp
  obtain ⟨sdp', hsdp', -, -, rfl⟩ := hq
  obtain rfl := Option.some.inj (hsdp.symm.trans hsdp')
  rfl

/-- A new timer runs with the period asked for. -/
theorem startTimer_new (hlaw : api.Lawful) (hok : api.Succeeds) {sdp : YangipcSdp Timer}
    (hnew : sdp.intvalMs = 0) (timeMs : UInt32) :
    let r := yangipcSdpStartTimer api timeMs sdp
    r.1 = true ∧ api.hasHandle r.2.timer = true ∧ api.isRunning r.2.timer = true ∧
      api.period r.2.timer = timeMs := by
  obtain ⟨hhandle, hperiod⟩ := hlaw.init sdp.timer timeMs (hok.init _ _)
  obtain ⟨hhandle', hrunning, hsame⟩ := hlaw.start _ hhandle (hok.start _ hhandle)
  simp only [yangipcSdpStartTimer, hnew, ne_eq, not_true_eq_false, false_and, if_false, if_true,
    hok.init]
  exact ⟨hok.start _ hhandle, hhandle', hrunning, hsame.trans hperiod⟩

theorem generate_intvalMs (res : Resources) (name : String) (cmdPort imgPort audPort : UInt32)
    (sdp : YangipcSdp Timer) :
    (yangipcSdpGenerate res name cmdPort imgPort audPort sdp).intvalMs = sdp.intvalMs := by
  unfold yangipcSdpGenerate
  split <;> rfl

/-- **A beacon that is new is fast.** -/
theorem start_new (hlaw : api.Lawful) (hok : api.Succeeds) (hfine : input.Fine) (name : String)
    (cmdPort imgPort audPort : UInt32) :
    ∃ sdp, (yangipcSdpStart api input.res name cmdPort imgPort audPort none).2 = some sdp ∧
      api.hasHandle sdp.timer = true ∧ api.isRunning sdp.timer = true ∧
      api.period sdp.timer = 1000 := by
  obtain ⟨sock, hsock⟩ := Option.ne_none_iff_exists'.mp hfine.socket
  obtain ⟨hstarted, hrunning⟩ := startTimer_new hlaw hok (generate_intvalMs input.res name
    cmdPort imgPort audPort
    ⟨sock, api.cleared, 0, ⟨udpSdpRemotePort, inaddrBroadcast⟩, none, 0⟩) 1000
  refine ⟨_, ?_, hrunning⟩
  simp only [yangipcSdpStart, hfine.malloc, if_true, hsock, hstarted]

/-- A beacon that runs is slow after a reload. -/
theorem reload_running (hlaw : api.Lawful) (hok : api.Succeeds) {sdp : YangipcSdp Timer}
    (hhandle : api.hasHandle sdp.timer = true) :
    ∃ sdp', (yangipcSdpReload api (some sdp)).2 = some sdp' ∧
      api.hasHandle sdp'.timer = true ∧ api.isRunning sdp'.timer = true ∧
      api.period sdp'.timer = 60000 := by
  obtain ⟨hhandle', hperiod⟩ := hlaw.changePeriod _ 60000 hhandle (hok.changePeriod _ _ hhandle)
  obtain ⟨hhandle'', hrunning, hsame⟩ := hlaw.reload _ hhandle' (hok.reload _ hhandle')
  refine ⟨{ sdp with timer := (api.rtosReloadTimer (api.rtosChangePeriod sdp.timer 60000).2).2 },
    ?_, hhandle'', hrunning, hsame.trans hperiod⟩
  simp only [yangipcSdpReload, yangipcSdpReloadTimer, hok.changePeriod _ _ hhandle, if_true]

variable (api cs2 s input) in
/-- A service that was started stays. -/
theorem service_step (h : s.service ≠ .none) :
    (yangipcMessageHandle api cs2 s input).1.service = s.service := by
  have hrestart : (restartBeacon api input.res s).service = s.service := by
    unfold restartBeacon
    split <;> rfl
  unfold yangipcMessageHandle
  split
  case h_3 | h_5 => rw [if_pos h]
  case h_7 => rw [if_pos (.inr h)]
  case h_11 => split <;> rfl
  case h_12 | h_13 => exact hrestart
  all_goals rfl

theorem OnLan.step (h : OnLan s) : OnLan (yangipcMessageHandle api cs2 s input).1 := by
  have hsome : s.service ≠ .none := by
    rcases h with h | h
    · exact fun hnone => YangipcService.noConfusion (h.symm.trans hnone)
    · exact fun hnone => YangipcService.noConfusion (h.symm.trans hnone)
  rw [OnLan, service_step api cs2 s input hsome]
  exact h

/-- A start, for whichever service. -/
def Starts (api : TimerApi Timer) (res : Resources) (s s' : CoreState Timer) : Prop :=
  ∃ name cmdPort imgPort audPort,
    s'.sdp = (yangipcSdpStart api res name cmdPort imgPort audPort s.sdp).2

theorem restartBeacon_cases (res : Resources) :
    (restartBeacon api res s).sdp = s.sdp ∨ Starts api res s (restartBeacon api res s) := by
  unfold restartBeacon
  split
  · exact .inr ⟨_, _, _, _, rfl⟩
  · exact .inr ⟨_, _, _, _, rfl⟩
  · exact .inl rfl

variable (api cs2 s) in
/-- **What a message does to the beacon**: a connection on a LAN service reloads it, and any other
message starts it or leaves it. -/
theorem sdp_step (hgoing : input.msg.event ≠ .exit) :
    let s' := (yangipcMessageHandle api cs2 s input).1
    (OnLan s ∧ Connects input ∧ s'.sdp = (yangipcSdpReload api s.sdp).2) ∨
      ¬(OnLan s ∧ Connects input) ∧ (s'.sdp = s.sdp ∨ Starts api input.res s s') := by
  by_cases hconnects : Connects input
  · have hevent : input.msg.event = .remoteDeviceConnected := hconnects
    cases hservice : s.service with
    | lanUdp =>
      refine .inl ⟨.inl hservice, hconnects, ?_⟩
      simp only [yangipcMessageHandle, hevent, hservice]
    | lanTcp =>
      refine .inl ⟨.inr hservice, hconnects, ?_⟩
      simp only [yangipcMessageHandle, hevent, hservice]
    | none | p2pCs2 =>
      refine .inr ⟨fun h => ?_, .inl ?_⟩
      · rcases h.1 with hlan | hlan
        · exact YangipcService.noConfusion (hservice.symm.trans hlan)
        · exact YangipcService.noConfusion (hservice.symm.trans hlan)
      · simp only [yangipcMessageHandle, hevent, hservice]
  · refine .inr ⟨fun h => hconnects h.2, ?_⟩
    unfold yangipcMessageHandle
    split
    case h_3 | h_5 | h_7 => split <;> exact .inl rfl
    case h_4 | h_6 => exact .inr ⟨_, _, _, _, rfl⟩
    case h_11 => exact absurd ‹_› hconnects
    case h_12 | h_13 => exact restartBeacon_cases _
    case h_14 => exact absurd ‹_› hgoing
    all_goals exact .inl rfl

variable (cs2) in
/-- **A message on a beacon that exists**: a connection slows it down, and nothing else changes
it. -/
theorem Beacon.step (hlaw : api.Lawful) (hok : api.Succeeds) (hgoing : input.msg.event ≠ .exit)
    {p : UInt32} (h : Beacon api s p) :
    (OnLan s ∧ Connects input ∧ Beacon api (yangipcMessageHandle api cs2 s input).1 60000) ∨
      ¬(OnLan s ∧ Connects input) ∧ Beacon api (yangipcMessageHandle api cs2 s input).1 p := by
  obtain ⟨sdp, hsdp, hhandle, hrunning⟩ := h
  rcases sdp_step api cs2 s hgoing with
    ⟨hlan, hconnects, hreload⟩ | ⟨hnot, hsame | ⟨_, _, _, _, hstart⟩⟩
  · obtain ⟨sdp', hsdp', hslow⟩ := reload_running hlaw hok hhandle
    rw [hsdp] at hreload
    exact .inl ⟨hlan, hconnects, sdp', hreload.trans hsdp', hslow⟩
  · exact .inr ⟨hnot, sdp, hsame.trans hsdp, hhandle, hrunning⟩
  · rw [hsdp] at hstart
    exact .inr ⟨hnot, sdp, hstart, hhandle, hrunning⟩

/-- The beacon after any message: there is none, or it runs with one of the two periods. -/
def Sound (api : TimerApi Timer) (s : CoreState Timer) : Prop :=
  s.sdp = none ∨ Beacon api s 1000 ∨ Beacon api s 60000

theorem Sound.step (hlaw : api.Lawful) (hok : api.Succeeds) (hfine : input.Fine) (h : Sound api s) :
    Sound api (yangipcMessageHandle api cs2 s input).1 := by
  rcases h with hnone | hfast | hslow
  · rcases sdp_step api cs2 s hfine.going with
      ⟨-, -, hreload⟩ | ⟨-, hsame | ⟨name, cmdPort, imgPort, audPort, hstart⟩⟩
    · rw [hnone] at hreload
      exact .inl hreload
    · exact .inl (hsame.trans hnone)
    · obtain ⟨sdp, hsdp, hnew⟩ := start_new hlaw hok hfine name cmdPort imgPort audPort
      rw [hnone] at hstart
      exact .inr (.inl ⟨sdp, hstart.trans hsdp, hnew⟩)
  · rcases hfast.step cs2 hlaw hok hfine.going with ⟨-, -, h⟩ | ⟨-, h⟩
    · exact .inr (.inr h)
    · exact .inr (.inl h)
  · rcases hslow.step cs2 hlaw hok hfine.going with ⟨-, -, h⟩ | ⟨-, h⟩
    · exact .inr (.inr h)
    · exact .inr (.inr h)

/-- A service has reported that it is started. -/
def Responds (input : CoreInput) : Prop :=
  input.msg.event = .lanUdpServiceStartResponse ∨ input.msg.event = .lanTcpServiceStartResponse

variable (cs2) in
/-- **The response starts the beacon**, or finds one that was started before. -/
theorem Sound.response (hlaw : api.Lawful) (hok : api.Succeeds) (hfine : input.Fine)
    (hresponds : Responds input) (h : Sound api s) :
    ∃ p, Beacon api (yangipcMessageHandle api cs2 s input).1 p ∧
      (Slow api s ∧ p = 60000 ∨ ¬Slow api s ∧ p = 1000) := by
  have hstarts : Starts api input.res s (yangipcMessageHandle api cs2 s input).1 := by
    rcases hresponds with hevent | hevent
    · simp only [yangipcMessageHandle, hevent]
      exact ⟨_, _, _, _, rfl⟩
    · simp only [yangipcMessageHandle, hevent]
      exact ⟨_, _, _, _, rfl⟩
  obtain ⟨name, cmdPort, imgPort, audPort, hstart⟩ := hstarts
  cases hsdp : s.sdp with
  | none =>
    rw [hsdp] at hstart
    obtain ⟨sdp, hnew, hfast⟩ := start_new hlaw hok hfine name cmdPort imgPort audPort
    refine ⟨1000, ⟨sdp, hstart.trans hnew, hfast⟩, .inr ⟨?_, rfl⟩⟩
    rintro ⟨sdp', hsdp', -⟩
    exact absurd (hsdp.symm.trans hsdp') (by simp)
  | some sdp =>
    have hsame : (yangipcMessageHandle api cs2 s input).1.sdp = s.sdp := by
      rw [hsdp] at hstart ⊢
      exact hstart
    rcases h with hnone | ⟨sdp', hsdp', hhandle, hrunning, hperiod⟩ |
      ⟨sdp', hsdp', hhandle, hrunning, hperiod⟩
    · exact absurd (hsdp.symm.trans hnone) (by simp)
    · refine ⟨1000, ⟨sdp', hsame.trans hsdp', hhandle, hrunning, hperiod⟩, .inr ⟨?_, rfl⟩⟩
      rintro ⟨sdp'', hsdp'', hslow⟩
      obtain rfl := Option.some.inj (hsdp'.symm.trans hsdp'')
      exact absurd (hperiod.symm.trans hslow) (by decide)
    · exact ⟨60000, ⟨sdp', hsame.trans hsdp', hhandle, hrunning, hperiod⟩,
        .inl ⟨⟨sdp', hsdp', hperiod⟩, rfl⟩⟩

/-! ## Runs -/

theorem run_append (s : CoreState Timer) (l l' : List CoreInput) :
    s.run api cs2 (l ++ l') = (s.run api cs2 l).run api cs2 l' := by
  induction l generalizing s with
  | nil => rfl
  | cons input rest ih => exact ih _

theorem Sound.run (hlaw : api.Lawful) (hok : api.Succeeds) (hfine : ∀ input ∈ inputs, input.Fine)
    (h : Sound api s) : Sound api (s.run api cs2 inputs) := by
  induction inputs generalizing s with
  | nil => exact h
  | cons input rest ih =>
    obtain ⟨hhead, hrest⟩ := List.forall_mem_cons.mp hfine
    exact ih hrest (h.step hlaw hok hhead)

variable (cs2) in
/-- **A run with a beacon**: one connection slows it down for good. -/
theorem Beacon.run (hlaw : api.Lawful) (hok : api.Succeeds) (hlan : OnLan s) {p : UInt32}
    (h : Beacon api s p) (hfine : ∀ input ∈ inputs, input.Fine) :
    Beacon api (s.run api cs2 inputs) (if ∃ input ∈ inputs, Connects input then 60000 else p) := by
  induction inputs generalizing s p with
  | nil => exact h
  | cons input rest ih =>
    obtain ⟨hhead, hrest⟩ := List.forall_mem_cons.mp hfine
    have hlan' : OnLan (yangipcMessageHandle api cs2 s input).1 := hlan.step
    simp only [List.exists_mem_cons_iff]
    rcases h.step cs2 hlaw hok hhead.going with ⟨-, hconnects, hslow⟩ | ⟨hnot, hsame⟩
    · rw [if_pos (.inl hconnects)]
      have hrun := ih hlan' hslow hrest
      rwa [ite_self] at hrun
    · have hquiet : ¬Connects input := fun hconnects => hnot ⟨hlan, hconnects⟩
      simp only [hquiet, false_or]
      exact ih hlan' hsame hrest

theorem exists_connects_of_last (h : lastConnection inputs = some .remoteDeviceConnected) :
    ∃ input ∈ inputs, Connects input := by
  have hmem := List.mem_of_getLast? h
  rw [List.mem_filter, List.mem_map] at hmem
  exact hmem.1

/-- The period after a run is the one called for. -/
theorem expectedPeriod_eq_iff {slow : Prop} {p : UInt32}
    (hp : slow ∧ p = 60000 ∨ ¬slow ∧ p = 1000) :
    (expectedPeriod inputs = if ∃ input ∈ inputs, Connects input then 60000 else p) ↔
      lastConnection inputs = some .remoteDeviceConnected ∨
        ((∀ input ∈ inputs, ¬Connects input) ∧ ¬slow) := by
  have hne : (1000 : UInt32) ≠ 60000 := by decide
  unfold expectedPeriod
  by_cases hlast : lastConnection inputs = some .remoteDeviceConnected
  · simp only [hlast, if_true, exists_connects_of_last hlast, true_or]
  by_cases hconnects : ∃ input ∈ inputs, Connects input
  · -- a connection, and a disconnection after it
    have hnot : ¬∀ input ∈ inputs, ¬Connects input := by
      obtain ⟨input, hmem, hinput⟩ := hconnects
      exact fun h => h input hmem hinput
    simp only [hlast, if_false, hconnects, if_true, hnot, false_and, or_false, hne]
  · have hquiet : ∀ input ∈ inputs, ¬Connects input :=
      fun input hmem hinput => hconnects ⟨input, hmem, hinput⟩
    simp only [hlast, if_false, hconnects, false_or]
    rcases hp with ⟨hslow, rfl⟩ | ⟨hfast, rfl⟩
    · exact ⟨fun h => absurd h hne, fun h => absurd hslow h.2⟩
    · exact iff_of_true rfl ⟨hquiet, hfast⟩

/-- A timer that does as it is told. -/
structure PlainTimer where
  handle : Bool
  running : Bool
  period : UInt32
deriving DecidableEq

/-- Its functions. -/
def plainTimers : TimerApi PlainTimer where
  cleared := ⟨false, false, 0⟩
  hasHandle timer := timer.handle
  dropHandle timer := { timer with handle := false }
  isRunning timer := timer.running
  period timer := timer.period
  rtosInitTimer _ ms := (true, ⟨true, false, ms⟩)
  rtosStartTimer timer := (timer.handle, { timer with running := timer.handle })
  rtosStopTimer timer := (timer.handle, { timer with running := false })
  rtosReloadTimer timer := (timer.handle, { timer with running := timer.handle })
  rtosChangePeriod timer ms := (timer.handle, { timer with period := ms })
  rtosDeinitTimer timer := (timer.handle, ⟨false, false, timer.period⟩)

theorem lawful_plainTimers : plainTimers.Lawful where
  hasHandle_cleared := rfl
  init _ _ _ := ⟨rfl, rfl⟩
  start _ h _ := ⟨h, h, rfl⟩
  stop _ h _ := ⟨h, rfl, rfl⟩
  reload _ h _ := ⟨h, h, rfl⟩
  changePeriod _ _ h _ := ⟨h, rfl⟩
  deinit _ _ _ := rfl

theorem succeeds_plainTimers : plainTimers.Succeeds where
  init _ _ := rfl
  start _ h := h
  stop _ h := h
  reload _ h := h
  changePeriod _ _ h := h
  deinit _ h := h

/-- A message, with memory and a socket for the beacon. -/
def plainInput (event : Dbevt) : CoreInput := ⟨⟨event, 0⟩, ⟨true, true, some 3⟩, "192.168.0.2"⟩

theorem fine_plainInput {events : List Dbevt} (h : .exit ∉ events) :
    ∀ input ∈ events.map plainInput, input.Fine := by
  intro input hinput
  obtain ⟨event, hevent, rfl⟩ := List.mem_map.mp hinput
  exact ⟨rfl, by simp [plainInput], fun heq => h (heq ▸ hevent)⟩

/-- **The beacon stays slow** after the remote device has disconnected. -/
theorem beacon_stays_slow :
    ¬∀ (Timer : Type) (api : TimerApi Timer) (cs2 : Bool) (before after : List CoreInput)
      (response : CoreInput), api.Lawful → api.Succeeds → (∀ input ∈ before, input.Fine) →
      response.Fine → (∀ input ∈ after, input.Fine) → Responds response →
      OnLan (CoreState.start.run api cs2 before) →
        Beacon api (CoreState.start.run api cs2 (before ++ response :: after))
          (expectedPeriod after) := by
  intro h
  have hfast := h PlainTimer plainTimers false ([.lanUdpServiceStartRequest].map plainInput)
    ([.remoteDeviceConnected, .remoteDeviceDisconnected].map plainInput)
    (plainInput .lanUdpServiceStartResponse) lawful_plainTimers succeeds_plainTimers
    (fine_plainInput (by decide)) ⟨rfl, by simp [plainInput], by decide⟩
    (fine_plainInput (by decide))
    (.inl rfl) (.inl rfl)
  have hslow : Beacon plainTimers (CoreState.start.run plainTimers false
      ([.lanUdpServiceStartRequest].map plainInput ++ plainInput .lanUdpServiceStartResponse ::
        [.remoteDeviceConnected, .remoteDeviceDisconnected].map plainInput)) 60000 :=
    ⟨_, rfl, rfl, rfl, rfl⟩
  exact absurd (hfast.period_inj hslow) (by decide)

/-- **The beacon follows the connection** if and only if the last connection event was that a
remote device connected, or there was none of these and the beacon was not slow before. -/
theorem beacon_follows_iff (api : TimerApi Timer) (cs2 : Bool) (hlaw : api.Lawful)
    (hok : api.Succeeds) (before after : List CoreInput) (response : CoreInput)
    (hbefore : ∀ input ∈ before, input.Fine) (hresponse : response.Fine)
    (hafter : ∀ input ∈ after, input.Fine) (hresponds : Responds response)
    (hlan : OnLan (CoreState.start.run api cs2 before)) :
    Beacon api (CoreState.start.run api cs2 (before ++ response :: after))
        (expectedPeriod after) ↔
      lastConnection after = some .remoteDeviceConnected ∨
        ((∀ input ∈ after, ¬Connects input) ∧
          ¬Slow api (CoreState.start.run api cs2 before)) := by
  have hsound : Sound api (CoreState.start.run api cs2 before) :=
    Sound.run hlaw hok hbefore (.inl rfl)
  obtain ⟨p, hbeacon, hp⟩ := hsound.response cs2 hlaw hok hresponse hresponds
  have hrun := hbeacon.run cs2 hlaw hok hlan.step hafter
  rw [run_append, ← expectedPeriod_eq_iff hp]
  exact ⟨fun h => h.period_inj hrun, fun h => h ▸ hrun⟩

/-- A remote device has connected, after another one had disconnected. -/
theorem beacon_follows_iff_connected :
    Beacon plainTimers (CoreState.start.run plainTimers false
      ([.lanTcpServiceStartRequest].map plainInput ++ plainInput .lanTcpServiceStartResponse ::
        [.remoteDeviceConnected, .remoteDeviceDisconnected, .remoteDeviceConnected].map
          plainInput)) 60000 := by
  have hperiod : expectedPeriod ([.remoteDeviceConnected, .remoteDeviceDisconnected,
      .remoteDeviceConnected].map plainInput) = 60000 := rfl
  rw [← hperiod]
  have hiff := beacon_follows_iff plainTimers false lawful_plainTimers succeeds_plainTimers
    ([.lanTcpServiceStartRequest].map plainInput)
    ([.remoteDeviceConnected, .remoteDeviceDisconnected, .remoteDeviceConnected].map plainInput)
    (plainInput .lanTcpServiceStartResponse) (fine_plainInput (by decide))
    ⟨rfl, by simp [plainInput], by decide⟩ (fine_plainInput (by decide)) (.inr rfl) (.inr rfl)
  exact hiff.mpr (.inl rfl)

end Core

end YangIpc
