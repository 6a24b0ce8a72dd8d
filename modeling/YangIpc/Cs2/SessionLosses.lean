import YangIpc.Cs2.SessionRuns

/-!
# Losses of the P2P service

How often the loss of a connection is reported.  `device_connected` shares its word with the two
statuses, which the core and the receivers write without a lock between them: what is reported is
right as long as a thread loads the word only while no other is about to store it.

## Main definitions

* `Reported`: the invariant of the runs whose steps are apart

## Main results

* `Reported.core`, `Reported.receiver`, `Reported.turn`: a step of a thread
* `disconnected_once`: every run whose steps are apart
* `losses_may_be_missed`: a run whose steps are not
-/

namespace YangIpc

namespace Cs2

open Transition

variable {w w' v : Cs2State} {t : Cs2Thread} {q : Option ClosePoint} {p : ClosePoint}

/-- `device_connected`, unless the loss has just been reported. -/
def Cs2State.unreported (w : Cs2State) : ℕ :=
  if w.info.word.deviceConnected ∧ w.holderPoint ≠ some .clear then 1 else 0

/-- The invariant. -/
structure Reported (w : Cs2State) : Prop where
  settled : w.core.Settled → w.info.word.deviceConnected = false
  sends : w.holderPoint = some .send ∨ w.holderPoint = some .clear →
    w.info.word.deviceConnected = true
  events : w.log.count .connected = w.log.count .disconnected + w.unreported
  -- the word that a thread has loaded is still the word
  current : w.loaded = [] ∨ ∃ t, w.loaded = [(t, w.info.word)]

/-! ## The word -/

theorem Reported.load (h : Reported w) (hapart : ∀ x ∈ w.loaded, x.1 = t)
    (hnone : w.loaded.lookup t = none) :
    Reported { w with loaded := (t, w.info.word) :: w.loaded } := by
  have hempty : w.loaded = [] := by
    rcases h.current with hempty | ⟨u, hu⟩
    · exact hempty
    · have hself : u = t := hapart (u, w.info.word) (by simp [hu])
      rw [hu, hself] at hnone
      simp at hnone
  exact ⟨h.settled, h.sends, h.events, .inr ⟨t, by simp [hempty]⟩⟩

/-- What is stored is what was loaded, and that is the word. -/
theorem Reported.copy (h : Reported w) {copy : Cs2Word} (hcopy : w.loaded.lookup t = some copy) :
    copy = w.info.word ∧ w.loaded.filter (fun x => x.1 ≠ t) = [] := by
  rcases h.current with hempty | ⟨u, hu⟩
  · rw [hempty] at hcopy
    simp at hcopy
  · rw [hu] at hcopy ⊢
    by_cases htu : t = u
    · subst htu
      simpa [eq_comm] using hcopy
    · have hne : (t == u) = false := beq_eq_false_iff_ne.mpr htu
      simp [List.lookup_cons, hne] at hcopy

theorem Reported.word (h : Reported w) {word : Cs2Word} {loaded : List (Cs2Thread × Cs2Word)}
    (hword : WordStep w t word loaded) :
    word.deviceConnected = w.info.word.deviceConnected ∧
      (loaded = [] ∨ ∃ u, loaded = [(u, word)]) := by
  cases hword with
  | keep same same_loaded => exact ⟨by rw [same], by rw [same, same_loaded]; exact h.current⟩
  | store copy had connected given =>
    obtain ⟨rfl, hfilter⟩ := h.copy had
    exact ⟨connected, .inl (given.trans hfilter)⟩

/-! ## The steps -/

/-- A step that neither changes `device_connected` nor tells of it. -/
theorem Reported.frame (h : Reported w)
    (hholder : ∀ p, p ≠ .lock → p ≠ .test → (w'.holderPoint = some p ↔ w.holderPoint = some p))
    (hconnected : w'.info.word.deviceConnected = w.info.word.deviceConnected)
    (hlog : ∃ e, w'.log = w.log ++ e ∧ .connected ∉ e ∧ .disconnected ∉ e)
    (hsettled : w'.core.Settled → w.core.Settled)
    (hcurrent : w'.loaded = [] ∨ ∃ t, w'.loaded = [(t, w'.info.word)]) : Reported w' := by
  obtain ⟨e, hlog, hup, hdown⟩ := hlog
  have hclear := hholder .clear (by simp) (by simp)
  have hunreported : w'.unreported = w.unreported := by
    simp only [Cs2State.unreported, hconnected, ne_eq, hclear]
  refine ⟨fun hs => hconnected.trans (h.settled (hsettled hs)), ?_, ?_, hcurrent⟩
  · rw [hholder .send (by simp) (by simp), hclear, hconnected]
    exact h.sends
  · rw [hunreported, hlog, List.count_append, List.count_append, List.count_eq_zero.mpr hup,
      List.count_eq_zero.mpr hdown]
    exact h.events

/-- **One step in the function**, behind the lock. -/
theorem Reported.moveTo (h : Reported w) (hs : Sound w) (hp : w.closing t = some p)
    (hlock : p ≠ .lock) (hcore : v.core = w.core)
    (hmutex : v.info.mutex = if q = none then none else w.info.mutex)
    (hclear : w.info.word.deviceConnected = false → v.info.word.deviceConnected = false)
    (hsettled : t = .core → (q.elim CorePoint.detect .close).Settled →
      v.info.word.deviceConnected = false)
    (hsends : q = some .send ∨ q = some .clear → v.info.word.deviceConnected = true)
    (hevents : v.log.count .connected = v.log.count .disconnected +
      if v.info.word.deviceConnected ∧ q ≠ some .clear then 1 else 0)
    (hcurrent : v.loaded = [] ∨ ∃ u, v.loaded = [(u, v.info.word)]) :
    Reported (v.moveTo t q) := by
  have hholder := hs.holderPoint_moveTo hp hlock hmutex
  refine ⟨fun hset => ?_, ?_, ?_, ?_⟩
  · rw [info_moveTo]
    rcases core_moveTo (w := v) (t := t) (q := q) with hc | ⟨ht, hc⟩
    · rw [hc, hcore] at hset
      exact hclear (h.settled hset)
    · exact hsettled ht (hc ▸ hset)
  · rw [hholder, info_moveTo]
    exact hsends
  · rw [log_moveTo, Cs2State.unreported, info_moveTo, hholder]
    exact hevents
  · rw [loaded_moveTo, info_moveTo]
    exact hcurrent

/-- A step in the function that leaves the word alone. -/
theorem Reported.goOn (h : Reported w) (hs : Sound w) (hp : w.closing t = some p)
    (hlock : p ≠ .lock) (hclear : p ≠ .clear) (hq : q ≠ some .clear) (hcore : v.core = w.core)
    (hword : v.info.word = w.info.word)
    (hmutex : v.info.mutex = if q = none then none else w.info.mutex)
    (hloaded : v.loaded = w.loaded)
    (hlog : v.log = w.log ∨ ∃ s, v.log = w.log ++ [.forceClose s])
    (hsettled : t = .core → (q.elim CorePoint.detect .close).Settled →
      w.info.word.deviceConnected = false)
    (hsends : q = some .send → w.info.word.deviceConnected = true) :
    Reported (v.moveTo t q) := by
  obtain ⟨-, hholder⟩ := hs.holderPoint hp hlock
  have hevents := h.events
  simp only [Cs2State.unreported, hholder, ne_eq, Option.some.injEq, hclear, not_false_eq_true,
    and_true] at hevents
  refine h.moveTo hs hp hlock hcore hmutex (hword ▸ id) (hword ▸ hsettled)
    (fun hq' => hword ▸ hsends (hq'.resolve_right hq)) ?_ (by rw [hloaded, hword]; exact h.current)
  rcases hlog with hlog | ⟨s, hlog⟩ <;> simpa [hlog, hword, hq] using hevents

/-- The mutex is taken. -/
theorem Reported.lock (h : Reported w) (hmutex : w.info.mutex = none) :
    Reported ({ w with info := { w.info with mutex := some t } }.moveTo t (some .test)) := by
  refine h.frame (fun p hlock htest => ?_) (by simp) ⟨[], by simp, by simp⟩ (fun hs => ?_)
    (by simpa using h.current)
  · simp [Cs2State.holderPoint, closing_moveTo, hmutex, Ne.symm htest]
  · rcases core_moveTo (q := some .test) with hc | ⟨-, hc⟩ <;> rw [hc] at hs
    · exact hs
    · simp [CorePoint.Settled] at hs

/-- **Every point of the function.** -/
theorem Reported.sessionClose (h : Reported w) (hs : Sound w) (hp : w.closing t = some p)
    (hapart : p = .clear → ∀ x ∈ w.loaded, x.1 = t)
    (hstep : w.yangipcCs2SessionClose t p = some w') : Reported w' := by
  by_cases hlock : p = .lock
  · subst hlock
    obtain ⟨hmutex, rfl⟩ := by
      simpa only [Cs2State.yangipcCs2SessionClose, Option.ite_none_right_eq_some,
        Option.some.injEq] using hstep
    exact h.lock hmutex
  obtain ⟨-, hholder⟩ := hs.holderPoint hp hlock
  have hevents := h.events
  have hsends := h.sends
  simp only [Cs2State.unreported, hholder] at hevents hsends
  have hsettled (ht : t = .core) (hset : (CorePoint.close p).Settled) :
      w.info.word.deviceConnected = false := by
    subst ht
    exact h.settled (CorePoint.eq_close hp ▸ hset)
  cases p with
  | lock => exact absurd rfl hlock
  | test =>
    simp only [Cs2State.yangipcCs2SessionClose] at hstep
    split at hstep <;> obtain rfl := Option.some.inj hstep
    all_goals
      exact h.goOn hs hp (by simp) (by simp) (by simp) rfl rfl (by simp) rfl (.inl rfl)
        (by simp [CorePoint.Settled]) (by simp)
  | force =>
    obtain rfl := Option.some.inj hstep
    exact h.goOn hs hp (by simp) (by simp) (by simp) rfl rfl
      (by simp [Cs2State.forceClose, Cs2State.emit]) rfl (.inr ⟨_, rfl⟩)
      (by simp [CorePoint.Settled]) (by simp)
  | reset =>
    obtain rfl := Option.some.inj hstep
    exact h.goOn hs hp (by simp) (by simp) (by simp) rfl rfl (by simp) rfl (.inl rfl)
      (by simp [CorePoint.Settled]) (by simp)
  | connected =>
    simp only [Cs2State.yangipcCs2SessionClose] at hstep
    split at hstep <;> obtain rfl := Option.some.inj hstep
    · rename_i hconnected
      exact h.goOn hs hp (by simp) (by simp) (by simp) rfl rfl (by simp) rfl (.inl rfl)
        (by simp [CorePoint.Settled]) fun _ => by simpa using hconnected
    · rename_i hconnected
      exact h.goOn hs hp (by simp) (by simp) (by simp) rfl rfl (by simp) rfl (.inl rfl)
        (fun _ _ => by simpa using hconnected) (by simp)
  -- the loss counts as reported from here on; the flag is cleared at the next point
  | send =>
    obtain rfl := Option.some.inj hstep
    have hconnected := hsends (.inl rfl)
    refine h.moveTo hs hp (by simp) rfl (by simp [Cs2State.emit]) id
      (by simp [CorePoint.Settled]) (by simpa [Cs2State.emit] using hconnected) ?_ h.current
    simpa [Cs2State.emit, hconnected] using hevents
  | clear =>
    obtain rfl := Option.some.inj hstep
    rcases writeBit_cases with ⟨hword, heq⟩ | ⟨word, hword, heq⟩
    · exact heq ▸ h.load (hapart rfl) hword
    · rw [heq]
      refine h.moveTo hs hp (by simp) rfl (by simp) (fun _ => rfl) (fun _ _ => rfl) (by simp)
        ?_ (.inl (h.copy hword).2)
      simpa using hevents
  | unlock =>
    obtain rfl := Option.some.inj hstep
    exact h.goOn hs hp (by simp) (by simp) (by simp) rfl rfl (by simp) rfl (.inl rfl)
      (fun ht _ => hsettled ht rfl) (by simp)

/-- **One step of a receiver.** -/
theorem Reported.receiver {i : ℕ} {ok : Bool} (h : Reported w) (hs : Sound w)
    (hapart : w.Apart (.receiver i ok)) (hstep : w.receiverNext i ok = some w') : Reported w' := by
  cases hs.receiver_cases hstep with
  | close p closing step =>
    refine h.sessionClose hs closing (fun hclear => hapart ?_) step
    have hr : (w.receivers i).closing = some p := closing
    cases hw : w.receivers i <;> simp_all [ReceiverPoint.closing, ReceiverPoint.writes,
      ClosePoint.writes]
  | load writes unloaded loads => exact loads ▸ h.load (hapart writes) unloaded
  | goto info loaded r goes outside enters word mutex =>
    obtain ⟨hconnected, hcurrent⟩ := h.word word
    exact goes ▸ h.frame (fun p hlock _ => holderPoint_receiverGoto outside enters mutex hlock)
      hconnected ⟨[], by simp, by simp⟩ id hcurrent

/-- A connection is announced. -/
theorem Reported.connect (h : Reported w) {s : ℤ} {copy : Cs2Word} (hcore : w.core = .connect s)
    (hcopy : w.loaded.lookup .core = some copy) :
    Reported { w with
      info := { w.info with word := { copy with deviceConnected := true } }
      loaded := w.loaded.filter fun x => x.1 ≠ .core
      log := w.log ++ [.connected]
      core := .imgOn s } := by
  obtain ⟨-, hempty⟩ := h.copy hcopy
  have hdown := h.settled (by rw [hcore]; trivial)
  have hholder : Cs2State.holderPoint { w with
      info := { w.info with word := { copy with deviceConnected := true } }
      loaded := w.loaded.filter fun x => x.1 ≠ .core
      log := w.log ++ [.connected]
      core := .imgOn s } = w.holderPoint :=
    Cs2State.holderPoint_eq (by rw [hcore]; rfl) rfl rfl
  -- the last loss has been reported, so nobody is about to clear the flag that is set here
  have hclear : w.holderPoint ≠ some .clear := fun hp =>
    Bool.false_ne_true (hdown.symm.trans (h.sends (.inr hp)))
  refine ⟨False.elim, fun _ => rfl, ?_, .inl hempty⟩
  have hevents := h.events
  rw [Cs2State.unreported, if_neg (by simp [hdown])] at hevents
  rw [Cs2State.unreported, hholder, if_pos ⟨rfl, hclear⟩]
  simpa using hevents

/-- **One step of the core.** -/
theorem Reported.core {answer : Cs2State.PpcsAnswer} (h : Reported w) (hs : Sound w)
    (hapart : w.Apart (.core answer)) (hstep : w.coreNext answer = some w') : Reported w' := by
  cases hs.core_cases hstep with
  | close p closing step =>
    refine h.sessionClose hs closing (fun hclear => hapart ?_) step
    rw [CorePoint.eq_close closing, hclear]
    rfl
  | load writes unloaded loads => exact loads ▸ h.load (hapart writes) unloaded
  | goto word loaded e c goes quiet written silent =>
    obtain ⟨hconnected, hcurrent⟩ := h.word written
    have hlog : Cs2Event.connected ∉ e ∧ Cs2Event.disconnected ∉ e := by
      rcases silent with rfl | rfl <;> simp
    exact goes ▸ h.frame (fun p hlock _ => holderPoint_coreGoto quiet hlock) hconnected
      ⟨e, rfl, hlog⟩ quiet.settled hcurrent
  | connect s copy here had goes => exact goes ▸ h.connect here had
  | again same => exact same ▸ h
  | listen ret asked here goes =>
    obtain ⟨l, s, heq, hcases⟩ := cs2P2pListen_cases w ret
    have hlog : Cs2Event.connected ∉ l ∧ Cs2Event.disconnected ∉ l := by
      rcases hcases with ⟨-, rfl⟩ | ⟨-, ⟨-, rfl⟩ | ⟨-, rfl⟩⟩ <;> simp
    rw [goes, heq]
    have hholder : Cs2State.holderPoint { w with
        log := w.log ++ l, sessions := (CorePoint.store s).pending ++ w.sessions,
        core := .store s } = w.holderPoint :=
      Cs2State.holderPoint_eq (by rw [here]; rfl) rfl rfl
    exact h.frame (fun p _ _ => by rw [hholder]) rfl ⟨l, rfl, hlog⟩
      (fun _ => by rw [here]; trivial) h.current
  | store s here goes =>
    subst goes
    exact h.frame (fun p _ _ => by rw [holderPoint_storeSession here]) rfl
      ⟨[], (List.append_nil _).symm, by simp⟩ (fun _ => by rw [here]; trivial) h.current

/-- **One step of a call.** -/
theorem Reported.turn {i : ℕ} {ok : Bool} (h : Reported w) (hcreated : Created w)
    (hstep : w.turnNext i ok = some w') : Reported w' := by
  rcases turnNext_cases hstep with ⟨info, p, rfl, hmutex, hword, -⟩ | ⟨hcreate, rfl⟩
  · refine h.frame (fun p _ _ => ?_) (congrArg Cs2Word.deviceConnected hword) ⟨[], by simp, by simp⟩
      id (hword ▸ h.current)
    rw [Cs2State.holderPoint, Cs2State.holderPoint, hmutex]
    exact Iff.rfl
  · have habsent := hcreated i (by rw [hcreate]; trivial)
    refine h.frame (fun p hlock _ => ?_) rfl ⟨[], by simp, by simp⟩ id h.current
    have hholder : Cs2State.holderPoint { w with
        receivers := Function.update w.receivers i .start } = some p ↔ w.holderPoint = some p :=
      holderPoint_receiverGoto (by rw [habsent]; rfl) (.inl rfl) (.keep _ False.elim) hlock
    exact hholder

theorem Reported.next {a : Cs2State.Action} (h : Reported w) (hs : Sound w) (hcreated : Created w)
    (hapart : w.Apart a) (hstep : w.next a = some w') : Reported w' := by
  cases a with
  | core answer => exact h.core hs hapart hstep
  | receiver i ok => exact h.receiver hs hapart hstep
  | turn i ok => exact h.turn hcreated hstep

theorem reported_boot : Reported Cs2State.boot where
  settled _ := rfl
  sends h := by simp [Cs2State.boot, Cs2State.holderPoint] at h
  events := rfl
  current := .inl rfl

/-- The invariant in every state that is reached. -/
theorem reported_of_reaches
    (h : Reaches (Guarded Cs2State.step fun w a => w.Fresh a ∧ w.Apart a) Cs2State.boot w) :
    Reported w :=
  (h.invariant (P := fun w => (Sound w ∧ Created w) ∧ Reported w)
    ⟨⟨sound_boot, fun _ _ => rfl⟩, reported_boot⟩ fun _ _ _ ⟨⟨hs, hcreated⟩, hw⟩ hstep =>
      ⟨⟨hs.next hcreated hstep.1.1 hstep.2, hcreated.next hs hstep.2⟩,
        hw.next hs hcreated hstep.1.2 hstep.2⟩).2

/-! ## Every run -/

/-- **Every connection is reported as lost once.** In every run in which a thread loads the word
only while no other is about to store it, the losses that were reported are as many as the
connections that were announced, but for one connection at most; when the core listens again there
is no such connection. -/
theorem disconnected_once (w : Cs2State)
    (h : Reaches (Guarded Cs2State.step fun w a => w.Fresh a ∧ w.Apart a) Cs2State.boot w) :
    w.log.count .connected = w.log.count .disconnected + w.unreported ∧
      (w.core = .listen ∨ w.core = .ended →
        w.log.count .connected = w.log.count .disconnected) := by
  have hreported := reported_of_reaches h
  refine ⟨hreported.events, fun hcore => ?_⟩
  have hdown : w.info.word.deviceConnected = false := by
    rcases hcore with hcore | hcore <;> exact hreported.settled (by rw [hcore]; trivial)
  have hevents := hreported.events
  rwa [Cs2State.unreported, if_neg (by simp [hdown]), Nat.add_zero] at hevents

/-- Two connections are reported as lost. -/
theorem disconnected_once_both : ∃ w : Cs2State, w.core = .listen ∧
    w.log.count .connected = 2 ∧ w.log.count .disconnected = 2 := by
  obtain ⟨w, hrun, hcore, -, hlog⟩ := exists_lost_session
  have hconnected : w.log.count .connected = 2 := by rw [hlog]; rfl
  exact ⟨w, hcore, hconnected,
    ((disconnected_once w hrun).2 (.inl hcore)).symm.trans hconnected⟩

/-- **A loss may be missed**: a receiver loads the word when it has reported the first loss, and
stores it when the second connection has been announced. -/
theorem losses_may_be_missed :
    ∃ w, Reaches (Guarded Cs2State.step Cs2State.Fresh) Cs2State.boot w ∧ w.core = .listen ∧
      w.log.count .connected = 2 ∧ w.log.count .disconnected = 1 := by
  have hplay : (play Cs2State.move (fun w a => decide (w.Fresh a)) (repeated
      [(2, .core (.ok true)), (1, .core (.listen 1)), (7, .core (.ok true)), (4, .turn 0 true),
        (8, .receiver 0 true), (11, .receiver 0 false), (5, .core (.ok false)),
        (1, .core (.ok true)), (1, .core (.listen 2)), (7, .core (.ok true)),
        (1, .receiver 0 false), (7, .core (.ok false)), (1, .core (.ok true))]) .boot).any
      (fun w => w.core = .listen ∧ w.log.count .connected = 2 ∧
        w.log.count .disconnected = 1) = true := by decide +kernel
  obtain ⟨w, hrun, hw⟩ := exists_reaches_of_play (fun _ _ _ _ => next_of_labelled) hplay
  exact ⟨w, hrun.weaken fun _ _ => of_decide_eq_true, of_decide_eq_true hw⟩

end Cs2

end YangIpc
