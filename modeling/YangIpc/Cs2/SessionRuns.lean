import YangIpc.Cs2.SessionClose

/-!
# Runs of the P2P service

What holds of the sessions in every run: who closes them, and which ones stay open.

## Main definitions

* `Created`: a receiver does not exist before its call creates it

## Main results

* `Sound.next`: one step of any thread
* `sessions_closed_once`, `sessions_left_open`: every run
-/

namespace YangIpc

namespace Cs2

open Transition

variable {w w' : Cs2State} {t : Cs2Thread} {q : Option ClosePoint} {p : ClosePoint}

/-! ## The calls that create receivers -/

/-- The call has not created its receiver. -/
def TurnPoint.Early : TurnPoint → Prop
  | absent | test | set | create => True
  | _ => False

/-- A receiver does not exist before its call creates it. -/
def Created (w : Cs2State) : Prop := ∀ i, (w.turns i).Early → w.receivers i = .absent

@[simp] theorem turns_moveTo : (w.moveTo t q).turns = w.turns := by
  cases t <;> cases q <;> rfl

theorem receivers_moveTo {j : ℕ} (hj : t ≠ .receiver j) :
    (w.moveTo t q).receivers j = w.receivers j := by
  cases t with
  | core => cases q <;> rfl
  | receiver i =>
    have hij : j ≠ i := fun hij => hj (hij ▸ rfl)
    cases q <;> exact Function.update_of_ne hij ..

/-- What `yangipc_cs2_session_close` leaves alone. -/
theorem yangipcCs2SessionClose_eq (h : w.yangipcCs2SessionClose t p = some w') :
    w'.turns = w.turns ∧ ∀ j, t ≠ .receiver j → w'.receivers j = w.receivers j := by
  cases p <;> simp only [Cs2State.yangipcCs2SessionClose] at h
  case lock =>
    obtain ⟨-, h⟩ := Option.ite_none_right_eq_some.mp h
    exact Option.some.inj h ▸ ⟨turns_moveTo, fun j hj => receivers_moveTo hj⟩
  case test => split at h <;> exact Option.some.inj h ▸ ⟨turns_moveTo, fun j => receivers_moveTo⟩
  case connected =>
    split at h <;> exact Option.some.inj h ▸ ⟨turns_moveTo, fun j => receivers_moveTo⟩
  case clear =>
    obtain rfl := Option.some.inj h
    rcases writeBit_cases with ⟨-, heq⟩ | ⟨word, -, heq⟩ <;> rw [heq]
    · exact ⟨rfl, fun _ _ => rfl⟩
    · exact ⟨turns_moveTo, fun j hj => receivers_moveTo hj⟩
  all_goals exact Option.some.inj h ▸ ⟨turns_moveTo, fun j hj => receivers_moveTo hj⟩

/-- The core creates no receivers. -/
theorem CoreStep.keeps {answer : Cs2State.PpcsAnswer} (h : CoreStep w answer w') :
    w'.turns = w.turns ∧ w'.receivers = w.receivers := by
  cases h with
  | close p closing step =>
    obtain ⟨hturns, hreceivers⟩ := yangipcCs2SessionClose_eq step
    exact ⟨hturns, funext fun j => hreceivers j Cs2Thread.noConfusion⟩
  | load writes unloaded loads => exact loads ▸ ⟨rfl, rfl⟩
  | goto word loaded e c goes => exact goes ▸ ⟨rfl, rfl⟩
  | connect s copy here had goes => exact goes ▸ ⟨rfl, rfl⟩
  | again same => exact same ▸ ⟨rfl, rfl⟩
  | listen ret asked here goes =>
    obtain ⟨l, s, heq, -⟩ := cs2P2pListen_cases w ret
    exact (goes.trans heq) ▸ ⟨rfl, rfl⟩
  | store s here goes => exact goes ▸ ⟨rfl, rfl⟩

/-- A receiver creates no other. -/
theorem ReceiverStep.keeps {i : ℕ} (h : ReceiverStep w i w') :
    w'.turns = w.turns ∧ ∀ j, j ≠ i → w'.receivers j = w.receivers j := by
  cases h with
  | close p closing step =>
    obtain ⟨hturns, hreceivers⟩ := yangipcCs2SessionClose_eq step
    exact ⟨hturns, fun j hji => hreceivers j (by simpa using Ne.symm hji)⟩
  | load writes unloaded loads => exact loads ▸ ⟨rfl, fun _ _ => rfl⟩
  | goto info loaded r goes => exact goes ▸ ⟨rfl, fun j hji => Function.update_of_ne hji ..⟩

theorem ne_absent_of_step {i : ℕ} {ok : Bool} (h : w.receiverNext i ok = some w') :
    w.receivers i ≠ .absent := by
  intro habsent
  simp [Cs2State.receiverNext, habsent] at h

/-- What a call does: it goes on, or it creates its receiver. -/
theorem turnNext_cases {i : ℕ} {ok : Bool} (h : w.turnNext i ok = some w') :
    (∃ (info : Cs2Info) (p : TurnPoint),
      w' = { w with info := info, turns := Function.update w.turns i p } ∧
        info.mutex = w.info.mutex ∧ info.word = w.info.word ∧
        (p.Early → (w.turns i).Early)) ∨
      w.turns i = .create ∧ w' = { w with
        receivers := Function.update w.receivers i .start
        turns := Function.update w.turns i .wait } := by
  unfold Cs2State.turnNext at h
  cases hi : w.turns i with
  | absent =>
    simp only [hi, Option.some.injEq] at h
    exact .inl ⟨_, _, h.symm, rfl, rfl, id⟩
  | test =>
    simp only [hi, Option.some.injEq] at h
    exact .inl ⟨_, _, h.symm, rfl, rfl, fun _ => trivial⟩
  | set =>
    simp only [hi, Option.some.injEq] at h
    exact .inl ⟨_, _, h.symm, rfl, rfl, id⟩
  | create =>
    simp only [hi] at h
    split at h
    · exact .inr ⟨rfl, (Option.some.inj h).symm⟩
    · exact .inl ⟨_, _, (Option.some.inj h).symm, rfl, rfl, fun _ => trivial⟩
  | wait =>
    simp only [hi, Option.ite_none_right_eq_some, Option.some.injEq] at h
    exact .inl ⟨_, _, h.2.symm, rfl, rfl, False.elim⟩
  | returned ok' => simp [hi] at h

/-- **One step of a call.** -/
theorem Sound.turn {i : ℕ} {ok : Bool} (h : Sound w) (hcreated : Created w)
    (hstep : w.turnNext i ok = some w') : Sound w' := by
  rcases turnNext_cases hstep with ⟨info, p, rfl, hmutex, -, -⟩ | ⟨hcreate, rfl⟩
  · refine h.frame (fun u hu => hmutex.trans (h.exclusive u hu)) (fun p _ _ => ?_) rfl rfl rfl
      ⟨[], by simp, by simp⟩ id rfl h.unreached fun _ => id
    rw [Cs2State.holderPoint, Cs2State.holderPoint, hmutex]
    exact Iff.rfl
  -- a call creates a receiver at most once, so the new one takes the place of none
  · have habsent := hcreated i (by rw [hcreate]; trivial)
    have hstart : Sound { w with receivers := Function.update w.receivers i .start } :=
      h.receiverGoto (by rw [habsent]; rfl) (.inl rfl) (.keep _ False.elim)
    exact hstart.frame hstart.exclusive (fun _ _ _ => Iff.rfl) rfl rfl rfl ⟨[], by simp, by simp⟩
      id rfl hstart.unreached fun _ => id

theorem Created.next {a : Cs2State.Action} (h : Created w) (hsound : Sound w)
    (hstep : w.next a = some w') : Created w' := by
  intro j hj
  cases a with
  | core answer =>
    obtain ⟨hturns, hreceivers⟩ := (hsound.core_cases hstep).keeps
    rw [hreceivers]
    exact h j (hturns ▸ hj)
  | receiver i ok =>
    obtain ⟨hturns, hother⟩ := (hsound.receiver_cases hstep).keeps
    -- a receiver that has not been created does not move
    have habsent := h j (hturns ▸ hj)
    rw [hother j fun hji => ne_absent_of_step hstep (hji ▸ habsent), habsent]
  | turn i ok =>
    rcases turnNext_cases hstep with ⟨info, p, rfl, -, -, hearly⟩ | ⟨hcreate, rfl⟩
    · by_cases hji : j = i
      · subst hji
        exact h j (hearly (by simpa using hj))
      · exact h j (by simpa [Function.update_of_ne hji] using hj)
    · by_cases hji : j = i
      · subst hji
        simp [TurnPoint.Early] at hj
      · simpa [Function.update_of_ne hji] using h j (by simpa [Function.update_of_ne hji] using hj)

/-! ## Every run -/

/-- **One step of any thread.** -/
theorem Sound.next {a : Cs2State.Action} (h : Sound w) (hcreated : Created w) (hfresh : w.Fresh a)
    (hstep : w.next a = some w') : Sound w' := by
  cases a with
  | core answer => exact h.core hfresh (h.core_cases hstep)
  | receiver i ok => exact h.receiver (h.receiver_cases hstep)
  | turn i ok => exact h.turn hcreated hstep

theorem sound_boot : Sound Cs2State.boot := by
  have hnot (u : Cs2Thread) : ¬Cs2State.boot.Locked u := by
    cases u <;> exact id
  constructor
  case waits => exact fun _ => .inl rfl
  case counts => exact fun _ _ => rfl
  case sessions => exact .refl []
  case stored => exact fun s hs => CorePoint.noConfusion hs
  case exclusive => exact fun u hu => absurd hu (hnot u)
  all_goals simp [Cs2State.boot, Cs2State.holderPoint]

/-- The invariant in every state that is reached. -/
theorem sound_of_reaches
    (h : Reaches (Guarded Cs2State.step Cs2State.Fresh) Cs2State.boot w) :
    Sound w ∧ Created w :=
  h.invariant (P := fun w => Sound w ∧ Created w) ⟨sound_boot, fun _ _ => rfl⟩
    fun _ _ _ hw hstep => ⟨hw.1.next hw.2 hstep.1 hstep.2, hw.2.next hw.1 hstep.2⟩

/-- **Sessions are closed once.** In every run, `PPCS_ForceClose` is called at most once for every
time the library has returned a session, whoever calls it finds the session open, and no two
threads are in `yangipc_cs2_session_close` behind its lock. -/
theorem sessions_closed_once (w : Cs2State)
    (h : Reaches (Guarded Cs2State.step Cs2State.Fresh) Cs2State.boot w) : ClosedOnce w := by
  have hsound := (sound_of_reaches h).1
  refine ⟨fun s hs => ?_, fun t ht hvalid => hsound.mem_sessions ht hvalid, fun t u ht hu => ?_⟩
  · have hcounts := hsound.counts s hs
    have hone := List.nodup_iff_count_le_one.mp hsound.nodup s
    omega
  · exact Option.some.inj ((hsound.exclusive t ht).symm.trans (hsound.exclusive u hu))

/-- **Which sessions stay open.** An open session is the one that the core is about to store, the
one in `s_current_sessionid`, or one that was stored while a thread was about to reset the id.
When the core listens again, or has ended, only the last are open, and there is none unless
`PPCS_Listen` has failed with a code other than `-1`. -/
theorem sessions_left_open (w : Cs2State)
    (h : Reaches (Guarded Cs2State.step Cs2State.Fresh) Cs2State.boot w) :
    w.sessions.Perm (w.core.pending ++ w.keeping ++ w.overlapped) ∧
      (w.core = .listen ∨ w.core = .ended → w.sessions.Perm w.overlapped) ∧
      (w.overlapped ≠ [] → w.Failed) := by
  have hsound := (sound_of_reaches h).1
  refine ⟨hsound.sessions, fun hcore => ?_, hsound.overlapped⟩
  have hidle : w.core.Waits ∧ w.core.pending = [] := by
    rcases hcore with hcore | hcore <;> rw [hcore] <;> exact ⟨trivial, rfl⟩
  have hkeeping : w.keeping = [] := by
    have hwaits := hsound.waits hidle.1
    -- without a session in the core the stored id is a code, and nothing is kept
    rw [Cs2State.keeping, if_neg]
    omega
  have hsessions := hsound.sessions
  rwa [hidle.2, hkeeping] at hsessions

/-! ## A session that is lost -/

/-- The step an action leads to. -/
def Cs2State.move (w : Cs2State) (a : Cs2State.Action) : Option (Cs2State.Action × Cs2State) :=
  (w.next a).map (a, ·)

instance (w : Cs2State) : (a : Cs2State.Action) → Decidable (w.Fresh a)
  | .core (.listen ret) => inferInstanceAs (Decidable (ret ∉ w.sessions))
  | .core (.ok _) | .receiver _ _ | .turn _ _ => inferInstanceAs (Decidable True)

instance (w : Cs2State) : (a : Cs2State.Action) → Decidable (w.Apart a)
  | .core _ =>
    inferInstanceAs (Decidable (w.core.writes = true → ∀ x ∈ w.loaded, x.1 = .core))
  | .receiver i _ =>
    inferInstanceAs (Decidable ((w.receivers i).writes = true → ∀ x ∈ w.loaded, x.1 = .receiver i))
  | .turn _ _ => inferInstanceAs (Decidable True)

/-- Each action is repeated. -/
def repeated (moves : List (ℕ × Cs2State.Action)) : List Cs2State.Action :=
  moves.flatMap fun move => List.replicate move.1 move.2

/-- A receiver is slow to find that its session is gone, and closes the code of a failed
`PPCS_Listen` instead; when it resets the id, the next session has just been stored. -/
def lostSession : List Cs2State.Action :=
  repeated [(2, .core (.ok true)), (1, .core (.listen 1)), (7, .core (.ok true)),
    (4, .turn 0 true), (8, .receiver 0 true), (10, .core (.ok false)), (1, .core (.ok true)),
    (1, .core (.listen (-17))), (6, .core (.ok true)), (4, .receiver 0 false),
    (1, .core (.listen 5)), (1, .core (.ok true)), (3, .receiver 0 true), (6, .core (.ok true)),
    (8, .core (.ok false)), (1, .core (.ok true))]

/-- What is observed of it. -/
theorem exists_lost_session :
    ∃ w, Reaches (Guarded Cs2State.step fun w a => w.Fresh a ∧ w.Apart a) Cs2State.boot w ∧
      w.core = .listen ∧ w.overlapped = [5] ∧ w.log = [.startResponse, .listened 1, .connected,
        .forceClose 1, .disconnected, .listened (-17), .forceClose (-17), .listened 5, .connected,
        .disconnected] := by
  have hplay : (play Cs2State.move (fun w a => decide (w.Fresh a ∧ w.Apart a)) lostSession
      .boot).any (fun w => w.core = .listen ∧ w.overlapped = [5] ∧ w.log = [.startResponse,
        .listened 1, .connected, .forceClose 1, .disconnected, .listened (-17), .forceClose (-17),
        .listened 5, .connected, .disconnected]) = true := by decide +kernel
  obtain ⟨w, hrun, hw⟩ := exists_reaches_of_play (fun _ _ _ _ => next_of_labelled) hplay
  exact ⟨w, hrun.weaken fun _ _ => of_decide_eq_true, of_decide_eq_true hw⟩

/-- The slow receiver closes what it finds, once. -/
theorem sessions_closed_once_slow :
    ∃ w : Cs2State, w.log.count (.forceClose (-17)) = 1 ∧ w.log.count (.forceClose 1) = 1 ∧
      ClosedOnce w := by
  obtain ⟨w, hrun, -, -, hlog⟩ := exists_lost_session
  exact ⟨w, by rw [hlog]; rfl, by rw [hlog]; rfl,
    sessions_closed_once w (hrun.weaken fun _ _ => And.left)⟩

/-- A session is lost. -/
theorem sessions_left_open_lost : ∃ w : Cs2State, w.core = .listen ∧ w.overlapped = [5] ∧
    w.sessions.Perm [5] ∧ w.Failed := by
  obtain ⟨w, hrun, hcore, hlost, -⟩ := exists_lost_session
  obtain ⟨-, hopen, hfailed⟩ := sessions_left_open w (hrun.weaken fun _ _ => And.left)
  exact ⟨w, hcore, hlost, hlost ▸ hopen (.inl hcore), hfailed (by simp [hlost])⟩

end Cs2

end YangIpc
