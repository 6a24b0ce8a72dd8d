import YangIpc.Cs2.Session
import Mathlib.Data.List.Count
import Mathlib.Data.List.Nodup
import Mathlib.Order.Basic

/-!
# Closing the sessions of the P2P library

The core and the receivers run in any order.  The invariant says who has the mutex, which sessions
are open and where their ids are; every step of the core and of a receiver keeps it.  It says
nothing of the word of the statuses, a bit of which may be lost when two threads write it at once.

## Main definitions

* `Sound`: the invariant
* `ReceiverStep`, `CoreStep`: what a step of a thread does
* `ClosedOnce`, `Cs2State.Failed`: what is promised, and what it takes to lose a session

## Main results

* `Sound.moveTo`, `Sound.sessionClose`: a step in `yangipc_cs2_session_close`
* `Sound.receiver`, `Sound.core`: a step of a thread
-/

namespace YangIpc

namespace Cs2

open Transition

/-! ## Where the threads are -/

/-- The thread has the mutex. -/
def CorePoint.Locked : CorePoint → Prop
  | close p => p ≠ .lock
  | _ => False

/-- The thread has the mutex. -/
def ReceiverPoint.Locked : ReceiverPoint → Prop
  | status | unlock => True
  | close p => p ≠ .lock
  | _ => False

/-- The core has no session: it has closed the last one, and not stored the next. -/
def CorePoint.Waits : CorePoint → Prop
  | connect _ | imgOn _ | audOn _ | read _ | again _ | finishReset => False
  | close p => p = .connected ∨ p = .send ∨ p = .clear ∨ p = .unlock
  | _ => True

/-- The core has reported that the last connection is lost, and not announced the next. -/
def CorePoint.Settled : CorePoint → Prop
  | imgOn _ | audOn _ | read _ | again _ | finishReset => False
  | close p => p = .unlock
  | _ => True

/-- The session that the core is about to store. -/
def CorePoint.pending : CorePoint → List ℤ
  | store session => if 0 ≤ session then [session] else []
  | _ => []

namespace Cs2State

/-- The thread has the mutex. -/
def Locked (w : Cs2State) : Cs2Thread → Prop
  | .core => w.core.Locked
  | .receiver i => (w.receivers i).Locked

/-- The session whose id is stored, if nobody has closed it. -/
def keeping (w : Cs2State) : List ℤ :=
  if 0 ≤ w.currentSessionid ∧ w.holderPoint ≠ some .reset then [w.currentSessionid] else []

/-- `PPCS_Listen` has failed with a code other than `-1`. -/
def Failed (w : Cs2State) : Prop := ∃ ret, .listened ret ∈ w.log ∧ ret < 0 ∧ ret ≠ -1

end Cs2State

/-- A session is force-closed at most once for each time it was opened, and not before; a thread
that is about to close a session finds it open. -/
structure ClosedOnce (w : Cs2State) : Prop where
  counts : ∀ s, 0 ≤ s → w.log.count (.forceClose s) ≤ w.log.count (.listened s) ∧
    w.log.count (.listened s) ≤ w.log.count (.forceClose s) + 1
  isOpen : ∀ t, w.closing t = some .force → 0 ≤ w.currentSessionid →
    w.currentSessionid ∈ w.sessions
  alone : ∀ t u, w.Locked t → w.Locked u → t = u

/-- The invariant. -/
structure Sound (w : Cs2State) : Prop where
  exclusive : ∀ t, w.Locked t → w.info.mutex = some t
  waits : w.core.Waits → w.currentSessionid = -1 ∨ w.currentSessionid < 0 ∧ w.Failed
  unreached : w.core ≠ .finishReset
  stored : ∀ s, w.core = .store s → s = -1 ∨ .listened s ∈ w.log
  nonneg : ∀ s ∈ w.sessions, 0 ≤ s
  nodup : w.sessions.Nodup
  sessions : w.sessions.Perm (w.core.pending ++ w.keeping ++ w.overlapped)
  overlapped : w.overlapped ≠ [] → w.Failed
  forces : w.holderPoint = some .force ∨ w.holderPoint = some .reset →
    w.currentSessionid ≠ -1 ∨ w.Failed
  counts : ∀ s, 0 ≤ s →
    w.log.count (.listened s) = w.log.count (.forceClose s) + w.sessions.count s

variable {w w' v : Cs2State} {t u : Cs2Thread} {q : Option ClosePoint} {p : ClosePoint}

/-! ## Moving in the function -/

theorem CorePoint.locked_of_closing {c : CorePoint} (h : c.closing = some p) (hp : p ≠ .lock) :
    c.Locked := by
  cases c <;> simp_all [CorePoint.closing, CorePoint.Locked]

theorem ReceiverPoint.locked_of_closing {r : ReceiverPoint} (h : r.closing = some p)
    (hp : p ≠ .lock) : r.Locked := by
  cases r <;> simp_all [ReceiverPoint.closing, ReceiverPoint.Locked]

theorem Cs2State.locked_of_closing (h : w.closing t = some p) (hp : p ≠ .lock) : w.Locked t := by
  cases t with
  | core => exact CorePoint.locked_of_closing h hp
  | receiver i => exact ReceiverPoint.locked_of_closing h hp

/-- The owner of the mutex is the thread that has gone on. -/
theorem Sound.holderPoint (h : Sound w) (hp : w.closing t = some p) (hlock : p ≠ .lock) :
    w.info.mutex = some t ∧ w.holderPoint = some p := by
  have hmutex := h.exclusive t (Cs2State.locked_of_closing hp hlock)
  exact ⟨hmutex, by rw [Cs2State.holderPoint, hmutex, Option.bind_some, hp]⟩

@[simp] theorem info_moveTo : (w.moveTo t q).info = w.info := by
  cases t <;> cases q <;> rfl

@[simp] theorem currentSessionid_moveTo :
    (w.moveTo t q).currentSessionid = w.currentSessionid := by
  cases t <;> cases q <;> rfl

@[simp] theorem sessions_moveTo : (w.moveTo t q).sessions = w.sessions := by
  cases t <;> cases q <;> rfl

@[simp] theorem log_moveTo : (w.moveTo t q).log = w.log := by
  cases t <;> cases q <;> rfl

@[simp] theorem loaded_moveTo : (w.moveTo t q).loaded = w.loaded := by
  cases t <;> cases q <;> rfl

@[simp] theorem overlapped_moveTo : (w.moveTo t q).overlapped = w.overlapped := by
  cases t <;> cases q <;> rfl

theorem closing_moveTo : (w.moveTo t q).closing = Function.update w.closing t q := by
  funext u
  cases t with
  | core =>
    cases u with
    | core => cases q <;> rfl
    | receiver j => cases q <;> rfl
  | receiver i =>
    cases u with
    | core => cases q <;> rfl
    | receiver j =>
      by_cases hij : j = i
      · subst hij
        rw [Function.update_self]
        cases q <;> simp [Cs2State.moveTo, Cs2State.closing, ReceiverPoint.closing]
      · rw [Function.update_of_ne (by simpa using hij)]
        cases q <;> simp [Cs2State.moveTo, Cs2State.closing, Function.update_of_ne hij]

/-- A thread that moves has the mutex as long as it has not returned. -/
theorem locked_moveTo (h : (w.moveTo t q).Locked u) :
    (u = t ∧ q ≠ none) ∨ u ≠ t ∧ w.Locked u := by
  cases t with
  | core =>
    cases u with
    | core =>
      refine .inl ⟨rfl, ?_⟩
      rintro rfl
      exact h
    | receiver j => cases q <;> exact .inr ⟨Cs2Thread.noConfusion, h⟩
  | receiver i =>
    cases u with
    | core => cases q <;> exact .inr ⟨Cs2Thread.noConfusion, h⟩
    | receiver j =>
      by_cases hij : j = i
      · subst hij
        refine .inl ⟨rfl, ?_⟩
        rintro rfl
        simp [Cs2State.moveTo, Cs2State.Locked, ReceiverPoint.Locked] at h
      · refine .inr ⟨by simpa using hij, ?_⟩
        cases q <;> simpa [Cs2State.moveTo, Cs2State.Locked, Function.update_of_ne hij] using h

/-- The core is where it was, or it is the thread that moves. -/
theorem core_moveTo : (w.moveTo t q).core = w.core ∨
    t = .core ∧ (w.moveTo t q).core = q.elim .detect .close := by
  cases t with
  | core => cases q <;> exact .inr ⟨rfl, rfl⟩
  | receiver i => cases q <;> exact .inl rfl

/-- A thread in `yangipc_cs2_session_close` is not about to store a session. -/
theorem pending_moveTo (hp : w.closing t = some p) :
    (w.moveTo t q).core.pending = w.core.pending := by
  rcases core_moveTo (w := w) (t := t) (q := q) with h | ⟨rfl, h⟩
  · rw [h]
  · have hcore : w.core.closing = some p := hp
    have hclose : w.core.pending = [] := by
      cases hc : w.core <;> simp_all [CorePoint.closing, CorePoint.pending]
    rw [h, hclose]
    cases q <;> rfl

/-- The owner of the mutex is where the thread has gone. -/
theorem Sound.holderPoint_moveTo (h : Sound w) (hp : w.closing t = some p) (hlock : p ≠ .lock)
    (hmutex : v.info.mutex = if q = none then none else w.info.mutex) :
    (v.moveTo t q).holderPoint = q := by
  obtain ⟨howner, -⟩ := h.holderPoint hp hlock
  rw [Cs2State.holderPoint, info_moveTo, hmutex, closing_moveTo]
  cases q with
  | none => rfl
  | some p' => simp [howner]

/-- **One step in the function**, behind the lock.  `v` is the state with the shared variables
changed, and nobody moved yet. -/
theorem Sound.moveTo (h : Sound w) (hp : w.closing t = some p) (hlock : p ≠ .lock)
    (hcore : v.core = w.core) (hreceivers : v.receivers = w.receivers)
    (hmutex : v.info.mutex = if q = none then none else w.info.mutex)
    (hcurrent : v.currentSessionid = w.currentSessionid ∨ v.currentSessionid = -1)
    (hover : v.overlapped = w.overlapped) (hsub : v.sessions.Sublist w.sessions)
    (hsessions : v.sessions.Perm (w.core.pending ++
      (if 0 ≤ v.currentSessionid ∧ q ≠ some .reset then [v.currentSessionid] else []) ++
      w.overlapped))
    (hwaits : t = .core → (q.elim CorePoint.detect .close).Waits →
      v.currentSessionid = -1 ∨ v.currentSessionid < 0 ∧ w.Failed)
    (hforces : q = some .force ∨ q = some .reset → v.currentSessionid ≠ -1 ∨ v.Failed)
    (hlog : w.log ⊆ v.log)
    (hcounts : ∀ s, 0 ≤ s →
      v.log.count (.listened s) = v.log.count (.forceClose s) + v.sessions.count s) :
    Sound (v.moveTo t q) := by
  obtain ⟨howner, -⟩ := h.holderPoint hp hlock
  have hclosing : v.closing = w.closing := by
    funext u
    cases u with
    | core => exact congrArg CorePoint.closing hcore
    | receiver i => exact congrArg (fun r : ℕ → ReceiverPoint => (r i).closing) hreceivers
  have hlocked : ∀ u, v.Locked u → w.Locked u := by
    intro u hu
    cases u with
    | core => exact (congrArg CorePoint.Locked hcore).mp hu
    | receiver i =>
      exact (congrArg (fun r : ℕ → ReceiverPoint => (r i).Locked) hreceivers).mp hu
  have hholder := h.holderPoint_moveTo hp hlock hmutex
  have hpoint : v.closing t = some p := hclosing ▸ hp
  have hfailed (hw : w.Failed) : (v.moveTo t q).Failed := by
    rw [Cs2State.Failed, log_moveTo]
    exact hw.imp fun _ hret => hret.imp_left (hlog ·)
  refine ⟨fun u hu => ?_, fun hw => ?_, ?_, fun s hs => ?_, ?_, ?_, ?_, ?_, ?_, ?_⟩
  -- the thread that moves has the mutex until it returns
  · rw [info_moveTo, hmutex]
    rcases locked_moveTo hu with ⟨rfl, hne⟩ | ⟨hne, hu⟩
    · rw [if_neg hne, howner]
    · have hother := h.exclusive u (hlocked u hu)
      exact absurd (Option.some.inj (hother.symm.trans howner)) hne
  -- what the core has done changes only if it is the core that moves
  · rw [currentSessionid_moveTo]
    rcases core_moveTo (w := v) (t := t) (q := q) with hc | ⟨ht, hc⟩
    · rw [hc, hcore] at hw
      rcases hcurrent with hcurrent | hcurrent
      · rw [hcurrent]
        exact (h.waits hw).imp_right (And.imp_right hfailed)
      · exact .inl hcurrent
    · exact (hwaits ht (hc ▸ hw)).imp_right (And.imp_right hfailed)
  · rcases core_moveTo (w := v) (t := t) (q := q) with hc | ⟨-, hc⟩
    · rw [hc, hcore]
      exact h.unreached
    · rw [hc]
      cases q <;> exact CorePoint.noConfusion
  · rw [log_moveTo]
    rcases core_moveTo (w := v) (t := t) (q := q) with hc | ⟨-, hc⟩
    · exact (h.stored s (hcore.symm.trans (hc.symm.trans hs))).imp_right (hlog ·)
    · rw [hc] at hs
      cases q <;> exact CorePoint.noConfusion hs
  · rw [sessions_moveTo]
    exact fun s hs => h.nonneg s (hsub.subset hs)
  · rw [sessions_moveTo]
    exact h.nodup.sublist hsub
  -- whether an id is kept depends on the point of the owner, which is now `q`
  · rw [sessions_moveTo, overlapped_moveTo, pending_moveTo hpoint, hcore, Cs2State.keeping,
      currentSessionid_moveTo, hholder, hover]
    exact hsessions
  · rw [overlapped_moveTo, hover]
    exact fun hne => hfailed (h.overlapped hne)
  · rw [hholder, currentSessionid_moveTo, Cs2State.Failed, log_moveTo]
    exact hforces
  · rw [log_moveTo, sessions_moveTo]
    exact hcounts

/-- The id is in `sessions` where a thread is about to close it. -/
theorem Sound.mem_sessions (h : Sound w) (hp : w.closing t = some .force)
    (hvalid : 0 ≤ w.currentSessionid) : w.currentSessionid ∈ w.sessions := by
  obtain ⟨-, hholder⟩ := h.holderPoint hp (by simp)
  refine h.sessions.mem_iff.mpr (List.mem_append_left _ (List.mem_append_right _ ?_))
  rw [Cs2State.keeping, if_pos ⟨hvalid, by simp [hholder]⟩]
  exact List.mem_singleton_self _

/-- A session that is stored is not pending. -/
theorem Sound.pending_of_nonneg (h : Sound w) (hvalid : 0 ≤ w.currentSessionid) :
    w.core.pending = [] := by
  cases hc : w.core with
  | store s =>
    have hwaits := h.waits (by rw [hc]; trivial)
    omega
  | _ => rfl

/-- The library closes the session. -/
theorem Sound.force (h : Sound w) (hp : w.closing t = some .force) :
    Sound ((w.forceClose w.currentSessionid).moveTo t (some .reset)) := by
  obtain ⟨hmutex, hholder⟩ := h.holderPoint hp (by simp)
  have hsub : (w.sessions.erase w.currentSessionid).Sublist w.sessions := List.erase_sublist
  refine h.moveTo hp (by simp) rfl rfl (by simp [Cs2State.forceClose, Cs2State.emit])
    (.inl rfl) rfl hsub ?_ (by simp [CorePoint.Waits]) ?_
    (by simp [Cs2State.forceClose, Cs2State.emit]) ?_
  · show (w.sessions.erase w.currentSessionid).Perm _
    rw [if_neg (by simp), List.append_nil]
    by_cases hvalid : 0 ≤ w.currentSessionid
    -- it was the one that is kept
    · have hsessions := h.sessions
      rw [Cs2State.keeping, if_pos ⟨hvalid, by simp [hholder]⟩,
        h.pending_of_nonneg hvalid] at hsessions
      rw [h.pending_of_nonneg hvalid]
      exact List.erase_cons_head w.currentSessionid w.overlapped ▸
        hsessions.erase w.currentSessionid
    -- it was the code of an error
    · rw [List.erase_of_not_mem fun hmem => hvalid (h.nonneg _ hmem)]
      have hsessions := h.sessions
      rw [Cs2State.keeping, if_neg (fun hkept => hvalid hkept.1), List.append_nil] at hsessions
      exact hsessions
  · exact fun _ => (h.forces (.inl hholder)).imp_right
      (Exists.imp fun _ hret => hret.imp_left (List.mem_append_left _))
  · intro s hs
    show List.count _ (w.log ++ _) = List.count _ (w.log ++ _) + (w.sessions.erase _).count s
    rw [List.count_append, List.count_append, List.count_erase, h.counts s hs]
    by_cases hcurrent : s = w.currentSessionid
    · have hpos := List.count_pos_iff.mpr (h.mem_sessions hp (hcurrent ▸ hs))
      subst hcurrent
      simp
      omega
    · simp [Ne.symm hcurrent]

/-- A step that leaves the sessions as they are. -/
theorem Sound.goOn (h : Sound w) (hp : w.closing t = some p) (hlock : p ≠ .lock)
    (hreset : p ≠ .reset) (hq' : q ≠ some .reset)
    (hv : v = { w with info := v.info, loaded := v.loaded, log := v.log })
    (hmutex : v.info.mutex = if q = none then none else w.info.mutex)
    (hwaits : t = .core → (q.elim CorePoint.detect .close).Waits →
      w.currentSessionid = -1 ∨ w.currentSessionid < 0 ∧ w.Failed)
    (hforces : q = some .force → w.currentSessionid ≠ -1)
    (hlog : v.log = w.log ∨ v.log = w.log ++ [.disconnected]) :
    Sound (v.moveTo t q) := by
  obtain ⟨-, hholder⟩ := h.holderPoint hp hlock
  have hsessions := h.sessions
  rw [Cs2State.keeping, hholder] at hsessions
  rw [hv]
  refine h.moveTo hp hlock rfl rfl hmutex (.inl rfl) rfl (List.Sublist.refl _) ?_ hwaits
    (fun hforce => .inl (hforces (hforce.resolve_right hq'))) ?_ fun s hs => ?_
  · simpa [hq', hreset] using hsessions
  · rcases hlog with hlog | hlog <;> simp [hlog]
  · have hcounts := h.counts s hs
    rcases hlog with hlog | hlog <;> simpa [hlog] using hcounts

/-- A step that changes neither the sessions nor the point of a thread behind the lock. -/
theorem Sound.frame (h : Sound w) (hexclusive : ∀ t, w'.Locked t → w'.info.mutex = some t)
    (hholder : ∀ p, p ≠ .lock → p ≠ .test → (w'.holderPoint = some p ↔ w.holderPoint = some p))
    (hcurrent : w'.currentSessionid = w.currentSessionid) (hsessions : w'.sessions = w.sessions)
    (hover : w'.overlapped = w.overlapped)
    (hlog : ∃ e, w'.log = w.log ++ e ∧ ∀ s, .listened s ∉ e ∧ .forceClose s ∉ e)
    (hwaits : w'.core.Waits → w.core.Waits) (hpending : w'.core.pending = w.core.pending)
    (hunreached : w'.core ≠ .finishReset)
    (hstored : ∀ s, w'.core = .store s → w.core = .store s) : Sound w' := by
  obtain ⟨e, hlog, hquiet⟩ := hlog
  have hsub : w.log ⊆ w'.log := hlog ▸ List.subset_append_left w.log e
  have hfailed (hw : w.Failed) : w'.Failed := hw.imp fun _ hret => hret.imp_left (hsub ·)
  have hreset := hholder .reset (by simp) (by simp)
  -- a stored session is counted by the point `reset` only
  have hkeeping : w'.keeping = w.keeping := by
    simp only [Cs2State.keeping, hcurrent, ne_eq, hreset]
  refine ⟨hexclusive, fun hw => ?_, hunreached, fun s hs => ?_, ?_, ?_, ?_, ?_, ?_, fun s hs => ?_⟩
  · rw [hcurrent]
    exact (h.waits (hwaits hw)).imp_right (And.imp_right hfailed)
  · exact (h.stored s (hstored s hs)).imp_right (hsub ·)
  · rw [hsessions]
    exact h.nonneg
  · rw [hsessions]
    exact h.nodup
  · rw [hsessions, hpending, hkeeping, hover]
    exact h.sessions
  · rw [hover]
    exact fun hne => hfailed (h.overlapped hne)
  · rw [hholder .force (by simp) (by simp), hreset, hcurrent]
    exact fun hforces => (h.forces hforces).imp_right hfailed
  · rw [hlog, hsessions, List.count_append, List.count_append,
      List.count_eq_zero.mpr (hquiet s).1, List.count_eq_zero.mpr (hquiet s).2]
    exact h.counts s hs

/-- The word does not matter. -/
theorem Sound.word {word : Cs2Word} {loaded : List (Cs2Thread × Cs2Word)} (h : Sound w) :
    Sound { w with info := { w.info with word := word }, loaded := loaded } :=
  h.frame h.exclusive (fun _ _ _ => Iff.rfl) rfl rfl rfl ⟨[], by simp, by simp⟩ id rfl h.unreached
    fun _ => id

/-- A bit is written: the word is loaded, or it is stored and the thread goes on. -/
theorem writeBit_cases {set : Cs2Word → Cs2Word} {goOn : Cs2State → Cs2State} :
    w.loaded.lookup t = none ∧
        w.writeBit t set goOn = { w with loaded := (t, w.info.word) :: w.loaded } ∨
      ∃ word, w.loaded.lookup t = some word ∧ w.writeBit t set goOn = goOn { w with
        info := { w.info with word := set word }
        loaded := w.loaded.filter fun x => x.1 ≠ t } := by
  unfold Cs2State.writeBit
  cases hword : w.loaded.lookup t with
  | none => exact .inl ⟨rfl, rfl⟩
  | some word => exact .inr ⟨word, rfl, rfl⟩

/-- The mutex is taken. -/
theorem Sound.lock (h : Sound w) (hp : w.closing t = some .lock) (hmutex : w.info.mutex = none) :
    Sound ({ w with info := { w.info with mutex := some t } }.moveTo t (some .test)) := by
  have hpoint : Cs2State.closing { w with info := { w.info with mutex := some t } } t =
      some .lock := hp
  refine h.frame (fun u hu => ?_) (fun p hlock htest => ?_) (by simp) (by simp) (by simp)
    ⟨[], by simp, by simp⟩ (fun hw => ?_) (pending_moveTo hpoint) (fun hc => ?_) fun s hc => ?_
  · rcases locked_moveTo hu with ⟨rfl, -⟩ | ⟨-, hu⟩
    · simp
    · exact absurd (hmutex.symm.trans (h.exclusive u hu)) (by simp)
  · simp [Cs2State.holderPoint, closing_moveTo, hmutex, Ne.symm htest]
  · rcases core_moveTo (q := some .test) with hc | ⟨-, hc⟩ <;> rw [hc] at hw
    · exact hw
    · simp [CorePoint.Waits] at hw
  · rcases core_moveTo (q := some .test) with hc' | ⟨-, hc'⟩ <;> rw [hc'] at hc
    · exact h.unreached hc
    · exact CorePoint.noConfusion hc
  · rcases core_moveTo (q := some .test) with hc' | ⟨-, hc'⟩ <;> rw [hc'] at hc
    · exact hc
    · exact CorePoint.noConfusion hc

theorem CorePoint.eq_close {c : CorePoint} (h : c.closing = some p) : c = .close p := by
  cases c <;> simp_all [CorePoint.closing]

/-- **Every point of the function.** -/
theorem Sound.sessionClose (h : Sound w) (hp : w.closing t = some p)
    (hstep : w.yangipcCs2SessionClose t p = some w') : Sound w' := by
  -- taking the mutex is the one step that the thread makes without having it
  by_cases hlock : p = .lock
  · subst hlock
    obtain ⟨hmutex, rfl⟩ := by
      simpa only [Cs2State.yangipcCs2SessionClose, Option.ite_none_right_eq_some,
        Option.some.injEq] using hstep
    exact h.lock hp hmutex
  obtain ⟨-, hholder⟩ := h.holderPoint hp hlock
  have hcore (ht : t = .core) : w.core = .close p := by
    subst ht
    exact CorePoint.eq_close hp
  have hwaits (ht : t = .core) := h.waits ∘ (congrArg CorePoint.Waits (hcore ht)).mpr
  cases p with
  | lock => exact absurd rfl hlock
  | test =>
    simp only [Cs2State.yangipcCs2SessionClose] at hstep
    split at hstep <;> obtain rfl := Option.some.inj hstep
    · rename_i hclosed
      exact h.goOn hp (by simp) (by simp) (by simp) rfl (by simp) (fun _ _ => .inl hclosed)
        (by simp) (.inl rfl)
    · rename_i hopen
      exact h.goOn hp (by simp) (by simp) (by simp) rfl (by simp) (by simp [CorePoint.Waits])
        (fun _ => hopen) (.inl rfl)
  | force =>
    obtain rfl := Option.some.inj hstep
    exact h.force hp
  -- the session was closed at the point before, and its id is not kept any more
  | reset =>
    obtain rfl := Option.some.inj hstep
    have hsessions := h.sessions
    rw [Cs2State.keeping, hholder] at hsessions
    refine h.moveTo hp (by simp) rfl rfl (by simp) (.inr rfl) rfl (List.Sublist.refl _) ?_
      (fun _ _ => .inl rfl) (by simp) (List.Subset.refl _) h.counts
    simpa using hsessions
  | connected =>
    simp only [Cs2State.yangipcCs2SessionClose] at hstep
    split at hstep <;> obtain rfl := Option.some.inj hstep
    all_goals
      exact h.goOn hp (by simp) (by simp) (by simp) rfl (by simp)
        (fun ht _ => hwaits ht (.inl rfl)) (by simp) (.inl rfl)
  | send =>
    obtain rfl := Option.some.inj hstep
    exact h.goOn hp (by simp) (by simp) (by simp) rfl (by simp [Cs2State.emit])
      (fun ht _ => hwaits ht (.inr (.inl rfl))) (by simp) (.inr rfl)
  | clear =>
    obtain rfl := Option.some.inj hstep
    rcases writeBit_cases with ⟨-, heq⟩ | ⟨word, -, heq⟩
    · exact heq ▸ h.word
    · rw [heq]
      exact h.goOn hp (by simp) (by simp) (by simp) rfl (by simp)
        (fun ht _ => hwaits ht (.inr (.inr (.inl rfl)))) (by simp) (.inl rfl)
  | unlock =>
    obtain rfl := Option.some.inj hstep
    exact h.goOn hp (by simp) (by simp) (by simp) rfl (by simp)
      (fun ht _ => hwaits ht (.inr (.inr (.inr rfl)))) (by simp) (.inl rfl)

/-! ## The receivers -/

/-- What a receiver does to the mutex when it moves from `r` to `p`. -/
inductive MutexStep (i : ℕ) (r p : ReceiverPoint) : Option Cs2Thread → Option Cs2Thread → Prop
  | keep (mutex : Option Cs2Thread) (locked : p.Locked → r.Locked) : MutexStep i r p mutex mutex
  | take : MutexStep i r p none (some (.receiver i))
  | give (locked : ¬p.Locked) : MutexStep i r p (some (.receiver i)) none

/-- A thread writes nothing in a step, or loads the word, or stores it with a bit of its own. -/
inductive WordStep (w : Cs2State) (t : Cs2Thread) (word : Cs2Word)
    (loaded : List (Cs2Thread × Cs2Word)) : Prop
  | keep (same : word = w.info.word) (same_loaded : loaded = w.loaded)
  | store (copy : Cs2Word) (had : w.loaded.lookup t = some copy)
      (connected : word.deviceConnected = copy.deviceConnected)
      (given : loaded = w.loaded.filter fun x => x.1 ≠ t)

/-- What a step of a receiver does. -/
inductive ReceiverStep (w : Cs2State) (i : ℕ) (w' : Cs2State) : Prop
  | close (p : ClosePoint) (closing : w.closing (.receiver i) = some p)
      (step : w.yangipcCs2SessionClose (.receiver i) p = some w')
  | load (writes : (w.receivers i).writes = true)
      (unloaded : w.loaded.lookup (.receiver i) = none)
      (loads : w' = { w with loaded := (.receiver i, w.info.word) :: w.loaded })
  | goto (info : Cs2Info) (loaded : List (Cs2Thread × Cs2Word)) (r : ReceiverPoint)
      (goes : w' = { w with
        info := info, loaded := loaded, receivers := Function.update w.receivers i r })
      (outside : (w.receivers i).closing = none)
      (enters : r.closing = none ∨ r.closing = some .lock)
      (word : WordStep w (.receiver i) info.word loaded)
      (mutex : MutexStep i (w.receivers i) r w.info.mutex info.mutex)

/-- The point of the owner of the mutex, when a receiver moves outside of
`yangipc_cs2_session_close`. -/
theorem holderPoint_receiverGoto {i : ℕ} {r : ReceiverPoint} {info : Cs2Info}
    {loaded : List (Cs2Thread × Cs2Word)} (hfrom : (w.receivers i).closing = none)
    (hto : r.closing = none ∨ r.closing = some .lock)
    (hmutex : MutexStep i (w.receivers i) r w.info.mutex info.mutex) (hlock : p ≠ .lock) :
    Cs2State.holderPoint { w with
        info := info, loaded := loaded, receivers := Function.update w.receivers i r } = some p ↔
      w.holderPoint = some p := by
  have hself : Cs2State.closing { w with
      info := info, loaded := loaded, receivers := Function.update w.receivers i r }
        (.receiver i) = r.closing :=
    congrArg ReceiverPoint.closing (Function.update_self ..)
  have hother (u : Cs2Thread) (hu : u ≠ .receiver i) : Cs2State.closing { w with
      info := info, loaded := loaded, receivers := Function.update w.receivers i r } u =
        w.closing u := by
    cases u with
    | core => rfl
    | receiver j =>
      have hji : j ≠ i := fun hji => hu (hji ▸ rfl)
      exact congrArg ReceiverPoint.closing (Function.update_of_ne hji ..)
  have hnone : r.closing ≠ some p := by
    rcases hto with hto | hto <;> rw [hto]
    · exact (Option.some_ne_none p).symm
    · exact fun heq => hlock (Option.some.inj heq).symm
  have hnone' : w.closing (.receiver i) ≠ some p := by
    show (w.receivers i).closing ≠ some p
    rw [hfrom]
    exact (Option.some_ne_none p).symm
  show info.mutex.bind _ = some p ↔ w.info.mutex.bind _ = some p
  generalize w.info.mutex = m at hmutex
  generalize info.mutex = m' at hmutex
  cases hmutex with
  | keep mutex locked =>
    cases m with
    | none => exact Iff.rfl
    | some u =>
      by_cases hui : u = .receiver i
      · subst hui
        simp [hself, hnone, hnone']
      · simp [hother u hui]
  | take => simp [hself, hnone]
  | give locked => simp [hnone']

/-- A receiver moves outside of `yangipc_cs2_session_close`. -/
theorem Sound.receiverGoto {i : ℕ} {r : ReceiverPoint} {info : Cs2Info}
    {loaded : List (Cs2Thread × Cs2Word)} (h : Sound w)
    (hfrom : (w.receivers i).closing = none) (hto : r.closing = none ∨ r.closing = some .lock)
    (hmutex : MutexStep i (w.receivers i) r w.info.mutex info.mutex) :
    Sound { w with
      info := info, loaded := loaded, receivers := Function.update w.receivers i r } := by
  refine h.frame (fun u hu => ?_)
    (fun p hlock _ => holderPoint_receiverGoto hfrom hto hmutex hlock) rfl rfl rfl
    ⟨[], by simp, by simp⟩ id rfl h.unreached fun _ => id
  -- who has the mutex
  have hlocked : u = .receiver i ∧ r.Locked ∨ u ≠ .receiver i ∧ w.info.mutex = some u := by
    by_cases hui : u = .receiver i
    · subst hui
      exact .inl ⟨rfl, by simpa [Cs2State.Locked] using hu⟩
    · refine .inr ⟨hui, h.exclusive u ?_⟩
      cases u with
      | core => exact hu
      | receiver j =>
        have hji : j ≠ i := fun hji => hui (hji ▸ rfl)
        simpa [Cs2State.Locked, Function.update_of_ne hji] using hu
  show info.mutex = some u
  rcases hlocked with ⟨rfl, hlocked⟩ | ⟨hui, hmutexu⟩
  · generalize hm : w.info.mutex = m at hmutex
    generalize info.mutex = m' at hmutex
    cases hmutex with
    | keep mutex locked => exact hm ▸ h.exclusive _ (locked hlocked)
    | take => rfl
    | give locked => exact absurd hlocked locked
  · rw [hmutexu] at hmutex
    generalize info.mutex = m' at hmutex
    cases hmutex with
    | keep mutex locked => rfl
    | give locked => exact absurd rfl hui

/-- A receiver writes a bit that is not `device_connected`. -/
theorem receiverStep_write {i : ℕ} {set : Cs2Word → Cs2Word} {r : ReceiverPoint}
    (hwrites : (w.receivers i).writes = true) (hfrom : (w.receivers i).closing = none)
    (hto : r.closing = none) (hset : ∀ word, (set word).deviceConnected = word.deviceConnected)
    (hlocked : r.Locked → (w.receivers i).Locked) :
    ReceiverStep w i (w.writeBit (.receiver i) set
      fun w => { w with receivers := Function.update w.receivers i r }) := by
  rcases writeBit_cases (w := w) with ⟨hword, heq⟩ | ⟨word, hword, heq⟩
  · exact .load hwrites hword heq
  · exact .goto _ _ r heq hfrom (.inl hto) (.store word hword (hset word) rfl) (.keep _ hlocked)

/-- A receiver goes on without a word or the mutex. -/
theorem receiverStep_goto {i : ℕ} {r : ReceiverPoint} {info : Cs2Info}
    (hfrom : (w.receivers i).closing = none) (hto : r.closing = none ∨ r.closing = some .lock)
    (hword : info.word = w.info.word) (hmutex : info.mutex = w.info.mutex)
    (hlocked : r.Locked → (w.receivers i).Locked) :
    ReceiverStep w i { w with
      info := info, receivers := Function.update w.receivers i r } :=
  .goto info w.loaded r rfl hfrom hto (.keep hword rfl) (hmutex ▸ .keep _ hlocked)

/-- **What a receiver does.** -/
theorem Sound.receiver_cases {i : ℕ} {ok : Bool} (h : Sound w)
    (hstep : w.receiverNext i ok = some w') : ReceiverStep w i w' := by
  unfold Cs2State.receiverNext at hstep
  cases hr : w.receivers i with
  | absent => simp [hr] at hstep
  | ended => simp [hr] at hstep
  | close p =>
    rw [hr] at hstep
    exact .close p (congrArg ReceiverPoint.closing hr) hstep
  | lock =>
    simp only [hr, Option.ite_none_right_eq_some, Option.some.injEq] at hstep
    obtain ⟨hmutex, rfl⟩ := hstep
    refine .goto _ _ _ rfl (by rw [hr]; rfl) (.inl rfl) (.keep rfl rfl) ?_
    rw [hmutex]
    exact .take
  -- the receiver gives back the mutex that it took
  | unlock =>
    simp only [hr, Option.some.injEq] at hstep
    subst hstep
    have hmutex : w.info.mutex = some (.receiver i) :=
      h.exclusive (.receiver i) (by rw [Cs2State.Locked, hr]; trivial)
    refine .goto _ _ _ rfl (by rw [hr]; rfl) (.inl rfl) (.keep rfl rfl) ?_
    rw [hmutex]
    exact .give id
  | status =>
    simp only [hr, Option.some.injEq] at hstep
    exact hstep ▸ receiverStep_write (by rw [hr]; rfl) (by rw [hr]; rfl) rfl (fun _ => rfl)
      fun _ => by rw [hr]; trivial
  | statusOff =>
    simp only [hr, Option.some.injEq] at hstep
    exact hstep ▸ receiverStep_write (by rw [hr]; rfl) (by rw [hr]; rfl) rfl (fun _ => rfl)
      False.elim
  | signal | runningOff =>
    simp only [hr, Option.some.injEq] at hstep
    exact hstep ▸ receiverStep_goto (by rw [hr]; rfl) (.inl rfl) rfl rfl False.elim
  | start | loop | test | again =>
    simp only [hr, Option.some.injEq] at hstep
    refine hstep ▸ receiverStep_goto (by rw [hr]; rfl) (.inl ?_) rfl rfl ?_ <;> split
    all_goals first | rfl | exact False.elim
  | read =>
    simp only [hr, Option.some.injEq] at hstep
    refine hstep ▸ receiverStep_goto (by rw [hr]; rfl) ?_ rfl rfl ?_ <;> split
    · exact .inl rfl
    · exact .inr rfl
    · exact False.elim
    · exact fun hlocked => absurd rfl hlocked

/-- **One step of a receiver.** -/
theorem Sound.receiver {i : ℕ} (h : Sound w) (hstep : ReceiverStep w i w') : Sound w' := by
  cases hstep with
  | close p closing step => exact h.sessionClose closing step
  | load writes unloaded loads => exact loads ▸ h.word
  | goto info loaded r goes outside enters word mutex =>
    exact goes ▸ h.receiverGoto outside enters mutex

/-! ## The core -/

/-- A move of the core that leaves the sessions as they are. -/
structure CorePoint.Quiet (c c' : CorePoint) : Prop where
  left : c.closing = none
  entered : c'.closing = none ∨ c'.closing = some .lock
  waits : c'.Waits → c.Waits
  settled : c'.Settled → c.Settled
  pending : c'.pending = c.pending
  unreached : c' ≠ .finishReset
  stored : ∀ s, c' ≠ .store s

theorem CorePoint.Quiet.outside {c c' : CorePoint}
    (h : c ∈ [CorePoint.start, .detect, .imgOff, .audOff, .finish])
    (h' : c' ∈ [CorePoint.detect, .listen, .audOff, .finish, .ended]) : c.Quiet c' := by
  have hidle : c.closing = none ∧ c.Waits ∧ c.Settled ∧ c.pending = [] := by
    simp only [List.mem_cons, List.not_mem_nil, or_false] at h
    rcases h with rfl | rfl | rfl | rfl | rfl <;> exact ⟨rfl, trivial, trivial, rfl⟩
  obtain ⟨hleft, hwaits, hsettled, hpending⟩ := hidle
  simp only [List.mem_cons, List.not_mem_nil, or_false] at h'
  rcases h' with rfl | rfl | rfl | rfl | rfl <;>
    exact ⟨hleft, .inl rfl, fun _ => hwaits, fun _ => hsettled, hpending.symm,
      CorePoint.noConfusion, fun _ => CorePoint.noConfusion⟩

theorem CorePoint.Quiet.inside {c c' : CorePoint} {s : ℤ}
    (h : c ∈ [CorePoint.connect s, .imgOn s, .audOn s, .read s, .again s])
    (h' : c' ∈ [CorePoint.imgOn s, .audOn s, .read s, .again s, .close .lock]) : c.Quiet c' := by
  have hbusy : c.closing = none ∧ c.pending = [] := by
    simp only [List.mem_cons, List.not_mem_nil, or_false] at h
    rcases h with rfl | rfl | rfl | rfl | rfl <;> exact ⟨rfl, rfl⟩
  obtain ⟨hleft, hpending⟩ := hbusy
  simp only [List.mem_cons, List.not_mem_nil, or_false] at h'
  rcases h' with rfl | rfl | rfl | rfl | rfl
  · exact ⟨hleft, .inl rfl, False.elim, False.elim, hpending.symm, CorePoint.noConfusion,
      fun _ => CorePoint.noConfusion⟩
  · exact ⟨hleft, .inl rfl, False.elim, False.elim, hpending.symm, CorePoint.noConfusion,
      fun _ => CorePoint.noConfusion⟩
  · exact ⟨hleft, .inl rfl, False.elim, False.elim, hpending.symm, CorePoint.noConfusion,
      fun _ => CorePoint.noConfusion⟩
  · exact ⟨hleft, .inl rfl, False.elim, False.elim, hpending.symm, CorePoint.noConfusion,
      fun _ => CorePoint.noConfusion⟩
  · exact ⟨hleft, .inr rfl, by simp [CorePoint.Waits], by simp [CorePoint.Settled],
      hpending.symm, CorePoint.noConfusion, fun _ => CorePoint.noConfusion⟩

/-- What a step of the core does.  It goes on quietly to `c`, with the events `e` that are none of
the library. -/
inductive CoreStep (w : Cs2State) (answer : Cs2State.PpcsAnswer) (w' : Cs2State) : Prop
  | close (p : ClosePoint) (closing : w.closing .core = some p)
      (step : w.yangipcCs2SessionClose .core p = some w')
  | load (writes : w.core.writes = true) (unloaded : w.loaded.lookup .core = none)
      (loads : w' = { w with loaded := (.core, w.info.word) :: w.loaded })
  | goto (word : Cs2Word) (loaded : List (Cs2Thread × Cs2Word)) (e : List Cs2Event)
      (c : CorePoint)
      (goes : w' = { w with
        info := { w.info with word := word }, loaded := loaded, log := w.log ++ e, core := c })
      (quiet : w.core.Quiet c)
      (written : WordStep w .core word loaded) (silent : e = [] ∨ e = [.startResponse])
  | connect (s : ℤ) (copy : Cs2Word) (here : w.core = .connect s)
      (had : w.loaded.lookup .core = some copy)
      (goes : w' = { w with
        info := { w.info with word := { copy with deviceConnected := true } }
        loaded := w.loaded.filter fun x => x.1 ≠ .core
        log := w.log ++ [.connected]
        core := .imgOn s })
  | again (same : w' = w)
  | listen (ret : ℤ) (asked : answer = .listen ret) (here : w.core = .listen)
      (goes : w' = { (w.cs2P2pListen ret).1 with core := .store (w.cs2P2pListen ret).2 })
  | store (s : ℤ) (here : w.core = .store s) (goes : w' = w.storeSession s)

/-- The point of the owner of the mutex, when the core moves outside of
`yangipc_cs2_session_close`. -/
theorem holderPoint_coreGoto {c : CorePoint} {word : Cs2Word}
    {loaded : List (Cs2Thread × Cs2Word)} {log : List Cs2Event} (hquiet : w.core.Quiet c)
    (hlock : p ≠ .lock) :
    Cs2State.holderPoint { w with
        info := { w.info with word := word }, loaded := loaded, log := log, core := c } = some p ↔
      w.holderPoint = some p := by
  show w.info.mutex.bind _ = some p ↔ w.info.mutex.bind _ = some p
  cases w.info.mutex with
  | none => exact Iff.rfl
  | some u =>
    cases u with
    | receiver i => exact Iff.rfl
    | core =>
      show c.closing = some p ↔ w.core.closing = some p
      rw [hquiet.left]
      rcases hquiet.entered with hto | hto <;> simp [hto, Ne.symm hlock]

/-- The core moves outside of `yangipc_cs2_session_close`. -/
theorem Sound.coreGoto {c : CorePoint} {word : Cs2Word} {loaded : List (Cs2Thread × Cs2Word)}
    {e : List Cs2Event} (h : Sound w) (hquiet : w.core.Quiet c)
    (hlog : ∀ s, .listened s ∉ e ∧ .forceClose s ∉ e) :
    Sound { w with
      info := { w.info with word := word }, loaded := loaded, log := w.log ++ e, core := c } := by
  refine h.frame (fun u hu => ?_) (fun p hlock _ => holderPoint_coreGoto hquiet hlock) rfl rfl rfl
    ⟨e, rfl, hlog⟩ hquiet.waits hquiet.pending hquiet.unreached
    fun s hs => absurd hs (hquiet.stored s)
  show w.info.mutex = some u
  cases u with
  | core =>
    have hentered := hquiet.entered
    cases c <;> simp_all [Cs2State.Locked, CorePoint.Locked, CorePoint.closing]
  | receiver i => exact h.exclusive (.receiver i) hu

/-- The core does not own the mutex outside of `yangipc_cs2_session_close`; the point of the owner
does not depend on the core. -/
theorem Cs2State.holderPoint_eq (hcore : v.core.closing = w.core.closing)
    (hreceivers : v.receivers = w.receivers) (hmutex : v.info.mutex = w.info.mutex) :
    v.holderPoint = w.holderPoint := by
  have hclosing : v.closing = w.closing := by
    funext u
    cases u with
    | core => exact hcore
    | receiver i => exact congrArg (fun r : ℕ → ReceiverPoint => (r i).closing) hreceivers
  rw [Cs2State.holderPoint, Cs2State.holderPoint, hmutex, hclosing]

/-- The library returns a session to store, or a code. -/
theorem Sound.goStore {l : List Cs2Event} {s : ℤ} (h : Sound w) (hcore : w.core = .listen)
    (hv : v = { w with
      log := w.log ++ l, sessions := (CorePoint.store s).pending ++ w.sessions, core := .store s })
    (hstored : s = -1 ∨ .listened s ∈ l) (hfresh : s ∉ w.sessions)
    (hcounts : ∀ r, 0 ≤ r →
      l.count (.listened r) = l.count (.forceClose r) + (CorePoint.store s).pending.count r) :
    Sound v := by
  have hholder : v.holderPoint = w.holderPoint := by
    rw [hv]
    exact Cs2State.holderPoint_eq (by rw [hcore]; rfl) rfl rfl
  have hfailed (hw : w.Failed) : v.Failed := by
    rw [hv]
    exact hw.imp fun _ hret => hret.imp_left (List.mem_append_left l)
  subst hv
  have hpending : ∀ r ∈ (CorePoint.store s).pending, r = s ∧ 0 ≤ r := by
    intro r hr
    rw [CorePoint.pending] at hr
    split at hr
    · rename_i hs
      obtain rfl := List.mem_singleton.mp hr
      exact ⟨rfl, hs⟩
    · exact absurd hr List.not_mem_nil
  have hnone : w.core.pending = [] := by rw [hcore]; rfl
  refine ⟨fun u hu => ?_, fun _ => ?_, CorePoint.noConfusion, fun r hr => ?_,
    fun r hr => ?_, ?_, ?_, fun hne => hfailed (h.overlapped hne), ?_, fun r hr => ?_⟩
  · cases u with
    | core => exact False.elim hu
    | receiver i => exact h.exclusive (.receiver i) hu
  · exact (h.waits (by rw [hcore]; trivial)).imp_right (And.imp_right hfailed)
  · obtain rfl := CorePoint.store.inj hr
    exact hstored.imp_right (List.mem_append_right w.log)
  · rcases List.mem_append.mp hr with hr | hr
    · exact (hpending r hr).2
    · exact h.nonneg r hr
  · refine List.nodup_append'.mpr ⟨?_, h.nodup, fun r hr hmem => ?_⟩
    · rw [CorePoint.pending]
      split
      · exact List.nodup_singleton s
      · exact List.nodup_nil
    · exact hfresh ((hpending r hr).1 ▸ hmem)
  · have hsessions := h.sessions
    rw [hnone, List.nil_append] at hsessions
    rw [Cs2State.keeping, hholder, List.append_assoc]
    exact hsessions.append_left _
  · rw [hholder]
    exact fun hforces => (h.forces hforces).imp_right hfailed
  · have hold := h.counts r hr
    have hnew := hcounts r hr
    rw [List.count_append, List.count_append, List.count_append]
    omega

/-- `cs2_p2p_listen` adds the new session, or closes it at once. -/
theorem cs2P2pListen_cases (w : Cs2State) (ret : ℤ) : ∃ (l : List Cs2Event) (s : ℤ),
    { (w.cs2P2pListen ret).1 with core := .store (w.cs2P2pListen ret).2 } = { w with
      log := w.log ++ l, sessions := (CorePoint.store s).pending ++ w.sessions, core := .store s } ∧
    (s = ret ∧ l = [.listened ret] ∨
      s = -1 ∧ (ret < 0 ∧ l = [.listened ret] ∨
        0 ≤ ret ∧ l = [.listened ret, .forceClose ret])) := by
  unfold Cs2State.cs2P2pListen
  by_cases hrunning : w.info.isRunning <;> by_cases hret : 0 ≤ ret
  · exact ⟨[.listened ret], ret, by simp [hrunning, hret, CorePoint.pending, Cs2State.emit],
      .inl ⟨rfl, rfl⟩⟩
  · exact ⟨[.listened ret], ret, by simp [hrunning, hret, CorePoint.pending, Cs2State.emit],
      .inl ⟨rfl, rfl⟩⟩
  -- the new session is closed at once
  · refine ⟨[.listened ret, .forceClose ret], -1, ?_, .inr ⟨rfl, .inr ⟨hret, rfl⟩⟩⟩
    simp [hrunning, hret, CorePoint.pending, Cs2State.emit, Cs2State.forceClose]
  -- an error while nobody runs the service any more is stored as `-1`
  · refine ⟨[.listened ret], -1, ?_, .inr ⟨rfl, .inl ⟨by omega, rfl⟩⟩⟩
    simp [hrunning, hret, CorePoint.pending, Cs2State.emit]

/-- **`cs2_p2p_listen`.** -/
theorem Sound.listen {ret : ℤ} (h : Sound w) (hcore : w.core = .listen)
    (hfresh : ret ∉ w.sessions) :
    Sound { (w.cs2P2pListen ret).1 with core := .store (w.cs2P2pListen ret).2 } := by
  have hminus : (-1 : ℤ) ∉ w.sessions := fun hmem => absurd (h.nonneg _ hmem) (by omega)
  obtain ⟨l, s, heq, hcases⟩ := cs2P2pListen_cases w ret
  rcases hcases with ⟨rfl, rfl⟩ | ⟨rfl, ⟨hret, rfl⟩ | ⟨hret, rfl⟩⟩
  · refine h.goStore hcore heq (.inr (List.mem_singleton_self _)) hfresh fun r hr => ?_
    by_cases hs : 0 ≤ s <;> simp [hs, CorePoint.pending, List.count_singleton]
    omega
  · refine h.goStore hcore heq (.inl rfl) hminus fun r hr => ?_
    simp [CorePoint.pending, List.count_singleton]
    omega
  · refine h.goStore hcore heq (.inl rfl) hminus fun r hr => ?_
    simp [CorePoint.pending, List.count_cons]

/-- Where the core goes with the session, or the code. -/
theorem core_storeSession {s : ℤ} : (w.storeSession s).core = .connect s ∧ 0 ≤ s ∨
    ((w.storeSession s).core = .finish ∨ (w.storeSession s).core = .imgOff) ∧ s < 0 := by
  simp only [Cs2State.storeSession]
  split
  · exact .inl ⟨rfl, ‹_›⟩
  · refine .inr ⟨?_, by omega⟩
    split
    · exact .inl rfl
    · exact .inr rfl

theorem holderPoint_storeSession {s : ℤ} (hcore : w.core = .store s) :
    (w.storeSession s).holderPoint = w.holderPoint := by
  refine Cs2State.holderPoint_eq ?_ rfl rfl
  rw [hcore]
  rcases core_storeSession (w := w) (s := s) with ⟨hc, -⟩ | ⟨hc | hc, -⟩ <;> rw [hc] <;> rfl

/-- The id of a session is stored, or the code of an error. -/
theorem Sound.store {s : ℤ} (h : Sound w) (hcore : w.core = .store s) :
    Sound (w.storeSession s) := by
  have hwaits := h.waits (by rw [hcore]; trivial)
  -- if another thread is closing a session, the id it found was the code of an error
  have hfailed (hp : w.holderPoint = some .force ∨ w.holderPoint = some .reset) : w.Failed := by
    rcases h.forces hp with hne | hfailed
    · exact (hwaits.resolve_left hne).2
    · exact hfailed
  have hcase := core_storeSession (w := w) (s := s)
  have hholder := holderPoint_storeSession hcore
  have hnone : w.keeping = [] := by
    rw [Cs2State.keeping, if_neg]
    omega
  have hsessions := h.sessions
  rw [hnone, List.append_nil, hcore, CorePoint.pending] at hsessions
  refine ⟨fun u hu => ?_, fun hw => ?_, ?_, fun r hr => ?_, h.nonneg, h.nodup, ?_, fun hne => ?_,
    ?_, h.counts⟩
  · cases u with
    | core =>
      refine absurd hu ?_
      rcases hcase with ⟨hc, -⟩ | ⟨hc | hc, -⟩ <;> simp [Cs2State.Locked, hc, CorePoint.Locked]
    | receiver i => exact h.exclusive (.receiver i) hu
  · rcases hcase with ⟨hc, -⟩ | ⟨-, hs⟩
    · rw [hc] at hw
      exact False.elim hw
    -- a code other than `-1` stays in place of an id
    · show s = -1 ∨ s < 0 ∧ _
      by_cases hminus : s = -1
      · exact .inl hminus
      · exact .inr ⟨hs, s, (h.stored s hcore).resolve_left hminus, hs, hminus⟩
  · rcases hcase with ⟨hc, -⟩ | ⟨hc | hc, -⟩ <;> rw [hc] <;> exact CorePoint.noConfusion
  · rcases hcase with ⟨hc, -⟩ | ⟨hc | hc, -⟩ <;> rw [hc] at hr <;> exact CorePoint.noConfusion hr
  · have hpending : (w.storeSession s).core.pending = [] := by
      rcases hcase with ⟨hc, -⟩ | ⟨hc | hc, -⟩ <;> rw [hc] <;> rfl
    rw [hpending, Cs2State.keeping, hholder]
    show w.sessions.Perm ([] ++ (if 0 ≤ s ∧ w.holderPoint ≠ some .reset then [s] else []) ++
      if 0 ≤ s ∧ w.holderPoint = some .reset then s :: w.overlapped else w.overlapped)
    by_cases hs : 0 ≤ s
    -- it is kept, or somebody is about to reset it
    · by_cases hreset : w.holderPoint = some .reset <;> simpa [hs, hreset] using hsessions
    · simpa [hs] using hsessions
  · by_cases hreset : w.holderPoint = some .reset
    · exact hfailed (.inr hreset)
    · exact h.overlapped (by simpa [Cs2State.storeSession, hreset] using hne)
  · rw [hholder]
    exact fun hp => .inr (hfailed hp)

/-- The core goes on without a word. -/
theorem coreStep_goto {answer : Cs2State.PpcsAnswer} {c : CorePoint} (hquiet : w.core.Quiet c) :
    CoreStep w answer { w with core := c } :=
  .goto w.info.word w.loaded [] c (by simp) hquiet (.keep rfl rfl) (.inl rfl)

/-- The core writes a bit that is not `device_connected`. -/
theorem coreStep_write {answer : Cs2State.PpcsAnswer} {set : Cs2Word → Cs2Word} {c : CorePoint}
    (hwrites : w.core.writes = true) (hquiet : w.core.Quiet c)
    (hset : ∀ word, (set word).deviceConnected = word.deviceConnected) :
    CoreStep w answer (w.writeBit .core set ({ · with core := c })) := by
  rcases writeBit_cases (w := w) with ⟨hword, heq⟩ | ⟨word, hword, heq⟩
  · exact .load hwrites hword heq
  · exact .goto _ _ [] c (by rw [heq, List.append_nil]) hquiet (.store word hword (hset word) rfl)
      (.inl rfl)

/-- **What the core does.** -/
theorem Sound.core_cases {answer : Cs2State.PpcsAnswer} (h : Sound w)
    (hstep : w.coreNext answer = some w') : CoreStep w answer w' := by
  unfold Cs2State.coreNext at hstep
  cases hc : w.core with
  | store s =>
    simp only [hc, Option.some.injEq] at hstep
    exact .store s hc hstep.symm
  | connect s =>
    simp only [hc, Option.some.injEq] at hstep
    subst hstep
    rcases writeBit_cases (w := w) with ⟨hword, heq⟩ | ⟨word, hword, heq⟩
    · exact .load (by rw [hc]; rfl) hword heq
    · exact .connect s word hc hword heq
  | close p =>
    rw [hc] at hstep
    exact .close p (congrArg CorePoint.closing hc) hstep
  -- the core comes behind its loop without a session
  | finishReset => exact absurd hc h.unreached
  | ended => simp [hc] at hstep
  | listen =>
    cases answer with
    | ok ok => simp [hc] at hstep
    | listen ret =>
      rw [hc] at hstep
      simp only at hstep
      split at hstep <;> obtain rfl := Option.some.inj hstep
      · exact .again rfl
      · exact .listen ret rfl hc rfl
  | start =>
    rcases answer with (_ | _) | ret <;> simp only [hc, Option.some.injEq, reduceCtorEq] at hstep
    · exact hstep ▸ coreStep_goto (hc ▸ .outside (by simp) (by simp))
    · exact .goto w.info.word w.loaded [.startResponse] .detect hstep.symm
        (hc ▸ .outside (by simp) (by simp)) (.keep rfl rfl) (.inr rfl)
  | detect =>
    rcases answer with ok | ret
    · rw [hc] at hstep
      simp only at hstep
      split at hstep
      · split at hstep <;>
          exact Option.some.inj hstep ▸ coreStep_goto (hc ▸ .outside (by simp) (by simp))
      · exact Option.some.inj hstep ▸ coreStep_goto (hc ▸ .outside (by simp) (by simp))
    · simp [hc] at hstep
  | imgOn s =>
    simp only [hc, Option.some.injEq] at hstep
    exact hstep ▸ coreStep_write (by rw [hc]; rfl) (hc ▸ .inside (s := s) (by simp) (by simp))
      fun _ => rfl
  | audOn s =>
    simp only [hc, Option.some.injEq] at hstep
    exact hstep ▸ coreStep_write (by rw [hc]; rfl) (hc ▸ .inside (s := s) (by simp) (by simp))
      fun _ => rfl
  | read s =>
    rcases answer with (_ | _) | ret <;> simp only [hc, Option.some.injEq, reduceCtorEq] at hstep
    · exact hstep ▸ coreStep_goto (hc ▸ .inside (s := s) (by simp) (by simp))
    · exact hstep ▸ coreStep_goto (hc ▸ .inside (s := s) (by simp) (by simp))
  | again s =>
    rw [hc] at hstep
    simp only at hstep
    split at hstep <;>
      exact Option.some.inj hstep ▸ coreStep_goto (hc ▸ .inside (s := s) (by simp) (by simp))
  | imgOff =>
    simp only [hc, Option.some.injEq] at hstep
    exact hstep ▸ coreStep_write (by rw [hc]; rfl) (hc ▸ .outside (by simp) (by simp)) fun _ => rfl
  | audOff =>
    simp only [hc, Option.some.injEq] at hstep
    exact hstep ▸ coreStep_write (by rw [hc]; rfl) (hc ▸ .outside (by simp) (by simp)) fun _ => rfl
  | finish =>
    have hwaits := h.waits (by rw [hc]; trivial)
    rw [hc] at hstep
    simp only at hstep
    -- no id is valid here, so the `PPCS_ForceClose` behind the loop is never reached
    split at hstep
    · omega
    · exact Option.some.inj hstep ▸ coreStep_goto (hc ▸ .outside (by simp) (by simp))

/-- **One step of the core.** -/
theorem Sound.core {answer : Cs2State.PpcsAnswer} (h : Sound w) (hfresh : w.Fresh (.core answer))
    (hstep : CoreStep w answer w') : Sound w' := by
  cases hstep with
  | close p closing step => exact h.sessionClose closing step
  | load writes unloaded loads => exact loads ▸ h.word
  | goto word loaded e c goes quiet written silent =>
    refine goes ▸ h.coreGoto quiet fun s => ?_
    rcases silent with rfl | rfl <;> simp
  | connect s copy here had goes =>
    exact goes ▸ h.coreGoto (here ▸ .inside (s := s) (by simp) (by simp)) (by simp)
  | again same => exact same ▸ h
  | listen ret asked here goes =>
    subst asked
    exact goes ▸ h.listen here hfresh
  | store s here goes => exact goes ▸ h.store here

end Cs2

end YangIpc
