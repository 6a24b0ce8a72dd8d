import YangIpc.Encoder.VideoThread
import YangIpc.Library.Progress

/-!
# The sessions of the encoders

`YangIpcEncoder.c`, as far as the lives of its sessions go: any number of encoders, each created,
started, stopped and destroyed by its owner, the video thread of each, the global `g_yang_session`,
and the calls of `webrtc_voice_send_callback` by the audio device, which put audio into the buffer
of the global session.

An access to a flag or to the global that another thread uses is a step of its own.  What the thread
does with frames and audio is in `Encoder.VideoThread` and `Encoder.AudioFifo`.

## Main definitions

* `ThreadPoint`, `OwnerPoint`, `VoicePoint`: where the functions are
* `EncoderSession`, `EncoderState`: a session, and all of them
* `EncoderState.next`, `EncoderState.Lawful`: the steps, and what is expected of the owners

## Main results

* `threads_use_live_sessions`: a session is freed once, behind the last access of its thread
* `voice_finds_its_session`: which accesses of the audio device are safe
* `destroy_encoder_returns`: the wait of `yang_destroy_ipcEncoder` ends
-/

namespace YangIpc

namespace Encoder

open Transition Trace

/-- Where the thread of a session is. -/
inductive ThreadPoint
  | absent
  /-- `isLoop = yangtrue` -/
  | created
  /-- `isStart = yangtrue`, `hasConnected = yangfalse` -/
  | starting
  /-- at the condition `isLoop` -/
  | loop
  /-- about to ask whether the session is enabled, and whether it was -/
  | enable
  /-- at `if(g_yang_session==NULL)` -/
  | connect
  /-- `g_yang_session=session` -/
  | install
  /-- `yang_init_data` -/
  | init
  /-- in the rest of the loop -/
  | work
  /-- `isStart = yangfalse` -/
  | finish
  | ended
deriving DecidableEq, Repr

/-- Where the owner of a session is. -/
inductive OwnerPoint
  /-- the session is not created -/
  | absent
  /-- between two calls -/
  | idle
  /-- `g_yang_session=NULL` -/
  | clear
  /-- `isLoop=yangfalse` -/
  | stop
  /-- at the condition `isStart` -/
  | wait
  /-- the mutex, the buffer and the session are freed -/
  | free
  | destroyed
deriving DecidableEq, Repr

/-- Where a call of `webrtc_voice_send_callback` is; when it found the global set, `clears` sessions
had begun to be destroyed. -/
inductive VoicePoint
  /-- at `if(g_yang_session==NULL)` -/
  | test
  /-- the global is read for the address of the audio data -/
  | load (clears : ℕ)
  /-- at the test of `yang_put_data` -/
  | room (target : Option ℕ) (clears : ℕ)
  /-- in the section of `yang_put_data` -/
  | append (target : Option ℕ) (clears : ℕ)
  | returned
deriving DecidableEq, Repr

/-- What is observed. -/
inductive EncoderEvent
  /-- the thread of the session uses it -/
  | thread (k : ℕ)
  /-- a call of the audio device uses a session; `fresh` unless a session has begun to be destroyed
  behind its test of the global -/
  | voice (target : Option ℕ) (fresh : Bool)
  /-- the thread of the session makes it the global one -/
  | install (k : ℕ)
  /-- `yang_destroy_ipcEncoder` clears the global -/
  | clear (k : ℕ)
  /-- and frees the session -/
  | free (k : ℕ)
deriving DecidableEq, Repr

def EncoderEvent.isClear : EncoderEvent → Bool
  | clear _ => true
  | _ => false

/-- How many sessions have begun to be destroyed. -/
def clears (log : List EncoderEvent) : ℕ := log.countP EncoderEvent.isClear

/-- A session, with its thread and its owner. -/
structure EncoderSession where
  video : YangBkIpcVideo
  thread : ThreadPoint
  owner : OwnerPoint
deriving DecidableEq, Repr

/-- The sessions, the global, the calls of the audio device, and the trace. -/
structure EncoderState where
  session : ℕ → EncoderSession
  gYangSession : Option ℕ
  calls : List VoicePoint
  log : List EncoderEvent

/-- The steps. -/
inductive EncoderAction
  | create (k : ℕ)
  /-- `ok` tells whether a thread can be created -/
  | start (k : ℕ) (ok : Bool)
  | stop (k : ℕ)
  /-- `yang_destroy_ipcEncoder` is called -/
  | destroy (k : ℕ)
  /-- it goes on -/
  | owner (k : ℕ)
  | thread (k : ℕ) (enabled : Bool)
  /-- `webrtc_voice_send_callback` is called -/
  | voice
  /-- a call goes on; `fits` tells whether there is room for the chunk -/
  | call (i : ℕ) (fits : Bool)
deriving DecidableEq, Repr

namespace EncoderState

/-- Before the first encoder. -/
def boot : EncoderState :=
  ⟨fun _ => ⟨⟨false, false, false, false⟩, .absent, .absent⟩, none, [], []⟩

/-- A session changes. -/
def set (s : EncoderState) (k : ℕ) (x : EncoderSession) : EncoderState :=
  { s with session := Function.update s.session k x }

/-- `yang_bk_video_start`. -/
def yangBkVideoStart (s : EncoderState) (k : ℕ) (ok : Bool) : EncoderState :=
  if (s.session k).video.isStart then s
  else if ok then s.set k { s.session k with thread := .created }
  else s

/-- `yang_bk_video_stop`. -/
def yangBkVideoStop (s : EncoderState) (k : ℕ) : EncoderState :=
  s.set k { s.session k with video := { (s.session k).video with isLoop := false } }

/-- `yang_destroy_ipcEncoder`: what it does next. -/
def yangDestroyIpcEncoder (s : EncoderState) (k : ℕ) : Option EncoderState :=
  let x := s.session k
  match x.owner with
  | .clear =>
    some { s.set k { x with owner := .stop } with
      gYangSession := none
      log := s.log ++ [.clear k] }
  | .stop => some (s.set k { x with video := { x.video with isLoop := false }, owner := .wait })
  | .wait => some (s.set k { x with owner := if x.video.isStart then .wait else .free })
  | .free => some { s.set k { x with owner := .destroyed } with log := s.log ++ [.free k] }
  | .absent | .idle | .destroyed => none

/-- `yang_bk_video_thread`: what the thread of a session does next to it. -/
def threadSession (x : EncoderSession) (gYangSession : Option ℕ) (enabled : Bool) :
    Option EncoderSession :=
  match x.thread with
  | .created => some { x with video := { x.video with isLoop := true }, thread := .starting }
  | .starting =>
    some
      { x with video := { x.video with isStart := true, hasConnected := false }, thread := .loop }
  | .loop => some { x with thread := if x.video.isLoop then .enable else .finish }
  | .enable =>
    some
      (if !enabled then { x with video := { x.video with hasConnected := false }, thread := .loop }
      else if x.video.hasConnected then { x with thread := .work }
      else { x with video := { x.video with hasConnected := true }, thread := .connect })
  | .connect => some { x with thread := if gYangSession.isSome then .init else .install }
  | .install => some { x with thread := .init }
  | .init => some { x with thread := .work }
  | .work => some { x with thread := .loop }
  | .finish => some { x with video := { x.video with isStart := false }, thread := .ended }
  | .absent | .ended => none

/-- The thread of a session goes on. -/
def threadNext (s : EncoderState) (k : ℕ) (enabled : Bool) : Option EncoderState :=
  (threadSession (s.session k) s.gYangSession enabled).map fun x =>
    if (s.session k).thread = .install then
      { s.set k x with gYangSession := some k, log := s.log ++ [.thread k, .install k] }
    else { s.set k x with log := s.log ++ [.thread k] }

/-- `webrtc_voice_send_callback` and `yang_put_data`: what a call does next. -/
def callNext (s : EncoderState) (i : ℕ) (fits : Bool) : Option EncoderState :=
  let goto (s : EncoderState) (p : VoicePoint) : Option EncoderState :=
    some { s with calls := s.calls.set i p }
  match s.calls[i]? with
  | some .test => goto s (if s.gYangSession.isSome then .load (clears s.log) else .returned)
  | some (.load n) => goto s (.room s.gYangSession n)
  | some (.room target n) =>
    goto { s with log := s.log ++ [.voice target (n = clears s.log)] }
      (if fits then .append target n else .returned)
  | some (.append target n) =>
    goto { s with log := s.log ++ [.voice target (n = clears s.log)] } .returned
  | some .returned | none => none

/-- The state after a step, if it is possible. -/
def next (s : EncoderState) : EncoderAction → Option EncoderState
  | .create k =>
    if (s.session k).owner = .absent then
      some (s.set k ⟨⟨false, false, false, false⟩, .absent, .idle⟩)
    else none
  | .start k ok => if (s.session k).owner = .idle then some (s.yangBkVideoStart k ok) else none
  | .stop k => if (s.session k).owner = .idle then some (s.yangBkVideoStop k) else none
  | .destroy k =>
    if (s.session k).owner = .idle then some (s.set k { s.session k with owner := .clear })
    else none
  | .owner k => s.yangDestroyIpcEncoder k
  | .thread k enabled => s.threadNext k enabled
  | .voice => some { s with calls := s.calls ++ [.test] }
  | .call i fits => s.callNext i fits

/-- The transition system. -/
def step (s : EncoderState) (a : EncoderAction) (t : EncoderState) : Prop := s.next a = some t

/-- The owner neither starts nor destroys an encoder whose thread has been created and has not set
`isStart` yet. -/
def Lawful (s : EncoderState) : EncoderAction → Prop
  | .start k _ | .destroy k =>
    (s.session k).thread ≠ .created ∧ (s.session k).thread ≠ .starting
  | _ => True

end EncoderState

/-! ## One session -/

/-- The thread has set `isStart`, and not reset it. -/
def ThreadPoint.Running : ThreadPoint → Prop
  | loop | enable | connect | install | init | work | finish => True
  | absent | created | starting | ended => False

/-- The global may be the session. -/
def OwnerPoint.Open : OwnerPoint → Prop
  | idle | clear => True
  | absent | stop | wait | free | destroyed => False

/-- `yang_destroy_ipcEncoder` has cleared the global. -/
def OwnerPoint.Cleared : OwnerPoint → Prop
  | stop | wait | free | destroyed => True
  | absent | idle | clear => False

/-- A step of the owner that neither clears the global nor frees the session. -/
structure OwnerPoint.Follows (p q : OwnerPoint) : Prop where
  opens : p.Open → q.Open
  cleared : q.Cleared → p.Cleared
  destroyed : q = .destroyed ↔ p = .destroyed

theorem OwnerPoint.Follows.refl (p : OwnerPoint) : p.Follows p := ⟨id, id, Iff.rfl⟩

/-- The thread and the owner of a session agree: the owner passes its wait only when the thread
does not run, and leaves a thread that begins alone. -/
structure EncoderSession.Fits (x : EncoderSession) : Prop where
  started : x.video.isStart = true ↔ x.thread.Running
  running : x.thread.Running → x.owner = .idle ∨ x.owner = .clear ∨ x.owner = .stop ∨
    x.owner = .wait
  begins : x.thread = .created ∨ x.thread = .starting → x.owner = .idle
  waits : x.owner = .wait → x.video.isLoop = false

variable {s t : EncoderState} {x y : EncoderSession} {k : ℕ} {g : Option ℕ} {enabled : Bool}

/-- The thread runs on. -/
theorem EncoderSession.Fits.run (h : x.Fits) (hx : x.thread.Running) (hy : y.thread.Running)
    (hstart : y.video.isStart = x.video.isStart) (hloop : y.video.isLoop = x.video.isLoop)
    (howner : y.owner = x.owner) : y.Fits ∧ y.owner = x.owner := by
  refine ⟨⟨?_, fun _ => howner ▸ h.running hx, ?_, fun hwait => ?_⟩, howner⟩
  · rw [hstart]
    exact iff_of_true (h.started.mpr hx) hy
  · rintro (hp | hp) <;> rw [hp] at hy <;> exact hy.elim
  · rw [hloop]
    exact h.waits (howner ▸ hwait)

/-- **The thread takes a step.** -/
theorem EncoderSession.Fits.thread (h : x.Fits)
    (hstep : EncoderState.threadSession x g enabled = some y) : y.Fits ∧ y.owner = x.owner := by
  revert hstep
  fun_cases EncoderState.threadSession x g enabled <;> rename_i hp <;> intro hstep <;>
    simp only [Option.some.injEq, reduceCtorEq] at hstep <;> subst hstep
  case case1 =>
    have hidle := h.begins (.inl hp)
    have hstarted := h.started
    rw [hp] at hstarted
    refine ⟨⟨hstarted, False.elim, fun _ => hidle, fun hwait => ?_⟩, rfl⟩
    exact OwnerPoint.noConfusion (hidle.symm.trans hwait)
  case case2 =>
    have hidle := h.begins (.inr hp)
    exact ⟨⟨iff_of_true rfl trivial, fun _ => .inl hidle, by simp, h.waits⟩, rfl⟩
  case case9 =>
    exact ⟨⟨iff_of_false Bool.false_ne_true id, False.elim, by simp, h.waits⟩, rfl⟩
  -- the others leave `isStart` alone
  all_goals
    have hx : x.thread.Running := by
      rw [hp]
      trivial
  case case3 =>
    refine h.run hx ?_ rfl rfl rfl
    show ThreadPoint.Running (if _ then _ else _)
    split <;> trivial
  case case4 =>
    split
    · exact h.run hx trivial rfl rfl rfl
    · split
      · exact h.run hx trivial rfl rfl rfl
      · exact h.run hx trivial rfl rfl rfl
  case case5 =>
    refine h.run hx ?_ rfl rfl rfl
    show ThreadPoint.Running (if _ then _ else _)
    split <;> trivial
  case case6 => exact h.run hx trivial rfl rfl rfl
  case case7 => exact h.run hx trivial rfl rfl rfl
  case case8 => exact h.run hx trivial rfl rfl rfl

/-- **The owner takes a step** of `yang_destroy_ipcEncoder`. -/
theorem EncoderSession.Fits.owner {p : OwnerPoint} (h : x.Fits) (isLoop : Bool)
    (hbegun : x.owner ≠ .idle) (hp : p = .stop ∨ p = .wait ∨ x.video.isStart = false)
    (hloop : p = .wait → isLoop = false) :
    (⟨{ x.video with isLoop := isLoop }, x.thread, p⟩ : EncoderSession).Fits := by
  refine ⟨h.started, fun hrunning => ?_, fun hbegins => absurd (h.begins hbegins) hbegun,
    hloop⟩
  rcases hp with rfl | rfl | hstart
  · exact .inr (.inr (.inl rfl))
  · exact .inr (.inr (.inr rfl))
  · rw [h.started.mpr hrunning] at hstart
    exact absurd hstart.symm Bool.false_ne_true

/-! ## All sessions -/

/-- The session was made the global one behind the clear of its own destruction. -/
def Behind (log : List EncoderEvent) (k : ℕ) : Prop :=
  ∃ l₁ l₂, log = l₁ ++ .clear k :: l₂ ∧ .install k ∈ l₂

/-- What is promised of an event behind a trace: a thread uses its session before it is freed, a
session is freed once, and a call of the audio device that is fresh uses a session that is not
freed, unless it was made the global one behind its clear. -/
def Allowed (log : List EncoderEvent) : EncoderEvent → Prop
  | .thread k | .free k => .free k ∉ log
  | .voice target fresh => fresh = true → ∃ k, target = some k ∧ (.free k ∉ log ∨ Behind log k)
  | .install _ | .clear _ => True

/-- What the global refers to. -/
def Target (s : EncoderState) (k : ℕ) : Prop := (s.session k).owner.Open ∨ Behind s.log k

/-- What a call has found, unless a session has begun to be destroyed since. -/
def VoicePoint.Fits (s : EncoderState) : VoicePoint → Prop
  | load n => n ≤ clears s.log ∧ (n = clears s.log → s.gYangSession ≠ none)
  | room target n | append target n =>
    n ≤ clears s.log ∧ (n = clears s.log → ∃ k, target = some k ∧ Target s k)
  | test | returned => True

/-- The invariant. -/
structure Orderly (s : EncoderState) : Prop where
  fits : ∀ k, (s.session k).Fits
  freed : ∀ k, .free k ∈ s.log ↔ (s.session k).owner = .destroyed
  cleared : ∀ k, (s.session k).owner.Cleared → .clear k ∈ s.log
  global : ∀ k, s.gYangSession = some k → Target s k
  calls : ∀ p ∈ s.calls, p.Fits s
  log : Always Allowed s.log

theorem clears_append {l l' : List EncoderEvent} : clears (l ++ l') = clears l + clears l' :=
  List.countP_append

theorem Behind.append {log l : List EncoderEvent} (h : Behind log k) : Behind (log ++ l) k := by
  obtain ⟨l₁, l₂, rfl, hmem⟩ := h
  exact ⟨l₁, l₂ ++ l, by simp, List.mem_append_left l hmem⟩

/-- A session that is cleared and made the global one again. -/
theorem behind_of_install {log l : List EncoderEvent} (hclear : .clear k ∈ log)
    (hinstall : .install k ∈ l) : Behind (log ++ l) k := by
  obtain ⟨l₁, l₂, rfl⟩ := List.append_of_mem hclear
  exact ⟨l₁, l₂ ++ l, by simp, List.mem_append_right l₂ hinstall⟩

section Steps

variable {l : List EncoderEvent}

/-- What the global refers to stays so, as long as no session is cleared. -/
theorem Target.mono {j : ℕ} (h : Target s j) (hlog : t.log = s.log ++ l)
    (hopen : ∀ j, (s.session j).owner.Open → (t.session j).owner.Open) : Target t j := by
  rcases h with h | h
  · exact .inl (hopen j h)
  · exact .inr (hlog ▸ h.append)

/-- What a call has found stays so. -/
theorem VoicePoint.Fits.mono {p : VoicePoint} (h : p.Fits s) (hlog : t.log = s.log ++ l)
    (hclears : clears l = 0) (hopen : ∀ j, (s.session j).owner.Open → (t.session j).owner.Open)
    (hglobal : s.gYangSession ≠ none → t.gYangSession ≠ none) : p.Fits t := by
  have hsame : clears t.log = clears s.log := by rw [hlog, clears_append, hclears, Nat.add_zero]
  cases p with
  | test | returned => trivial
  | load n =>
    simp only [VoicePoint.Fits, hsame] at h ⊢
    exact ⟨h.1, fun hn => hglobal (h.2 hn)⟩
  | room target n | append target n =>
    simp only [VoicePoint.Fits, hsame] at h ⊢
    refine ⟨h.1, fun hn => ?_⟩
    obtain ⟨j, hj, htarget⟩ := h.2 hn
    exact ⟨j, hj, htarget.mono hlog hopen⟩

/-- **A step that changes one session**, and clears none. -/
theorem Orderly.go (h : Orderly s) (hsession : t.session = Function.update s.session k x)
    (hlog : t.log = s.log ++ l) (hclears : clears l = 0) (hcalls : t.calls = s.calls)
    (hfits : x.Fits) (hopen : (s.session k).owner.Open → x.owner.Open)
    (hcleared : x.owner.Cleared → (s.session k).owner.Cleared)
    (hfreed : ∀ j, .free j ∈ l → j = k)
    (hdestroyed : .free k ∈ l ∨ (s.session k).owner = .destroyed ↔ x.owner = .destroyed)
    (hglobal : t.gYangSession = s.gYangSession ∨ t.gYangSession = some k ∧ Target t k)
    (hallowed : Always Allowed t.log) : Orderly t := by
  have hself : t.session k = x := by rw [hsession, Function.update_self]
  have hother : ∀ j, j ≠ k → t.session j = s.session j := fun j hj => by
    rw [hsession, Function.update_of_ne hj]
  have hopen' : ∀ j, (s.session j).owner.Open → (t.session j).owner.Open := by
    intro j hj
    by_cases hjk : j = k
    · subst hjk
      exact hself ▸ hopen hj
    · exact hother j hjk ▸ hj
  refine ⟨fun j => ?_, fun j => ?_, fun j hj => ?_, fun j hj => ?_, fun p hp => ?_, hallowed⟩
  · by_cases hjk : j = k
    · exact hjk ▸ hself ▸ hfits
    · exact hother j hjk ▸ h.fits j
  · rw [hlog, List.mem_append, h.freed, or_comm]
    by_cases hjk : j = k
    · rw [hjk, hself]
      exact hdestroyed
    · rw [hother j hjk]
      exact or_iff_right fun hj => hjk (hfreed j hj)
  · rw [hlog]
    refine List.mem_append_left l (h.cleared j ?_)
    by_cases hjk : j = k
    · subst hjk
      exact hcleared (hself ▸ hj)
    · exact hother j hjk ▸ hj
  -- the global is as before, or it is the session of this step
  · rcases hglobal with hsame | ⟨hnew, htarget⟩
    · exact (h.global j (hsame ▸ hj)).mono hlog hopen'
    · obtain rfl := Option.some.inj (hnew.symm.trans hj)
      exact htarget
  · refine (h.calls p (hcalls ▸ hp)).mono hlog hclears hopen' fun hg => ?_
    rcases hglobal with hsame | ⟨hnew, -⟩
    · exact hsame ▸ hg
    · rw [hnew]
      exact Option.some_ne_none k

/-- A step that leaves no trace. -/
theorem Orderly.quiet (h : Orderly s) (hfits : x.Fits)
    (hfollows : (s.session k).owner.Follows x.owner) : Orderly (s.set k x) :=
  h.go (l := []) rfl (List.append_nil _).symm rfl rfl hfits hfollows.opens hfollows.cleared
    (fun _ hj => absurd hj List.not_mem_nil)
    ((or_iff_right List.not_mem_nil).trans hfollows.destroyed.symm) (.inl rfl) h.log

theorem threadSession_alive (hstep : EncoderState.threadSession x g enabled = some y) :
    x.thread.Running ∨ x.thread = .created ∨ x.thread = .starting := by
  unfold EncoderState.threadSession at hstep
  cases hp : x.thread with
  | absent | ended => simp [hp] at hstep
  | created => exact .inr (.inl rfl)
  | starting => exact .inr (.inr rfl)
  | _ => exact .inl trivial

/-- The thread of a session takes a step only before the session is freed. -/
theorem Orderly.not_freed (h : Orderly s)
    (hstep : EncoderState.threadSession (s.session k) g enabled = some y) : .free k ∉ s.log := by
  intro hfree
  have hdestroyed := (h.freed k).mp hfree
  -- a thread that runs or begins keeps its owner from the point `destroyed`
  rcases threadSession_alive hstep with hrunning | hbegins
  · rcases (h.fits k).running hrunning with ho | ho | ho | ho <;> rw [hdestroyed] at ho <;>
      exact OwnerPoint.noConfusion ho
  · have ho := (h.fits k).begins hbegins
    rw [hdestroyed] at ho
    exact OwnerPoint.noConfusion ho

/-- **The thread of a session.** -/
theorem Orderly.thread (h : Orderly s) (hstep : s.threadNext k enabled = some t) : Orderly t := by
  obtain ⟨x, hx, rfl⟩ := Option.map_eq_some_iff.mp hstep
  have hfree := h.not_freed hx
  obtain ⟨hfits, howner⟩ := (h.fits k).thread hx
  have hthread : Always Allowed (s.log ++ [.thread k]) := always_snoc.mpr ⟨h.log, hfree⟩
  by_cases hinstall : (s.session k).thread = .install
  · rw [if_pos hinstall]
    refine h.go (l := [.thread k, .install k]) rfl rfl rfl rfl hfits (fun ho => howner ▸ ho)
      (fun ho => howner ▸ ho) (by simp) (by simp [howner]) (.inr ⟨rfl, ?_⟩) ?_
    · -- the owner may have cleared the global before
      have hrunning : (s.session k).thread.Running := by
        rw [hinstall]
        trivial
      by_cases hopen : (s.session k).owner.Open
      · refine .inl ?_
        show (Function.update s.session k x k).owner.Open
        rw [Function.update_self, howner]
        exact hopen
      · refine .inr (behind_of_install (h.cleared k ?_) (by simp))
        rcases (h.fits k).running hrunning with ho | ho | ho | ho <;> rw [ho] at hopen ⊢
        · exact absurd trivial hopen
        · exact absurd trivial hopen
        · trivial
        · trivial
    · show Always Allowed (s.log ++ ([.thread k] ++ [.install k]))
      rw [← List.append_assoc]
      exact always_snoc.mpr ⟨hthread, trivial⟩
  · rw [if_neg hinstall]
    exact h.go (l := [.thread k]) rfl rfl rfl rfl hfits (fun ho => howner ▸ ho)
      (fun ho => howner ▸ ho) (by simp) (by simp [howner]) (.inl rfl) hthread

/-- The owner begins to destroy a session and clears the global. -/
theorem Orderly.clear (h : Orderly s) (howner : (s.session k).owner = .clear) :
    Orderly { s.set k { s.session k with owner := .stop } with
      gYangSession := none
      log := s.log ++ [.clear k] } := by
  have hbegun : (s.session k).owner ≠ .idle := by rw [howner]; exact OwnerPoint.noConfusion
  have hfits := (h.fits k).owner (s.session k).video.isLoop hbegun (.inl rfl) OwnerPoint.noConfusion
  refine ⟨fun j => ?_, fun j => ?_, fun j hj => ?_,
    fun j hj => absurd hj.symm (Option.some_ne_none j), fun p hp => ?_,
    always_snoc.mpr ⟨h.log, trivial⟩⟩
  · show (Function.update s.session k _ j).Fits
    by_cases hjk : j = k
    · subst hjk
      rw [Function.update_self]
      exact hfits
    · rw [Function.update_of_ne hjk]
      exact h.fits j
  · show .free j ∈ s.log ++ [.clear k] ↔ (Function.update s.session k _ j).owner = _
    have hsame : .free j ∈ s.log ++ [.clear k] ↔ .free j ∈ s.log := by simp
    rw [hsame, h.freed]
    by_cases hjk : j = k
    · subst hjk
      rw [Function.update_self, howner]
      exact iff_of_false OwnerPoint.noConfusion OwnerPoint.noConfusion
    · rw [Function.update_of_ne hjk]
  · show .clear j ∈ s.log ++ [.clear k]
    by_cases hjk : j = k
    · simp [hjk]
    · have hj' : (Function.update s.session k _ j).owner.Cleared := hj
      rw [Function.update_of_ne hjk] at hj'
      exact List.mem_append_left _ (h.cleared j hj')
  · -- what the calls have found is not fresh any more
    have hp' := h.calls p hp
    have hmore : clears (s.log ++ [.clear k]) = clears s.log + 1 := clears_append
    cases p with
    | test | returned => trivial
    | load n | room target n | append target n =>
      refine ⟨?_, fun hn => ?_⟩
      · show n ≤ clears (s.log ++ [.clear k])
        have := hp'.1
        omega
      · have hn' : n = clears (s.log ++ [.clear k]) := hn
        have := hp'.1
        omega

/-- **The owner of a session**, in `yang_destroy_ipcEncoder`. -/
theorem Orderly.owner (h : Orderly s) (hstep : s.yangDestroyIpcEncoder k = some t) :
    Orderly t := by
  unfold EncoderState.yangDestroyIpcEncoder at hstep
  have hfits := h.fits k
  cases howner : (s.session k).owner with
  | absent | idle | destroyed => simp [howner] at hstep
  | clear =>
    simp only [howner, Option.some.injEq] at hstep
    exact hstep ▸ h.clear howner
  | stop =>
    simp only [howner, Option.some.injEq] at hstep
    subst hstep
    refine h.quiet (hfits.owner _ ?_ (.inr (.inl rfl)) fun _ => rfl) ?_ <;> rw [howner]
    · exact OwnerPoint.noConfusion
    · exact ⟨False.elim, id, iff_of_false OwnerPoint.noConfusion OwnerPoint.noConfusion⟩
  | wait =>
    simp only [howner, Option.some.injEq] at hstep
    subst hstep
    have hbegun : (s.session k).owner ≠ .idle := by rw [howner]; exact OwnerPoint.noConfusion
    by_cases hstart : (s.session k).video.isStart = true
    · rw [if_pos hstart]
      refine h.quiet (hfits.owner _ hbegun (.inr (.inl rfl)) fun _ => hfits.waits howner) ?_
      exact howner ▸ .refl _
    · rw [if_neg hstart]
      refine h.quiet (hfits.owner _ hbegun (.inr (.inr (Bool.eq_false_iff.mpr hstart)))
        OwnerPoint.noConfusion) ?_
      rw [howner]
      exact ⟨False.elim, id, iff_of_false OwnerPoint.noConfusion OwnerPoint.noConfusion⟩
  | free =>
    simp only [howner, Option.some.injEq] at hstep
    subst hstep
    have hbegun : (s.session k).owner ≠ .idle := by rw [howner]; exact OwnerPoint.noConfusion
    -- the owner has waited for `isStart`, which the thread clears at its end
    have hstart : (s.session k).video.isStart = false := by
      refine Bool.eq_false_iff.mpr fun hstart => ?_
      rcases hfits.running (hfits.started.mp hstart) with ho | ho | ho | ho <;>
        rw [howner] at ho <;> exact OwnerPoint.noConfusion ho
    have hfree : .free k ∉ s.log := fun hmem => by
      have hdestroyed := (h.freed k).mp hmem
      rw [howner] at hdestroyed
      exact OwnerPoint.noConfusion hdestroyed
    refine h.go (l := [.free k]) rfl rfl rfl rfl
      (hfits.owner _ hbegun (.inr (.inr hstart)) OwnerPoint.noConfusion) ?_ ?_ (by simp) (by simp)
      (.inl rfl) (always_snoc.mpr ⟨h.log, hfree⟩) <;> rw [howner]
    · exact False.elim
    · exact id

/-- A call of the audio device uses what it has found. -/
theorem Orderly.voice {target : Option ℕ} {n : ℕ} (h : Orderly s)
    (hcall : n = clears s.log → ∃ k, target = some k ∧ Target s k) :
    Orderly { s with log := s.log ++ [.voice target (n = clears s.log)] } := by
  have hopen (j : ℕ) (ho : (s.session j).owner.Open) : (s.session j).owner.Open := ho
  refine ⟨h.fits, fun k => by simpa using h.freed k,
    fun k hk => List.mem_append_left _ (h.cleared k hk), fun k hk => (h.global k hk).mono rfl hopen,
    fun p hp => (h.calls p hp).mono rfl rfl hopen id, always_snoc.mpr ⟨h.log, fun hfresh => ?_⟩⟩
  obtain ⟨k, rfl, htarget⟩ := hcall (of_decide_eq_true hfresh)
  refine ⟨k, rfl, htarget.imp_left fun ho hfree => ?_⟩
  rw [(h.freed k).mp hfree] at ho
  exact ho

/-- A call goes on to a point that fits. -/
theorem Orderly.goto {p : VoicePoint} {i : ℕ} (h : Orderly s) (hp : p.Fits s) :
    Orderly { s with calls := s.calls.set i p } :=
  ⟨h.fits, h.freed, h.cleared, h.global,
    fun q hq => (List.mem_or_eq_of_mem_set hq).elim (h.calls q) fun heq => heq ▸ hp, h.log⟩

/-- **A call of the audio device.** -/
theorem Orderly.call {i : ℕ} {fits : Bool} (h : Orderly s) (hstep : s.callNext i fits = some t) :
    Orderly t := by
  unfold EncoderState.callNext at hstep
  simp only at hstep
  cases hp : s.calls[i]? with
  | none => simp [hp] at hstep
  | some p =>
    have hfits := h.calls p (List.mem_of_getElem? hp)
    cases p with
    | test =>
      simp only [hp, Option.some.injEq] at hstep
      subst hstep
      refine h.goto ?_
      split
      · rename_i hsome
        exact ⟨le_rfl, fun _ => Option.isSome_iff_ne_none.mp hsome⟩
      · trivial
    | load n =>
      simp only [hp, Option.some.injEq] at hstep
      subst hstep
      -- the global is read a second time; nobody has cleared it if nothing was cleared
      refine h.goto ⟨hfits.1, fun hn => ?_⟩
      obtain ⟨k, hk⟩ := Option.ne_none_iff_exists'.mp (hfits.2 hn)
      exact ⟨k, hk, h.global k hk⟩
    | room target n =>
      simp only [hp, Option.some.injEq] at hstep
      subst hstep
      refine (h.voice hfits.2).goto ?_
      split
      · exact VoicePoint.Fits.mono (p := .append target n) hfits rfl rfl (fun _ => id) id
      · trivial
    | append target n =>
      simp only [hp, Option.some.injEq] at hstep
      subst hstep
      exact (h.voice hfits.2).goto trivial
    | returned => simp [hp] at hstep

/-- **One step of anybody.** -/
theorem Orderly.step {a : EncoderAction} (h : Orderly s) (hok : s.Lawful a) (hstep : s.step a t) :
    Orderly t := by
  cases a with
  | create k =>
    obtain ⟨howner, heq⟩ := Option.ite_none_right_eq_some.mp hstep
    obtain rfl := Option.some.inj heq
    refine h.quiet ⟨iff_of_false Bool.false_ne_true id, False.elim, by simp,
      OwnerPoint.noConfusion⟩ ?_
    rw [howner]
    exact ⟨False.elim, False.elim, iff_of_false OwnerPoint.noConfusion OwnerPoint.noConfusion⟩
  | start k ok =>
    obtain ⟨howner, heq⟩ := Option.ite_none_right_eq_some.mp hstep
    obtain rfl := Option.some.inj heq
    unfold EncoderState.yangBkVideoStart
    split
    · exact h
    · rename_i hstart
      split
      -- a thread is created only if `isStart` is false, so none runs for the session
      · exact h.quiet ⟨iff_of_false hstart id, False.elim, fun _ => howner,
          (h.fits k).waits⟩ (.refl _)
      · exact h
  | stop k =>
    obtain ⟨-, heq⟩ := Option.ite_none_right_eq_some.mp hstep
    obtain rfl := Option.some.inj heq
    have hfits := h.fits k
    exact h.quiet ⟨hfits.started, hfits.running, hfits.begins, fun _ => rfl⟩ (.refl _)
  | destroy k =>
    obtain ⟨howner, heq⟩ := Option.ite_none_right_eq_some.mp hstep
    obtain rfl := Option.some.inj heq
    refine h.quiet ⟨(h.fits k).started, fun _ => .inr (.inl rfl), fun hbegins => ?_,
      OwnerPoint.noConfusion⟩ ?_
    -- a thread that has not said that it runs would not be waited for
    · exact (hbegins.elim hok.1 hok.2).elim
    · rw [howner]
      exact ⟨fun _ => trivial, False.elim,
        iff_of_false OwnerPoint.noConfusion OwnerPoint.noConfusion⟩
  | owner k => exact h.owner hstep
  | thread k enabled => exact h.thread hstep
  | voice =>
    obtain rfl := Option.some.inj hstep
    refine ⟨h.fits, h.freed, h.cleared, h.global, fun p hp => ?_, h.log⟩
    rcases List.mem_append.mp hp with hp | hp
    · exact h.calls p hp
    · obtain rfl := List.mem_singleton.mp hp
      trivial
  | call i fits => exact h.call hstep

end Steps

theorem orderly_boot : Orderly .boot where
  fits _ := ⟨iff_of_false Bool.false_ne_true id, False.elim, by simp [EncoderState.boot],
    OwnerPoint.noConfusion⟩
  freed _ := iff_of_false List.not_mem_nil OwnerPoint.noConfusion
  cleared _ h := h.elim
  global _ h := absurd h.symm (Option.some_ne_none _)
  calls _ h := absurd h List.not_mem_nil
  log := always_nil

theorem orderly_of_reaches (h : Reaches (Guarded EncoderState.step EncoderState.Lawful) .boot s) :
    Orderly s :=
  h.invariant orderly_boot fun _ _ _ hs hstep => hs.step hstep.1 hstep.2

/-! ## The wait of the owner -/

/-- The steps that a thread takes before it ends, when `isLoop` is false. -/
def ThreadPoint.weight : ThreadPoint → ℕ
  | enable => 7
  | connect => 6
  | install => 5
  | init => 4
  | work => 3
  | loop => 2
  | finish => 1
  | absent | created | starting | ended => 0

/-- The owner waits, or is done. -/
def OwnerPoint.Waiting : OwnerPoint → Prop
  | wait | free | destroyed => True
  | absent | idle | clear | stop => False

/-- The thread is told to stop, and its owner waits. -/
structure EncoderSession.Stopped (x : EncoderSession) : Prop where
  isLoop : x.video.isLoop = false
  owner : x.owner.Waiting

/-- **The thread comes nearer to its end.** -/
theorem threadSession_weight (h : x.Stopped) (hfits : x.Fits)
    (hstep : EncoderState.threadSession x g enabled = some y) :
    y.Stopped ∧ y.thread.weight + 1 ≤ x.thread.weight := by
  -- a thread that is waited for is past its beginning, where it would set `isLoop` again
  have hbegins : ¬(x.thread = .created ∨ x.thread = .starting) := fun hbegins => by
    have howner := h.owner
    rw [hfits.begins hbegins] at howner
    exact howner
  revert hstep
  fun_cases EncoderState.threadSession x g enabled <;> rename_i hp <;> intro hstep <;>
    simp only [Option.some.injEq, reduceCtorEq] at hstep <;> subst hstep <;> rw [hp]
  case case1 => exact absurd (.inl hp) hbegins
  case case2 => exact absurd (.inr hp) hbegins
  case case3 =>
    refine ⟨⟨h.isLoop, h.owner⟩, ?_⟩
    show ThreadPoint.weight (if _ then _ else _) + 1 ≤ 2
    rw [if_neg (by rw [h.isLoop]; exact Bool.false_ne_true)]
    exact le_rfl
  case case4 =>
    split
    · exact ⟨⟨h.isLoop, h.owner⟩, by simp [ThreadPoint.weight]⟩
    · split
      · exact ⟨⟨h.isLoop, h.owner⟩, by simp [ThreadPoint.weight]⟩
      · exact ⟨⟨h.isLoop, h.owner⟩, le_rfl⟩
  case case5 =>
    refine ⟨⟨h.isLoop, h.owner⟩, ?_⟩
    show ThreadPoint.weight (if _ then _ else _) + 1 ≤ 6
    split <;> decide
  all_goals exact ⟨⟨h.isLoop, h.owner⟩, le_rfl⟩

/-- The steps of the thread of a session. -/
def EncoderAction.ofThread (k : ℕ) : EncoderAction → Bool
  | thread j _ => j = k
  | _ => false

/-- A step that changes a session, perhaps another one. -/
theorem stopped_set {j : ℕ} (h : (s.session k).Stopped)
    (hsession : t.session = Function.update s.session j x)
    (hself : j = k → x.Stopped ∧ x.thread = (s.session k).thread) :
    (t.session k).Stopped ∧ (t.session k).thread.weight ≤ (s.session k).thread.weight := by
  rw [hsession]
  by_cases hjk : j = k
  · obtain ⟨hstopped, hthread⟩ := hself hjk
    subst hjk
    rw [Function.update_self, hthread]
    exact ⟨hstopped, le_rfl⟩
  · rw [Function.update_of_ne (Ne.symm hjk)]
    exact ⟨h, le_rfl⟩

/-- A call of the audio device changes no session. -/
theorem callNext_session {i : ℕ} {fits : Bool} (hstep : s.callNext i fits = some t) :
    t.session = s.session := by
  unfold EncoderState.callNext at hstep
  simp only at hstep
  cases hp : s.calls[i]? with
  | none => simp [hp] at hstep
  | some p =>
    cases p <;> simp only [hp, Option.some.injEq, reduceCtorEq] at hstep <;> subst hstep <;> rfl

/-- **Whatever happens**, a thread that is told to stop comes no further from its end. -/
theorem Orderly.stopped {a : EncoderAction} (h : Orderly s) (hx : (s.session k).Stopped)
    (hstep : s.step a t) : (t.session k).Stopped ∧
      (t.session k).thread.weight + (a.ofThread k).toNat ≤ (s.session k).thread.weight := by
  -- an owner that waits does not call
  have hidle {j : ℕ} {p : OwnerPoint} (howner : (s.session j).owner = p) (hp : ¬p.Waiting) :
      j ≠ k := by
    rintro rfl
    exact hp (howner ▸ hx.owner)
  cases a with
  | create j =>
    obtain ⟨howner, heq⟩ := Option.ite_none_right_eq_some.mp hstep
    obtain rfl := Option.some.inj heq
    exact stopped_set hx rfl fun hjk => absurd hjk (hidle howner id)
  | start j ok =>
    obtain ⟨howner, heq⟩ := Option.ite_none_right_eq_some.mp hstep
    obtain rfl := Option.some.inj heq
    have hjk := hidle howner id
    unfold EncoderState.yangBkVideoStart
    split
    · exact ⟨hx, le_rfl⟩
    · split
      · exact stopped_set hx rfl fun h => absurd h hjk
      · exact ⟨hx, le_rfl⟩
  | stop j =>
    obtain ⟨howner, heq⟩ := Option.ite_none_right_eq_some.mp hstep
    obtain rfl := Option.some.inj heq
    exact stopped_set hx rfl fun hjk => absurd hjk (hidle howner id)
  | destroy j =>
    obtain ⟨howner, heq⟩ := Option.ite_none_right_eq_some.mp hstep
    obtain rfl := Option.some.inj heq
    exact stopped_set hx rfl fun hjk => absurd hjk (hidle howner id)
  | owner j =>
    have hstep' : s.yangDestroyIpcEncoder j = some t := hstep
    unfold EncoderState.yangDestroyIpcEncoder at hstep'
    cases howner : (s.session j).owner <;>
      simp only [howner, Option.some.injEq, reduceCtorEq] at hstep' <;> subst hstep'
    case clear => exact stopped_set hx rfl fun hjk => absurd hjk (hidle howner id)
    case stop => exact stopped_set hx rfl fun hjk => absurd hjk (hidle howner id)
    case wait =>
      refine stopped_set hx rfl ?_
      rintro rfl
      refine ⟨⟨hx.isLoop, ?_⟩, rfl⟩
      show OwnerPoint.Waiting (if _ then _ else _)
      split <;> trivial
    case free =>
      refine stopped_set hx rfl ?_
      rintro rfl
      exact ⟨⟨hx.isLoop, trivial⟩, rfl⟩
  | thread j enabled =>
    obtain ⟨y, hy, heq⟩ := Option.map_eq_some_iff.mp hstep
    have hsession : t.session = Function.update s.session j y := by
      rw [← heq]
      split <;> rfl
    by_cases hjk : j = k
    · subst hjk
      obtain ⟨hstopped, hweight⟩ := threadSession_weight hx (h.fits j) hy
      rw [hsession, Function.update_self, EncoderAction.ofThread, decide_eq_true rfl]
      exact ⟨hstopped, hweight⟩
    · rw [EncoderAction.ofThread, decide_eq_false hjk]
      exact stopped_set hx hsession fun heq => absurd heq hjk
  | voice =>
    obtain rfl := Option.some.inj hstep
    exact ⟨hx, le_rfl⟩
  | call i fits =>
    have hsession : t.session = s.session := callNext_session hstep
    rw [hsession]
    exact ⟨hx, le_rfl⟩

theorem threadSession_goes (hrunning : x.thread.Running) :
    ∃ y, EncoderState.threadSession x g enabled = some y := by
  unfold EncoderState.threadSession
  cases hp : x.thread with
  | absent | created | starting | ended =>
    rw [hp] at hrunning
    exact hrunning.elim
  | _ => exact ⟨_, rfl⟩

/-! ## Main results -/

/-- **Threads use live sessions.** Whatever the other encoders and the audio device do, the thread
of a session uses it only before it is freed, no session is freed twice, and those that are freed
are those whose `yang_destroy_ipcEncoder` is done. -/
theorem threads_use_live_sessions
    (h : Reaches (Guarded EncoderState.step EncoderState.Lawful) .boot s) :
    (∀ l₁ k l₂, s.log = l₁ ++ .thread k :: l₂ → .free k ∉ l₁) ∧
      (∀ l₁ k l₂, s.log = l₁ ++ .free k :: l₂ → .free k ∉ l₁) ∧
      ∀ k, .free k ∈ s.log ↔ (s.session k).owner = .destroyed := by
  have horderly := orderly_of_reaches h
  exact ⟨fun l₁ k l₂ hlog => horderly.log l₁ _ l₂ hlog,
    fun l₁ k l₂ hlog => horderly.log l₁ _ l₂ hlog, horderly.freed⟩

/-- **The audio device finds its session.** Whatever happens, a call of the audio device uses a
session that is not freed, and no null pointer, unless a session has begun to be destroyed behind
its test of the global, or the session was made the global one behind the clear of its own
destruction. -/
theorem voice_finds_its_session
    (h : Reaches (Guarded EncoderState.step EncoderState.Lawful) .boot s) :
    ∀ l₁ target l₂, s.log = l₁ ++ .voice target true :: l₂ →
      ∃ k, target = some k ∧ (.free k ∉ l₁ ∨ Behind l₁ k) :=
  fun l₁ _ l₂ hlog => (orderly_of_reaches h).log l₁ _ l₂ hlog rfl

/-- **The wait ends.** While `yang_destroy_ipcEncoder` waits, the thread of the session takes seven
steps at most, whatever everybody else does, and it can always take the next one until `isStart` is
false; and then the wait is over. -/
theorem destroy_encoder_returns {n : ℕ}
    (h : Reaches (Guarded EncoderState.step EncoderState.Lawful) .boot s)
    (hwait : (s.session k).owner = .wait)
    (hrun : Counted (EncoderAction.ofThread k) (Guarded EncoderState.step EncoderState.Lawful)
      s n t) :
    n ≤ 7 ∧ ((t.session k).owner = .wait →
      (∀ enabled, ∃ u, t.threadNext k enabled = some u) ∨
      ∃ u, t.yangDestroyIpcEncoder k = some u ∧ (u.session k).owner = .free) := by
  have horderly := orderly_of_reaches h
  have hstopped : (s.session k).Stopped :=
    ⟨(horderly.fits k).waits hwait, by rw [hwait]; trivial⟩
  have hbound := hrun.bounded (C := fun s => Orderly s ∧ (s.session k).Stopped)
    (m := fun s => (s.session k).thread.weight) ⟨horderly, hstopped⟩
    (fun _ _ _ hs hstep => ⟨hs.1.step hstep.1 hstep.2, (hs.1.stopped hs.2 hstep.2).1⟩)
    fun _ _ _ hs hstep => (hs.1.stopped hs.2 hstep.2).2
  have hle : (s.session k).thread.weight ≤ 7 := by
    cases (s.session k).thread <;> decide
  refine ⟨by omega, fun hwait' => ?_⟩
  have hfits := (hrun.reaches.invariant horderly
    fun _ _ _ hs hstep => hs.step hstep.1 hstep.2).fits k
  by_cases hrunning : (t.session k).thread.Running
  · refine .inl fun enabled => ?_
    have hgoes : ∃ y, EncoderState.threadSession (t.session k) t.gYangSession enabled = some y :=
      threadSession_goes hrunning
    obtain ⟨y, hy⟩ := hgoes
    exact ⟨_, Option.map_eq_some_iff.mpr ⟨y, hy, rfl⟩⟩
  · have hstart : ¬(t.session k).video.isStart = true := mt hfits.started.mp hrunning
    have hnext : t.yangDestroyIpcEncoder k =
        some (t.set k { t.session k with owner := .free }) := by
      simp only [EncoderState.yangDestroyIpcEncoder, hwait', if_neg hstart]
    refine .inr ⟨_, hnext, ?_⟩
    show (Function.update t.session k _ k).owner = _
    rw [Function.update_self]

/-! ## Runs -/

/-- What is expected, as a test. -/
def EncoderState.lawful (s : EncoderState) : EncoderAction → Bool
  | .start k _ | .destroy k => (s.session k).thread ≠ .created ∧ (s.session k).thread ≠ .starting
  | _ => true

theorem EncoderState.lawful_of_test {a : EncoderAction} (h : s.lawful a = true) :
    s.Lawful a := by
  cases a with
  | start k _ | destroy k =>
    have hthread : (s.session k).thread ≠ .created ∧ (s.session k).thread ≠ .starting :=
      of_decide_eq_true h
    exact hthread
  | _ => trivial

/-- The step an action leads to. -/
def EncoderState.move (s : EncoderState) (a : EncoderAction) :
    Option (EncoderAction × EncoderState) := (s.next a).map (a, ·)

/-- An encoder is started, and a call of the audio device puts a chunk into its buffer; it begins to
be destroyed between the test and the section of the call, and its owner waits. -/
def destroyedWhileUsed : List EncoderAction :=
  [(1, .create 0), (1, .start 0 true), (8, .thread 0 true), (1, .voice), (3, .call 0 true),
    (1, .destroy 0), (1, .owner 0), (1, .call 0 true), (1, .owner 0)].flatMap
      fun move : ℕ × EncoderAction => List.replicate move.1 move.2

/-- What is observed of it. -/
theorem exists_destroyedWhileUsed :
    ∃ s, Reaches (Guarded EncoderState.step EncoderState.Lawful) .boot s ∧
      (s.session 0).owner = .wait ∧ (s.session 0).thread = .loop ∧
      s.log = (List.replicate 6 (.thread 0) ++ [.install 0, .thread 0, .thread 0]) ++
        .voice (some 0) true :: [.clear 0, .voice (some 0) false] := by
  have hplay : (play EncoderState.move EncoderState.lawful destroyedWhileUsed .boot).any (fun s =>
      (s.session 0).owner = .wait ∧ (s.session 0).thread = .loop ∧
        s.log = (List.replicate 6 (.thread 0) ++ [.install 0, .thread 0, .thread 0]) ++
          .voice (some 0) true :: [.clear 0, .voice (some 0) false]) = true := by decide +kernel
  obtain ⟨s, hrun, hs⟩ := exists_reaches_of_play (fun _ _ _ _ => next_of_labelled) hplay
  exact ⟨s, hrun.weaken fun _ _ => EncoderState.lawful_of_test, of_decide_eq_true hs⟩

/-- The same session, when its thread has ended and it is freed. -/
theorem threads_use_live_sessions_freed : ∃ s : EncoderState,
    (s.session 0).thread = .ended ∧ .free 0 ∈ s.log := by
  have hplay : (play EncoderState.move EncoderState.lawful
      (destroyedWhileUsed ++ [.thread 0 true, .thread 0 true, .owner 0, .owner 0]) .boot).any
      (fun s => (s.session 0).owner = .destroyed ∧ (s.session 0).thread = .ended) = true := by
    decide +kernel
  obtain ⟨s, hrun, hs⟩ := exists_reaches_of_play (fun _ _ _ _ => next_of_labelled) hplay
  obtain ⟨howner, hended⟩ := of_decide_eq_true hs
  have hreached := hrun.weaken fun _ _ => EncoderState.lawful_of_test
  exact ⟨s, hended, ((threads_use_live_sessions hreached).2.2 0).mpr howner⟩

/-- The first use of the session by the call. -/
theorem voice_finds_its_session_first : ∃ (log : List EncoderEvent) (k : ℕ),
    some 0 = some k ∧ (.free k ∉ log ∨ Behind log k) := by
  obtain ⟨s, hrun, -, -, hlog⟩ := exists_destroyedWhileUsed
  exact ⟨_, voice_finds_its_session hrun _ (some 0) _ hlog⟩

/-- An encoder begins to be destroyed when its thread has entered its loop. -/
def destroyedAtOnce : List EncoderAction :=
  [.create 0, .start 0 true, .thread 0 true, .thread 0 true, .thread 0 true, .destroy 0, .owner 0,
    .owner 0]

/-- The thread takes all of the seven steps, and the wait is over. -/
theorem destroy_encoder_returns_loop : ∃ s t : EncoderState,
    (s.session 0).owner = .wait ∧ (s.session 0).thread = .enable ∧
      (List.replicate 7 (EncoderAction.thread 0 true)).countP (EncoderAction.ofThread 0) = 7 ∧
      7 ≤ 7 ∧ (t.session 0).thread = .ended ∧
      ∃ u, t.yangDestroyIpcEncoder 0 = some u ∧ (u.session 0).owner = .free := by
  have hplay : (play EncoderState.move EncoderState.lawful destroyedAtOnce .boot).any (fun s =>
      (s.session 0).owner = .wait ∧ (s.session 0).thread = .enable ∧
        (play EncoderState.move EncoderState.lawful (List.replicate 7 (.thread 0 true)) s).any
          (fun t => (t.session 0).owner = .wait ∧ (t.session 0).thread = .ended)) = true := by
    decide +kernel
  obtain ⟨s, hrun, hs⟩ := exists_reaches_of_play (fun _ _ _ _ => next_of_labelled) hplay
  obtain ⟨hwait, henable, hrest⟩ := of_decide_eq_true hs
  obtain ⟨t, hplay', ht⟩ := (Option.any_eq_true _ _).mp hrest
  obtain ⟨hwait', hended⟩ := of_decide_eq_true ht
  have hcounted : Counted (EncoderAction.ofThread 0) _ s 7 t :=
    counted_of_play (fun _ _ _ => id) hplay'
  obtain ⟨hle, hover⟩ := destroy_encoder_returns
    (hrun.weaken fun _ _ => EncoderState.lawful_of_test) hwait
    (hcounted.mono fun _ _ _ ha => ⟨EncoderState.lawful_of_test ha.1, ha.2⟩)
  refine ⟨s, t, hwait, henable, by decide, hle, hended, (hover hwait').resolve_left fun hgo => ?_⟩
  -- a thread that has ended takes no step
  obtain ⟨u, hstep⟩ := hgo true
  rw [EncoderState.threadNext, EncoderState.threadSession, hended] at hstep
  exact absurd hstep (Option.some_ne_none _).symm

/-- **The global may be a session that is freed**: its thread has found the global clear, and sets
it behind the clear of the owner. -/
theorem voice_may_find_a_freed_session : ∃ (s : EncoderState) (l : List EncoderEvent),
    Reaches (Guarded EncoderState.step EncoderState.Lawful) .boot s ∧
      s.log = l ++ [.voice (some 0) true] ∧ .free 0 ∈ l := by
  have hplay : (play EncoderState.move EncoderState.lawful
      ([(1, .create 0), (1, .start 0 true), (5, .thread 0 true), (1, .destroy 0), (1, .owner 0),
        (1, .thread 0 true), (1, .owner 0), (4, .thread 0 true), (2, .owner 0), (1, .voice),
        (3, .call 0 true)].flatMap fun move : ℕ × EncoderAction => List.replicate move.1 move.2)
      .boot).any (fun s => s.log = (List.replicate 5 (.thread 0) ++
        [.clear 0, .thread 0, .install 0, .thread 0, .thread 0, .thread 0, .thread 0, .free 0]) ++
          [.voice (some 0) true]) = true := by decide +kernel
  obtain ⟨s, hrun, hs⟩ := exists_reaches_of_play (fun _ _ _ _ => next_of_labelled) hplay
  exact ⟨s, _, hrun.weaken fun _ _ => EncoderState.lawful_of_test, of_decide_eq_true hs, by simp⟩

end Encoder

end YangIpc
