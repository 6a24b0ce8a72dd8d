import YangIpc.Audio.Device

/-!
# The handles of the voice service

As long as no call of `yangipc_audio_turn_on` or `yangipc_audio_turn_off` begins while another is
at work, the voice service is used as it has to be: every handle that is obtained is stopped and
given back once, whatever fails in between, and a block of audio goes to a handle that is started.

## Main definitions

* `sdk`: a monitor of the handles that are in use
* `AudioPoint.Inside`, `AudioState.Alone`: the calls at work, and that they do not overlap
* `Handled`: the invariant

## Main results

* `handles_are_given_back`: every run
* `frames_reach_the_speaker`: the blocks of audio
-/

namespace YangIpc

namespace Audio

open Transition Trace

/-! ## The handles in use -/

/-- What has been done with a handle. -/
inductive Phase
  | inited
  | started
  | stopped
deriving DecidableEq, Repr

/-- The handles in use. -/
abbrev Sdk := VoiceKind → Option (VoiceHandle × Phase)

/-- What a call does to the handles in use; `none` if it must not be made.  The voice itself is
initialised first and given back last. -/
def sdkStep : Option Sdk → AudioEvent → Option Sdk
  | none, _ => none
  | some u, .init kind h =>
    if u kind = none ∧ (if kind = .voice then u .read = none ∧ u .write = none else u .voice ≠ none)
    then some (Function.update u kind (some (h, .inited))) else none
  | some u, .start kind h ok =>
    if h ≠ none ∧ u kind = h.map (·, .inited) then
      some (if ok then Function.update u kind (h.map (·, .started)) else u)
    else none
  | some u, .stop kind h =>
    if u kind = some (h, .inited) ∨ u kind = some (h, .started) then
      some (Function.update u kind (some (h, .stopped)))
    else none
  | some u, .deinit kind h =>
    if u kind = some (h, .stopped) ∧ (kind = .voice → u .read = none ∧ u .write = none) then
      some (Function.update u kind none)
    else none
  | some u, .configured _ | some u, .changed _ | some u, .frame _ _ => some u

/-- The handles in use behind a trace; `none` if a call was made that must not be. -/
def sdk (log : List AudioEvent) : Option Sdk := observe sdkStep (some fun _ => none) log

@[simp] theorem sdk_snoc {log : List AudioEvent} {e : AudioEvent} :
    sdk (log ++ [e]) = sdkStep (sdk log) e := observe_snoc

/-! ## The calls at work -/

/-- The call has passed its first test, and may still use the record. -/
def AudioPoint.Inside : AudioPoint → Prop
  | onTest _ | offTest | changedOn | returned _ => False
  | _ => True

instance : (p : AudioPoint) → Decidable p.Inside
  | .onTest _ | .offTest | .changedOn | .returned _ => inferInstanceAs (Decidable False)
  | .init _ _ | .start _ | .setEnable | .clearEnable | .changedOff | .stop _ _ | .deinit _ _
  | .null _ _ => inferInstanceAs (Decidable True)

/-- The first test of a call succeeds, and it goes on. -/
def AudioPoint.Passes (enable : Bool) : AudioPoint → Prop
  | onTest _ => enable = false
  | offTest => enable = true
  | _ => False

instance (enable : Bool) : (p : AudioPoint) → Decidable (p.Passes enable)
  | .onTest _ => inferInstanceAs (Decidable (enable = false))
  | .offTest => inferInstanceAs (Decidable (enable = true))
  | .changedOn | .returned _ | .init _ _ | .start _ | .setEnable | .clearEnable | .changedOff
  | .stop _ _ | .deinit _ _ | .null _ _ => inferInstanceAs (Decidable False)

/-- A call passes its first test only while no other is at work. -/
def AudioState.Alone (w : AudioState) : AudioState.Action → Prop
  | .call i _ => ∀ p ∈ w.calls[i]?, p.Passes w.info.audioEnable → ∀ q ∈ w.calls, ¬q.Inside
  | _ => True

/-! ## What is stored -/

/-- What is known of a handle of the record. -/
inductive Holding
  /-- not obtained, and `NULL` -/
  | empty
  | is (phase : Phase)
  /-- not obtained, or not stopped -/
  | unstopped
  /-- not obtained, or stopped -/
  | stopped
  /-- given back, and perhaps not `NULL` -/
  | gone

/-- A handle of the record and the handle in use are as they are expected to be. -/
def Holding.Fits (stored : Option VoiceHandle) (used : Option (VoiceHandle × Phase)) :
    Holding → Prop
  | empty => stored = none ∧ used = none
  | is phase => ∃ h, stored = some h ∧ used = some (h, phase)
  | unstopped => stored = none ∧ used = none ∨
      ∃ h, stored = some h ∧ (used = some (h, .inited) ∨ used = some (h, .started))
  | stopped => stored = none ∧ used = none ∨ ∃ h, stored = some h ∧ used = some (h, .stopped)
  | gone => used = none

/-- What is expected of the handles where a call is at work; elsewhere it depends on
`audio_enable`. -/
def AudioPoint.holding (enable : Bool) : AudioPoint → VoiceKind → Holding
  | init .voice _, _ => .empty
  | init .read _, .voice => .is .inited
  | init .read _, _ => .empty
  | init .write _, .write => .empty
  | init .write _, _ => .is .inited
  | start .voice, _ => .is .inited
  | start .read, .voice => .is .started
  | start .read, _ => .is .inited
  | start .write, .write => .is .inited
  | start .write, _ => .is .started
  | setEnable, _ | clearEnable, _ | changedOff, _ => .is .started
  | stop .read _, _ => .unstopped
  | stop .write _, .read => .stopped
  | stop .write _, _ => .unstopped
  | stop .voice _, .voice => .unstopped
  | stop .voice _, _ => .stopped
  | deinit .read _, _ => .stopped
  | deinit .write _, .read => .gone
  | deinit .write _, _ => .stopped
  | deinit .voice _, .voice => .stopped
  | deinit .voice _, _ => .gone
  | null .read _, _ => .gone
  | null .write _, .read => .empty
  | null .write _, _ => .gone
  | null .voice _, .voice => .gone
  | null .voice _, _ => .empty
  | onTest _, _ | offTest, _ | changedOn, _ | returned _, _ =>
    if enable then .is .started else .empty

/-- The handle that a step has to do with. -/
def AudioPoint.kind : AudioPoint → Option VoiceKind
  | init kind _ | start kind | stop kind _ | deinit kind _ | null kind _ => some kind
  | _ => none

/-- The handles of the record and those in use are as they are expected to be where a call is. -/
def Fits (info : DbAudioDeviceInfo) (log : List AudioEvent) (p : AudioPoint) : Prop :=
  ∃ u, sdk log = some u ∧ ∀ k, (p.holding info.audioEnable k).Fits (info.handle k) (u k)

variable {info : DbAudioDeviceInfo} {log log' : List AudioEvent} {w w' : AudioState}
  {p p' : AudioPoint} {i : ℕ} {kind k : VoiceKind} {u : Sdk}

/-- A step changes what is expected of its own handle only. -/
theorem holding_following (hkind : p.kind = some kind) (hk : k ≠ kind) :
    p.following.holding false k = p.holding false k := by
  cases p with
  | init q _ | start q | stop q _ | deinit q _ | null q _ =>
    obtain rfl := Option.some.inj hkind
    cases q <;> cases k <;> first | rfl | exact absurd rfl hk
  | _ => exact absurd hkind (Option.some_ne_none kind).symm

/-- In `yangipc_audio_turn_on` nothing is stopped up to the label `error`. -/
theorem unstopped_of_turnOn {a : AudioParameters} {stored : Option VoiceHandle}
    {used : Option (VoiceHandle × Phase)} (hp : p = .init kind a ∨ p = .start kind)
    (h : (p.holding false k).Fits stored used) : Holding.unstopped.Fits stored used := by
  have hcases : p.holding false k = .empty ∨ p.holding false k = .is .inited ∨
      p.holding false k = .is .started := by
    rcases hp with rfl | rfl <;> cases kind <;> cases k <;> simp [AudioPoint.holding]
  rcases hcases with he | he | he <;> rw [he] at h
  · exact .inl h
  · obtain ⟨x, hs, hu⟩ := h
    exact .inr ⟨x, hs, .inl hu⟩
  · obtain ⟨x, hs, hu⟩ := h
    exact .inr ⟨x, hs, .inr hu⟩

/-- A step that has to do with one handle. -/
theorem fits_of_update {x : Option VoiceHandle} {v : Option (VoiceHandle × Phase)}
    (hfits : ∀ k, (p.holding false k).Fits (info.handle k) (u k))
    (hp : p.kind = some kind) (henable : info.audioEnable = false)
    (hsdk : sdk log' = some (Function.update u kind v))
    (hkind : (p.following.holding false kind).Fits x v) :
    Fits { info with handle := Function.update info.handle kind x } log' p.following := by
  refine ⟨_, hsdk, fun k => ?_⟩
  simp only [henable]
  by_cases hk : k = kind
  · subst hk
    rwa [Function.update_self, Function.update_self]
  · rw [Function.update_of_ne hk, Function.update_of_ne hk, holding_following hp hk]
    exact hfits k

/-- There is no handle yet where one is initialised. -/
theorem Fits.init_empty {parameters : AudioParameters} (h : Fits info log (.init kind parameters))
    (henable : info.audioEnable = false) :
    { info with handle := Function.update info.handle kind none } = info := by
  obtain ⟨u, -, hfits⟩ := h
  have hthis := hfits kind
  rw [henable] at hthis
  have hnone : info.handle kind = none := by
    cases kind <;> exact hthis.1
  rw [Function.update_eq_self_iff.mpr hnone.symm]

/-- A handle is initialised, or it is not. -/
theorem Fits.init {parameters : AudioParameters} (h : Fits info log (.init kind parameters))
    (henable : info.audioEnable = false) (handle : Option VoiceHandle) :
    Fits { info with handle := Function.update info.handle kind handle }
      (handle.elim log fun x => log ++ [.init kind x])
      (if handle.isSome then (AudioPoint.init kind parameters).following else .error) := by
  have hempty := h.init_empty henable
  obtain ⟨u, hu, hfits⟩ := h
  simp only [henable] at hfits
  cases handle with
  | none =>
    rw [hempty]
    refine ⟨u, hu, fun k => ?_⟩
    simp only [henable]
    exact unstopped_of_turnOn (.inl rfl) (hfits k)
  | some x =>
    have hunused : u kind = none := by
      have hthis := hfits kind
      cases kind <;> exact hthis.2
    refine fits_of_update (v := some (x, .inited)) hfits rfl henable ?_ ?_
    · show sdk (log ++ [.init kind x]) = _
      rw [sdk_snoc, hu, sdkStep, if_pos]
      -- the voice comes first; reader and writer need it
      refine ⟨hunused, ?_⟩
      cases kind with
      | voice => exact ⟨(hfits .read).2, (hfits .write).2⟩
      | read =>
        obtain ⟨y, -, hy⟩ := hfits .voice
        simp [hy]
      | write =>
        obtain ⟨y, -, hy⟩ := hfits .voice
        simp [hy]
    · cases kind <;> exact ⟨x, rfl, rfl⟩

/-- A handle is started, or it is not. -/
theorem Fits.start (h : Fits info log (.start kind)) (henable : info.audioEnable = false)
    (ok : Bool) :
    Fits info (log ++ [.start kind (info.handle kind) ok])
      (if ok then (AudioPoint.start kind).following else .error) := by
  obtain ⟨u, hu, hfits⟩ := h
  simp only [henable] at hfits
  obtain ⟨x, hsome, hused⟩ : ∃ x, info.handle kind = some x ∧ u kind = some (x, .inited) := by
    have hthis := hfits kind
    cases kind <;> exact hthis
  have hsdk : sdk (log ++ [.start kind (info.handle kind) ok]) =
      some (if ok then Function.update u kind (some (x, .started)) else u) := by
    rw [sdk_snoc, hu, hsome]
    simp [sdkStep, hused]
  cases ok with
  | false =>
    refine ⟨u, hsdk, fun k => ?_⟩
    simp only [henable]
    exact unstopped_of_turnOn (a := ⟨0, 0, .pcm, 0, 0⟩) (.inr rfl) (hfits k)
  | true =>
    have hupdate := fits_of_update (x := info.handle kind) hfits rfl henable hsdk
      (by rw [hsome]; cases kind <;> exact ⟨x, rfl, rfl⟩)
    rwa [Function.update_eq_self] at hupdate

/-- A handle is stopped, if there is one. -/
theorem Fits.stop {ok : Bool} (h : Fits info log (.stop kind ok))
    (henable : info.audioEnable = false) :
    Fits info ((info.handle kind).elim log fun x => log ++ [.stop kind x])
      (AudioPoint.stop kind ok).following := by
  obtain ⟨u, hu, hfits⟩ := h
  simp only [henable] at hfits
  have hthis : Holding.unstopped.Fits (info.handle kind) (u kind) := by
    have hthis := hfits kind
    cases kind <;> exact hthis
  have hgoal (used : Option (VoiceHandle × Phase))
      (hsdk : sdk ((info.handle kind).elim log fun x => log ++ [.stop kind x]) =
        some (Function.update u kind used))
      (hkind : Holding.stopped.Fits (info.handle kind) used) :
      Fits info ((info.handle kind).elim log fun x => log ++ [.stop kind x])
        (AudioPoint.stop kind ok).following := by
    have hupdate := fits_of_update (p := .stop kind ok) (x := info.handle kind) hfits rfl
      henable hsdk (by cases kind <;> exact hkind)
    rwa [Function.update_eq_self] at hupdate
  rcases hthis with ⟨hnone, hunused⟩ | ⟨x, hsome, hused⟩
  · refine hgoal none ?_ (.inl ⟨hnone, rfl⟩)
    rw [hnone, Option.elim_none, hu, ← hunused, Function.update_eq_self]
  · refine hgoal (some (x, .stopped)) ?_ (.inr ⟨x, hsome, rfl⟩)
    rw [hsome, Option.elim_some, sdk_snoc, hu, sdkStep, if_pos hused]

/-- A handle is given back, if there is one. -/
theorem Fits.deinit {ok : Bool} (h : Fits info log (.deinit kind ok))
    (henable : info.audioEnable = false) :
    Fits info ((info.handle kind).elim log fun x => log ++ [.deinit kind x])
      (AudioPoint.deinit kind ok).following := by
  obtain ⟨u, hu, hfits⟩ := h
  simp only [henable] at hfits
  have hthis : Holding.stopped.Fits (info.handle kind) (u kind) := by
    have hthis := hfits kind
    cases kind <;> exact hthis
  -- the voice is given back last
  have hlast (hvoice : kind = .voice) : u .read = none ∧ u .write = none := by
    subst hvoice
    exact ⟨hfits .read, hfits .write⟩
  have hsdk : sdk ((info.handle kind).elim log fun x => log ++ [.deinit kind x]) =
      some (Function.update u kind none) := by
    rcases hthis with ⟨hnone, hunused⟩ | ⟨x, hsome, hused⟩
    · rw [hnone, Option.elim_none, hu, ← hunused, Function.update_eq_self]
    · rw [hsome, Option.elim_some, sdk_snoc, hu, sdkStep, if_pos ⟨hused, hlast⟩]
  have hupdate := fits_of_update (p := .deinit kind ok) (x := info.handle kind) hfits rfl
    henable hsdk (by cases kind <;> rfl)
  rwa [Function.update_eq_self] at hupdate

/-- A handle is set to `NULL`. -/
theorem Fits.null {ok : Bool} (h : Fits info log (.null kind ok))
    (henable : info.audioEnable = false) :
    Fits { info with handle := Function.update info.handle kind none } log
      (AudioPoint.null kind ok).following := by
  obtain ⟨u, hu, hfits⟩ := h
  simp only [henable] at hfits
  have hgone : u kind = none := by
    have hthis := hfits kind
    cases kind <;> exact hthis
  refine fits_of_update (p := .null kind ok) (v := none) hfits rfl henable ?_ ?_
  · rw [hu, ← hgone, Function.update_eq_self]
  · cases kind <;> exact ⟨rfl, rfl⟩

/-! ## The invariant -/

/-- A block that is written without the audio having been turned off since the test goes to a
handle that is started. -/
def FrameOk (log : List AudioEvent) : AudioEvent → Prop
  | .frame handle true => ∃ x u, handle = some x ∧ sdk log = some u ∧ u .write = some (x, .started)
  | _ => True

/-- `p` is where the call at work is, or none is at work. -/
def At (calls : List AudioPoint) (p : AudioPoint) : Prop :=
  (∃ i, calls[i]? = some p ∧ p.Inside ∧
      ∀ (j : ℕ) (q : AudioPoint), j ≠ i → calls[j]? = some q → ¬q.Inside) ∨
    ¬p.Inside ∧ ∀ q ∈ calls, ¬q.Inside

/-- The handles are as they are expected to be where the call at work is. -/
structure Expected (info : DbAudioDeviceInfo) (log : List AudioEvent) (p : AudioPoint) : Prop where
  fits : Fits info log p
  enable : p.Inside → (info.audioEnable = true ↔ p = .clearEnable)

/-- The invariant. -/
structure Handled (w : AudioState) : Prop where
  current : ∃ p, At w.calls p ∧ Expected w.info w.log p
  writers : ∀ n, .write n ∈ w.writers →
    n ≤ w.cleared ∧ (n = w.cleared → w.info.audioEnable = true)
  frames : Always FrameOk w.log

/-- What a step of a call changes. -/
structure Goes (w w' : AudioState) : Prop where
  writers : w'.writers = w.writers
  enable : w'.cleared = w.cleared ∧ (w.info.audioEnable = true → w'.info.audioEnable = true) ∨
    w'.cleared = w.cleared + 1
  log : ∃ l, w'.log = w.log ++ l ∧ ∀ e ∈ l, ∀ log, FrameOk log e

theorem goes_of_eq {l : List AudioEvent} (hwriters : w'.writers = w.writers)
    (hcleared : w'.cleared = w.cleared)
    (henable : w.info.audioEnable = true → w'.info.audioEnable = true)
    (hlog : w'.log = w.log ++ l) (hl : ∀ e ∈ l, ∀ log, FrameOk log e) : Goes w w' :=
  ⟨hwriters, .inl ⟨hcleared, henable⟩, l, hlog, hl⟩

/-- An event of the voice service for a handle that is there. -/
theorem elim_emit {f : VoiceHandle → AudioEvent} (handle : Option VoiceHandle)
    (hf : ∀ x log, FrameOk log (f x)) :
    ∃ l, (handle.elim w fun x => w.emit (f x)) = { w with log := w.log ++ l } ∧
      (handle.elim w.log fun x => w.log ++ [f x]) = w.log ++ l ∧
      ∀ e ∈ l, ∀ log, FrameOk log e := by
  cases handle with
  | none => exact ⟨[], by simp, by simp, by simp⟩
  | some x => exact ⟨[f x], rfl, rfl, by simpa using hf x⟩

/-- What `bk_voice_init` and its companions lead to. -/
theorem Fits.initStep {parameters : AudioParameters} {w₁ : AudioState} {ok : Bool}
    {x : Option VoiceHandle} (h : Fits w.info w.log (.init kind parameters))
    (henable : w.info.audioEnable = false)
    (hinit : w.initStep kind parameters x = (w₁, ok)) :
    w₁.calls = w.calls ∧ Goes w w₁ ∧ w₁.info.audioEnable = false ∧
      Fits w₁.info w₁.log
        (if ok then (AudioPoint.init kind parameters).following else .error) := by
  -- the handle is stored, behind events that the monitor ignores
  have hstored (l : List AudioEvent) (hl : ∀ e ∈ l, ∃ cfg, e = .configured cfg)
      (hinit : AudioState.keepHandle { w with log := w.log ++ l } kind x = (w₁, ok)) :
      w₁.calls = w.calls ∧ Goes w w₁ ∧ w₁.info.audioEnable = false ∧
        Fits w₁.info w₁.log
          (if ok then (AudioPoint.init kind parameters).following else .error) := by
    have hframes : ∀ e ∈ l, ∀ log, FrameOk log e := by
      intro e he
      obtain ⟨cfg, rfl⟩ := hl e he
      exact fun _ => trivial
    have hquiet : sdk (w.log ++ l) = sdk w.log := by
      refine observe_neutral fun e he => ?_
      obtain ⟨cfg, rfl⟩ := hl e he
      cases observe sdkStep (some fun _ => none) w.log <;> rfl
    have hfits : Fits w.info (w.log ++ l) (.init kind parameters) := by
      obtain ⟨u, hu, hfits⟩ := h
      exact ⟨u, hquiet.trans hu, hfits⟩
    have hnext := hfits.init henable x
    cases x with
    | none =>
      obtain ⟨rfl, rfl⟩ := Prod.mk.inj hinit
      exact ⟨rfl, goes_of_eq rfl rfl id rfl hframes, henable, hnext⟩
    | some y =>
      obtain ⟨rfl, rfl⟩ := Prod.mk.inj hinit
      refine ⟨rfl, goes_of_eq (l := l ++ [.init kind y]) rfl rfl id ?_ ?_, henable, hnext⟩
      · exact List.append_assoc w.log l _
      · intro e he
        rcases List.mem_append.mp he with he | he
        · exact hframes e he
        · obtain rfl := List.mem_singleton.mp he
          exact fun _ => trivial
  unfold AudioState.initStep at hinit
  cases kind with
  | read => exact hstored [] (by simp) (by simpa only [List.append_nil] using hinit)
  | write => exact hstored [] (by simp) (by simpa only [List.append_nil] using hinit)
  | voice =>
    simp only at hinit
    split at hinit
    · rename_i cfg _
      exact hstored [.configured cfg] (by simp) hinit
    · -- the format is not supported
      obtain ⟨rfl, rfl⟩ := Prod.mk.inj hinit
      have hnext := h.init henable none
      rw [h.init_empty henable] at hnext
      exact ⟨rfl, goes_of_eq (l := []) rfl rfl id (List.append_nil _).symm (by simp), henable,
        hnext⟩

/-- **A step of the call at work.** -/
theorem Expected.callNext {answer : AudioAnswer} (h : Expected w.info w.log p)
    (hp : w.calls[i]? = some p) (hinside : p.Inside) (hstep : w.callNext i answer = some w') :
    ∃ p', w'.calls = w.calls.set i p' ∧ Expected w'.info w'.log p' ∧ Goes w w' := by
  have hdisabled (hne : p ≠ .clearEnable) : w.info.audioEnable = false := by
    simpa using fun he => hne ((h.enable hinside).mp he)
  have hexpected {info : DbAudioDeviceInfo} {log : List AudioEvent} {p' : AudioPoint}
      (hfits : Fits info log p') (hfalse : info.audioEnable = false) (hne : p' ≠ .clearEnable) :
      Expected info log p' := ⟨hfits, fun _ => by simp [hfalse, hne]⟩
  simp only [AudioState.callNext, hp] at hstep
  cases p with
  | onTest parameters => exact hinside.elim
  | offTest => exact hinside.elim
  | changedOn => exact hinside.elim
  | returned ok => exact hinside.elim
  -- the call is at work no more, and what is expected now follows from `audio_enable`
  | setEnable =>
    simp only [Option.some.injEq] at hstep
    subst hstep
    exact ⟨_, rfl, ⟨h.fits, False.elim⟩,
      goes_of_eq (l := []) rfl rfl (fun _ => rfl) (List.append_nil _).symm (by simp)⟩
  | clearEnable =>
    simp only [Option.some.injEq] at hstep
    subst hstep
    exact ⟨_, rfl, hexpected h.fits rfl AudioPoint.noConfusion,
      ⟨rfl, .inr rfl, [], (List.append_nil _).symm, by simp⟩⟩
  | changedOff =>
    simp only [Option.some.injEq] at hstep
    subst hstep
    have hfalse := hdisabled AudioPoint.noConfusion
    obtain ⟨u, hu, hfits⟩ := h.fits
    refine ⟨_, rfl, hexpected ⟨u, ?_, fun k => ?_⟩ hfalse AudioPoint.noConfusion,
      goes_of_eq rfl rfl id rfl (by simp [FrameOk])⟩
    · show sdk (w.log ++ [.changed false]) = some u
      rw [sdk_snoc, hu]
      rfl
    -- every handle is still started, as turning off expects of one it has not yet stopped
    · obtain ⟨x, hsome, hused⟩ := hfits k
      exact .inr ⟨x, hsome, .inr hused⟩
  | start kind =>
    have hfalse := hdisabled AudioPoint.noConfusion
    cases answer with
    | ok ok =>
      simp only [Option.some.injEq] at hstep
      subst hstep
      -- a start that fails leads to the label `error`, with the later handles not started
      refine ⟨_, rfl, hexpected (h.fits.start hfalse ok) hfalse ?_,
        goes_of_eq rfl rfl id rfl (by simp [FrameOk])⟩
      cases ok <;> cases kind <;> exact AudioPoint.noConfusion
    | _ => simp at hstep
  | stop kind ok =>
    simp only [Option.some.injEq] at hstep
    have hfalse := hdisabled AudioPoint.noConfusion
    have hfits := h.fits.stop hfalse
    obtain ⟨l, hemit, hlog, hl⟩ := elim_emit (w := w) (f := .stop kind) (w.info.handle kind)
      fun _ _ => trivial
    rw [hemit] at hstep
    rw [hlog] at hfits
    subst hstep
    refine ⟨_, rfl, hexpected hfits hfalse ?_, goes_of_eq rfl rfl id rfl hl⟩
    cases kind <;> exact AudioPoint.noConfusion
  | deinit kind ok =>
    simp only [Option.some.injEq] at hstep
    have hfalse := hdisabled AudioPoint.noConfusion
    have hfits := h.fits.deinit hfalse
    obtain ⟨l, hemit, hlog, hl⟩ := elim_emit (w := w) (f := .deinit kind) (w.info.handle kind)
      fun _ _ => trivial
    rw [hemit] at hstep
    rw [hlog] at hfits
    subst hstep
    refine ⟨_, rfl, hexpected hfits hfalse ?_, goes_of_eq rfl rfl id rfl hl⟩
    cases kind <;> exact AudioPoint.noConfusion
  | null kind ok =>
    simp only [Option.some.injEq] at hstep
    have hfalse := hdisabled AudioPoint.noConfusion
    subst hstep
    refine ⟨_, rfl, hexpected (h.fits.null hfalse) hfalse ?_,
      goes_of_eq (l := []) rfl rfl id (List.append_nil _).symm (by simp)⟩
    cases kind <;> exact AudioPoint.noConfusion
  | init kind parameters =>
    have hfalse := hdisabled AudioPoint.noConfusion
    cases answer with
    | handle handle =>
      obtain ⟨hcalls, hgoes, hfalse', hfits⟩ := h.fits.initStep hfalse (x := handle) rfl
      simp only [Option.some.injEq] at hstep
      subst hstep
      refine ⟨_, congrArg (List.set · i _) hcalls, hexpected hfits hfalse' ?_,
        ⟨hgoes.writers, hgoes.enable, hgoes.log⟩⟩
      split
      · cases kind <;> exact AudioPoint.noConfusion
      · exact AudioPoint.noConfusion
    | _ => simp at hstep

/-! ## Who is at work -/

section At

variable {calls : List AudioPoint} {p₀ : AudioPoint}

/-- A call at work is the only one. -/
theorem At.eq (h : At calls p) (hi : calls[i]? = some p₀) (hinside : p₀.Inside) :
    p = p₀ ∧ ∀ j q, j ≠ i → calls[j]? = some q → ¬q.Inside := by
  rcases h with ⟨j, hj, -, hothers⟩ | ⟨-, hnone⟩
  · by_cases hij : i = j
    · subst hij
      exact ⟨Option.some.inj (hj.symm.trans hi), hothers⟩
    · exact absurd hinside (hothers i p₀ hij hi)
  · exact absurd hinside (hnone p₀ (List.mem_of_getElem? hi))

/-- Where the only call that may be at work has come to. -/
theorem at_set (hi : calls[i]? = some p₀)
    (hothers : ∀ (j : ℕ) (q : AudioPoint), j ≠ i → calls[j]? = some q → ¬q.Inside) :
    At (calls.set i p') p' := by
  have hlt : i < calls.length := (List.getElem?_eq_some_iff.mp hi).1
  by_cases hinside : p'.Inside
  · refine .inl ⟨i, by simp [hlt], hinside, fun j q hj hq => ?_⟩
    rw [List.getElem?_set_ne (Ne.symm hj)] at hq
    exact hothers j q hj hq
  · refine .inr ⟨hinside, fun q hq => ?_⟩
    obtain ⟨j, hj⟩ := List.mem_iff_getElem?.mp hq
    by_cases hji : j = i
    · subst hji
      rw [List.getElem?_set_self hlt] at hj
      exact Option.some.inj hj ▸ hinside
    · rw [List.getElem?_set_ne (Ne.symm hji)] at hj
      exact hothers j q hji hj

/-- A call that is not at work goes on, and is not at work. -/
theorem At.set (h : At calls p) (hi : calls[i]? = some p₀) (hfrom : ¬p₀.Inside)
    (hto : ¬p'.Inside) : At (calls.set i p') p := by
  rcases h with ⟨j, hj, hinside, hothers⟩ | ⟨hp, hnone⟩
  · have hij : i ≠ j := by
      rintro rfl
      exact hfrom (Option.some.inj (hj.symm.trans hi) ▸ hinside)
    refine .inl ⟨j, by rwa [List.getElem?_set_ne hij], hinside, fun k q hk hq => ?_⟩
    by_cases hki : i = k
    · subst hki
      rw [List.getElem?_set_self (List.getElem?_eq_some_iff.mp hi).1] at hq
      exact Option.some.inj hq ▸ hto
    · rw [List.getElem?_set_ne hki] at hq
      exact hothers k q hk hq
  · refine .inr ⟨hp, fun q hq => ?_⟩
    rcases List.mem_or_eq_of_mem_set hq with hq | rfl
    · exact hnone q hq
    · exact hto

/-- A call is made. -/
theorem At.append (h : At calls p) (hto : ¬p'.Inside) : At (calls ++ [p']) p := by
  rcases h with ⟨j, hj, hinside, hothers⟩ | ⟨hp, hnone⟩
  · have hlt : j < calls.length := (List.getElem?_eq_some_iff.mp hj).1
    refine .inl ⟨j, by rwa [List.getElem?_append_left hlt], hinside, fun k q hk hq => ?_⟩
    by_cases hkl : k < calls.length
    · rw [List.getElem?_append_left hkl] at hq
      exact hothers k q hk hq
    · rw [List.getElem?_append_right (Nat.le_of_not_lt hkl)] at hq
      obtain rfl := List.mem_singleton.mp (List.mem_of_getElem? hq)
      exact hto
  · refine .inr ⟨hp, fun q hq => ?_⟩
    rcases List.mem_append.mp hq with hq | hq
    · exact hnone q hq
    · exact List.mem_singleton.mp hq ▸ hto

end At

/-! ## Every step -/

/-- What is expected when nobody is at work depends on `audio_enable`. -/
theorem Expected.outside (h : Expected w.info w.log p) (hp : ¬p.Inside) :
    ∃ u, sdk w.log = some u ∧ ∀ k, (if w.info.audioEnable then Holding.is .started
      else .empty).Fits (w.info.handle k) (u k) := by
  obtain ⟨u, hu, hfits⟩ := h.fits
  refine ⟨u, hu, fun k => ?_⟩
  cases p with
  | onTest _ | offTest | changedOn | returned _ => exact hfits k
  | _ => exact absurd trivial hp

/-- Where `audio_enable` is set, every handle is started. -/
theorem Expected.started (h : Expected w.info w.log p) (henable : w.info.audioEnable = true) :
    ∃ u, sdk w.log = some u ∧
      ∀ k, ∃ x, w.info.handle k = some x ∧ u k = some (x, .started) := by
  by_cases hp : p.Inside
  · obtain rfl := (h.enable hp).mp henable
    exact h.fits
  · obtain ⟨u, hu, hfits⟩ := h.outside hp
    refine ⟨u, hu, fun k => ?_⟩
    have hk := hfits k
    rwa [henable] at hk

/-- **A step of a call.** -/
theorem Handled.call {answer : AudioAnswer} (h : Handled w) (hok : w.Alone (.call i answer))
    (hstep : w.callNext i answer = some w') : Handled w' := by
  obtain ⟨p, hat, hexpected⟩ := h.current
  cases hi : w.calls[i]? with
  | none => simp [AudioState.callNext, hi] at hstep
  | some p₀ =>
    have hrest (hgoes : Goes w w') (hcurrent : ∃ p, At w'.calls p ∧ Expected w'.info w'.log p) :
        Handled w' := by
      obtain ⟨l, hlog, hl⟩ := hgoes.log
      refine ⟨hcurrent, fun n hn => ?_, hlog ▸ h.frames.append hl⟩
      rw [hgoes.writers] at hn
      obtain ⟨hle, himp⟩ := h.writers n hn
      -- once `audio_enable` is cleared, no test made before it is fresh
      rcases hgoes.enable with ⟨hcleared, henable⟩ | hcleared
      · rw [hcleared]
        exact ⟨hle, fun heq => henable (himp heq)⟩
      · rw [hcleared]
        exact ⟨by omega, fun heq => by omega⟩
    by_cases hinside : p₀.Inside
    · obtain ⟨rfl, hothers⟩ := hat.eq hi hinside
      obtain ⟨p', hcalls, hexpected', hgoes⟩ := hexpected.callNext hi hinside hstep
      exact hrest hgoes ⟨p', hcalls ▸ at_set hi hothers, hexpected'⟩
    · -- the first test, or the last callback
      have hquiet {p' : AudioPoint} (hto : ¬p'.Inside) (hw : w' = w.goto i p') : Handled w' := by
        subst hw
        exact hrest (goes_of_eq (l := []) rfl rfl id (List.append_nil _).symm (by simp))
          ⟨p, hat.set hi hinside hto, hexpected⟩
      have henter {p' : AudioPoint} (hpass : p₀.Passes w.info.audioEnable) (hw : w' = w.goto i p')
          (hexpected' : ∀ p, ¬p.Inside → Expected w.info w.log p → Expected w.info w.log p') :
          Handled w' := by
        -- the calls do not overlap, so nobody else is at work
        have hnone := hok p₀ hi hpass
        have hp : ¬p.Inside := by
          rcases hat with ⟨j, hj, -, -⟩ | ⟨hp, -⟩
          · exact hnone p (List.mem_of_getElem? hj)
          · exact hp
        subst hw
        refine hrest (goes_of_eq (l := []) rfl rfl id (List.append_nil _).symm (by simp))
          ⟨p', at_set hi fun j q _ hq => hnone q (List.mem_of_getElem? hq), ?_⟩
        exact hexpected' p hp hexpected
      simp only [AudioState.callNext, hi] at hstep
      cases p₀ with
      | onTest parameters =>
        by_cases henable : w.info.audioEnable
        · simp only [henable, if_true, Option.some.injEq] at hstep
          exact hquiet id hstep.symm
        · simp only [henable, Bool.false_eq_true, if_false, Option.some.injEq] at hstep
          refine henter (by simpa [AudioPoint.Passes] using henable) hstep.symm fun p hp h => ?_
          obtain ⟨u, hu, hfits⟩ := h.outside hp
          simp only [henable, Bool.false_eq_true, if_false] at hfits
          exact ⟨⟨u, hu, hfits⟩, fun _ => by simp [henable, AudioPoint.following]⟩
      | offTest =>
        by_cases henable : w.info.audioEnable
        · simp only [henable, if_true, Option.some.injEq] at hstep
          refine henter henable hstep.symm fun p hp h => ?_
          exact ⟨h.started henable, fun _ => by simp [henable, AudioPoint.following]⟩
        · simp only [henable, Bool.false_eq_true, if_false, Option.some.injEq] at hstep
          exact hquiet id hstep.symm
      | changedOn =>
        simp only [Option.some.injEq] at hstep
        subst hstep
        have hsame : sdk (w.log ++ [.changed true]) = sdk w.log := by
          rw [sdk_snoc]
          cases sdk w.log <;> rfl
        obtain ⟨u, hu, hfits⟩ := hexpected.fits
        exact hrest (goes_of_eq rfl rfl id rfl (by simp [FrameOk]))
          ⟨p, hat.set hi hinside id, ⟨u, hsame.trans hu, hfits⟩, hexpected.enable⟩
      | returned ok => simp at hstep
      | _ => exact absurd trivial hinside

/-- **A step of the callback.** -/
theorem Handled.writer (h : Handled w) (hstep : w.writerNext i = some w') : Handled w' := by
  obtain ⟨p, hat, hexpected⟩ := h.current
  unfold AudioState.writerNext at hstep
  split at hstep
  · obtain rfl := Option.some.inj hstep
    refine ⟨⟨p, hat, hexpected⟩, fun n hn => ?_, h.frames⟩
    rcases List.mem_or_eq_of_mem_set hn with hn | hn
    · exact h.writers n hn
    · split at hn
      -- the test succeeds while `audio_enable` is set, after as many clears as there were
      · rename_i henable
        obtain rfl := WriterPoint.write.inj hn
        exact ⟨Nat.le_refl _, fun _ => henable⟩
      · exact WriterPoint.noConfusion hn
  · rename_i n hn
    obtain rfl := Option.some.inj hstep
    have hsame : sdk (w.log ++ [.frame (w.info.handle .write) (n = w.cleared)]) = sdk w.log := by
      rw [sdk_snoc]
      cases sdk w.log <;> rfl
    obtain ⟨u, hu, hfits⟩ := hexpected.fits
    refine ⟨⟨p, hat, ⟨u, hsame.trans hu, hfits⟩, hexpected.enable⟩, fun m hm => ?_,
      always_snoc.mpr ⟨h.frames, ?_⟩⟩
    · rcases List.mem_or_eq_of_mem_set hm with hm | hm
      · exact h.writers m hm
      · exact WriterPoint.noConfusion hm
    · by_cases hfresh : n = w.cleared
      -- the audio is still on
      · obtain ⟨u, hu, hstarted⟩ :=
          hexpected.started ((h.writers n (List.mem_of_getElem? hn)).2 hfresh)
        obtain ⟨x, hx, hused⟩ := hstarted .write
        simp only [hfresh, decide_true]
        exact ⟨x, u, hx, hu, hused⟩
      · simp only [hfresh, decide_false]
        trivial
  · exact absurd hstep (Option.some_ne_none _).symm

theorem Handled.step {a : AudioState.Action} (h : Handled w) (hok : w.Alone a)
    (hstep : w.step a w') : Handled w' := by
  cases a with
  | call i answer => exact h.call hok hstep
  | writer i => exact h.writer hstep
  | turnOn parameters =>
    obtain rfl := Option.some.inj hstep
    obtain ⟨p, hat, hexpected⟩ := h.current
    -- a new call has not passed its first test
    exact ⟨⟨p, hat.append id, hexpected⟩, h.writers, h.frames⟩
  | turnOff =>
    obtain rfl := Option.some.inj hstep
    obtain ⟨p, hat, hexpected⟩ := h.current
    exact ⟨⟨p, hat.append id, hexpected⟩, h.writers, h.frames⟩
  | data =>
    obtain rfl := Option.some.inj hstep
    refine ⟨h.current, fun n hn => ?_, h.frames⟩
    rcases List.mem_append.mp hn with hn | hn
    · exact h.writers n hn
    · exact WriterPoint.noConfusion (List.mem_singleton.mp hn)

theorem handled_boot : Handled AudioState.boot where
  current := by
    refine ⟨.returned true, .inr ⟨id, fun q hq => absurd hq List.not_mem_nil⟩,
      ⟨fun _ => none, rfl, fun k => ?_⟩, False.elim⟩
    exact ⟨rfl, rfl⟩
  writers n hn := absurd hn List.not_mem_nil
  frames := always_nil

theorem handled_of_reaches (h : Reaches (Guarded AudioState.step AudioState.Alone) .boot w) :
    Handled w :=
  h.invariant handled_boot fun _ _ _ hw hstep => hw.step hstep.1 hstep.2

/-- **Handles are given back.** In every run in which the calls do not overlap, wherever an
initialisation or a start fails, every handle is started at most once, stopped once and then given
back, the voice itself initialised first and given back last.  When no call is at work and the
audio is on, every handle is stored and started; when it is off, none is stored and none in use. -/
theorem handles_are_given_back (w : AudioState)
    (h : Reaches (Guarded AudioState.step AudioState.Alone) .boot w) :
    ∃ u, sdk w.log = some u ∧ ((∀ p ∈ w.calls, ¬p.Inside) → ∀ kind,
      if w.info.audioEnable then
        ∃ x, w.info.handle kind = some x ∧ u kind = some (x, .started)
      else w.info.handle kind = none ∧ u kind = none) := by
  obtain ⟨p, hat, hexpected⟩ := (handled_of_reaches h).current
  by_cases hp : p.Inside
  · obtain ⟨u, hu, -⟩ := hexpected.fits
    refine ⟨u, hu, fun hnone => ?_⟩
    rcases hat with ⟨i, hi, -, -⟩ | ⟨hout, -⟩
    · exact absurd hp (hnone p (List.mem_of_getElem? hi))
    · exact absurd hp hout
  · obtain ⟨u, hu, hfits⟩ := hexpected.outside hp
    refine ⟨u, hu, fun _ kind => ?_⟩
    have hkind := hfits kind
    split
    · rename_i henable
      rwa [if_pos henable] at hkind
    · rename_i henable
      rwa [if_neg henable] at hkind

/-- **Blocks of audio reach the speaker.** In every such run, a block that the callback writes
goes to a handle that is started and not stopped, unless the audio has been turned off between the
test and the write. -/
theorem frames_reach_the_speaker (w : AudioState)
    (h : Reaches (Guarded AudioState.step AudioState.Alone) .boot w) :
    ∀ l₁ handle l₂, w.log = l₁ ++ .frame handle true :: l₂ →
      ∃ x u, handle = some x ∧ sdk l₁ = some u ∧ u .write = some (x, .started) :=
  fun l₁ _ l₂ hlog => (handled_of_reaches h).frames l₁ _ l₂ hlog

/-! ## Runs -/

instance (w : AudioState) : (a : AudioState.Action) → Decidable (w.Alone a)
  | .call i _ => inferInstanceAs (Decidable
      (∀ p ∈ w.calls[i]?, p.Passes w.info.audioEnable → ∀ q ∈ w.calls, ¬q.Inside))
  | .turnOn _ | .turnOff | .data | .writer _ => inferInstanceAs (Decidable True)

/-- The step an action leads to. -/
def AudioState.move (w : AudioState) (a : AudioState.Action) :
    Option (AudioState.Action × AudioState) :=
  (w.next a).map (a, ·)

/-- What the task of the peer asks for. -/
def peerParameters : AudioParameters := ⟨1, 0, .g711a, 8000, 8000⟩

/-- The audio is turned on and off; one block is written in time and one too late.  The second
time, there is no handle to read from. -/
def lateBlock : List AudioState.Action :=
  [.turnOn peerParameters, .call 0 .none, .call 0 (.handle (some 11)),
    .call 0 (.handle (some 12)), .call 0 (.handle (some 13)), .call 0 (.ok true),
    .call 0 (.ok true), .call 0 (.ok true), .call 0 .none, .call 0 .none, .data, .writer 0,
    .writer 0, .data, .writer 1, .turnOff] ++ List.replicate 9 (.call 1 .none) ++
    [.writer 1] ++ List.replicate 3 (.call 1 .none) ++
    [.turnOn peerParameters, .call 2 .none, .call 2 (.handle (some 14)),
      .call 2 (.handle none)] ++ List.replicate 9 (.call 2 .none)

/-- What is observed of it, without the configurations. -/
theorem exists_late_block :
    ∃ w, Reaches (Guarded AudioState.step AudioState.Alone) .boot w ∧
      (∀ p ∈ w.calls, ¬p.Inside) ∧ w.info.audioEnable = false ∧
      .frame (some 13) false ∈ w.log ∧
      ∃ l₁ l₂, w.log = l₁ ++ .frame (some 13) true :: l₂ := by
  have hplay : (play AudioState.move (fun w a => decide (w.Alone a)) lateBlock .boot).any
      (fun w => (∀ p ∈ w.calls, ¬p.Inside) ∧ w.info.audioEnable = false ∧
        .frame (some 13) false ∈ w.log ∧ .frame (some 13) true ∈ w.log) = true := by
    decide +kernel
  obtain ⟨w, hrun, hw⟩ := exists_reaches_of_play (fun _ _ _ _ => next_of_labelled) hplay
  obtain ⟨hnone, hoff, hstale, hfresh⟩ := of_decide_eq_true hw
  exact ⟨w, hrun.weaken fun _ _ => of_decide_eq_true, hnone, hoff, hstale,
    List.append_of_mem hfresh⟩

/-- A failure in the middle leaves nothing behind. -/
theorem handles_are_given_back_late : ∃ (w : AudioState) (u : Sdk), sdk w.log = some u ∧
    ∀ kind, w.info.handle kind = none ∧ u kind = none := by
  obtain ⟨w, hrun, hnone, hoff, -⟩ := exists_late_block
  obtain ⟨u, hu, hkinds⟩ := handles_are_given_back w hrun
  exact ⟨w, u, hu, fun kind => by simpa [hoff] using hkinds hnone kind⟩

/-- The block that is written in time. -/
theorem frames_reach_the_speaker_in_time : ∃ (l : List AudioEvent) (u : Sdk),
    sdk l = some u ∧ u .write = some (13, .started) := by
  obtain ⟨w, hrun, -, -, -, l₁, l₂, hlog⟩ := exists_late_block
  obtain ⟨x, u, hx, hu, hused⟩ := frames_reach_the_speaker w hrun l₁ (some 13) l₂ hlog
  obtain rfl := Option.some.inj hx
  exact ⟨l₁, u, hu, hused⟩

/-- Two calls that pass the first test before one of them sets `audio_enable`. -/
def bothTurnOn : List AudioState.Action :=
  [.turnOn peerParameters, .turnOn peerParameters, .call 0 .none, .call 1 .none,
    .call 0 (.handle (some 11)), .call 1 (.handle (some 14))]

/-- **Calls must not overlap**: the first voice is lost. -/
theorem overlapping_calls_leak :
    ∃ w, Reaches AudioState.step .boot w ∧ sdk w.log = none := by
  have hplay : (play AudioState.move (fun _ _ => true) bothTurnOn .boot).any
      (fun w => (sdk w.log).isNone) = true := by decide +kernel
  obtain ⟨w, hrun, hw⟩ := exists_reaches_of_play (fun _ _ _ _ => next_of_labelled) hplay
  exact ⟨w, hrun.mono fun _ _ _ ha => ha.2, Option.isNone_iff_eq_none.mp hw⟩

end Audio

end YangIpc
