import YangIpc.Encoder.VideoThread

/-!
# Key frames and presentation times

A request for a key frame sets a flag, which the video thread clears after it has asked the camera.
A request that is made between these two is lost; every other one is answered before the thread
takes its second frame after it.  The presentation times of a connection count from the first frame
that it sees with a time that is not zero.

## Main definitions

* `waiting`: a monitor of the requests that are not answered
* `stamps`: a monitor of the frames of a connection

## Main results

* `key_frames_are_requested`: which requests are answered, and when
* `presentation_times`: the time of every frame, and the distance of two
-/

namespace YangIpc

namespace Encoder

open FrameQueue Transition Trace

variable {s t : VideoState} {w : World}

/-! ## Key frames -/

/-- Frames are counted from the first request that is not answered; late requests are ignored. -/
def waitingStep : Option ℕ → VideoEvent → Option ℕ
  | none, .request false => some 0
  | some n, .got _ => some (n + 1)
  | _, .rest => none
  | c, _ => c

/-- If a request is waiting for an answer, the number of frames taken since. -/
def waiting (log : List VideoEvent) : Option ℕ := observe waitingStep none log

@[simp] theorem waiting_snoc {log : List VideoEvent} {e : VideoEvent} :
    waiting (log ++ [e]) = waitingStep (waiting log) e := observe_snoc

/-- The invariant: the flag tells whether a request is waiting, except where it is about to be
cleared. -/
structure Asked (s : VideoState) : Prop where
  flag : s.point ≠ .clear → (s.session.sendKeyframe = true ↔ waiting s.log ≠ none)
  clear : s.point = .clear → waiting s.log = none
  get : s.point = .get → ∀ n, waiting s.log = some n → n = 0
  bound : ∀ n, waiting s.log = some n → n ≤ 1

/-- A step that leaves the flag and the requests as they are. -/
theorem Asked.go (h : Asked s) (hfrom : s.point ≠ .clear) (hto : t.point ≠ .clear)
    (hget : t.point = .get → waiting s.log = none)
    (hflag : t.session.sendKeyframe = s.session.sendKeyframe)
    (hlog : waiting t.log = waiting s.log) : Asked t where
  flag _ := by rw [hflag, hlog, h.flag hfrom]
  clear hp := absurd hp hto
  get hp n hn := by simp [hlog, hget hp] at hn
  bound := by rw [hlog]; exact h.bound

theorem waitingStep_videos {log : List VideoEvent} {f : FrameAddr} {timestamp : UInt32}
    {calls : List YangFrame} :
    waiting (log ++ calls.map (.video f timestamp)) = waiting log := by
  refine observe_neutral fun e he => ?_
  obtain ⟨call, -, rfl⟩ := List.mem_map.mp he
  cases observe waitingStep none log <;> rfl

/-- A frame is taken. -/
theorem Asked.getFrame {n : ℕ} (h : Asked s) (hpoint : s.point = .get) : Asked (s.getFrame n) := by
  have hne : s.point ≠ .clear := by simp [hpoint]
  unfold VideoState.getFrame
  simp only
  split
  · rename_i f hf
    have hwaiting : waiting (s.log ++ [.got f]) = (waiting s.log).map (· + 1) := by
      rw [waiting_snoc]
      cases waiting s.log <;> rfl
    -- this is the one frame that a waiting request may have to wait for
    refine ⟨fun _ => ?_, VideoPoint.noConfusion, VideoPoint.noConfusion, fun k hk => ?_⟩
    · show s.session.sendKeyframe = true ↔ waiting (s.log ++ [.got f]) ≠ none
      rw [h.flag hne, hwaiting]
      simp
    · obtain ⟨m, hm, rfl⟩ := Option.map_eq_some_iff.mp (hwaiting.symm.trans hk)
      rw [h.get hpoint m hm]
  · exact h.go hne VideoPoint.noConfusion VideoPoint.noConfusion rfl rfl

/-- **One step of the thread.** -/
theorem Asked.thread {answer : VideoAnswer} (h : Asked s)
    (hstep : s.threadNext answer = some t) : Asked t := by
  unfold VideoState.threadNext at hstep
  cases hp : s.point with
  | created =>
    simp only [hp, Option.some.injEq] at hstep
    exact hstep ▸ h.go (by simp [hp]) (by simp) (by simp) rfl rfl
  | starting =>
    simp only [hp, Option.some.injEq] at hstep
    exact hstep ▸ h.go (by simp [hp]) (by simp) (by simp) rfl rfl
  | loop =>
    simp only [hp, Option.some.injEq] at hstep
    subst hstep
    by_cases hloop : s.session.isLoop
    · exact h.go (by simp [hp]) (by simp [hloop]) (by simp [hloop]) rfl rfl
    · exact h.go (by simp [hp]) (by simp [hloop]) (by simp [hloop]) rfl rfl
  | enable =>
    rcases answer with _ | (_ | _) | n | frame <;>
      simp only [hp, Option.some.injEq, reduceCtorEq] at hstep
    · exact hstep ▸ h.go (by simp [hp]) (by simp) (by simp) rfl rfl
    · subst hstep
      unfold VideoState.connect
      split
      · exact h.go (by simp [hp]) (by simp) (by simp) rfl rfl
      · refine h.go (by simp [hp]) (by simp) (by simp) rfl ?_
        rw [waiting_snoc]
        cases waiting s.log <;> rfl
  | keyframe =>
    simp only [hp, Option.some.injEq] at hstep
    subst hstep
    -- `get` is reached with the flag clear, so that no request is waiting there
    have hflag := h.flag (by simp [hp])
    by_cases hkey : s.session.sendKeyframe
    · exact h.go (by simp [hp]) (by simp [hkey]) (by simp [hkey]) rfl rfl
    · refine h.go (by simp [hp]) (by simp [hkey]) (fun _ => ?_) rfl rfl
      simpa [hkey] using hflag
  | rest =>
    simp only [hp, Option.some.injEq] at hstep
    subst hstep
    -- the camera is asked, and what was waiting is served; the flag is still set
    have hnone : waiting (s.log ++ [.rest]) = none := by
      rw [waiting_snoc]
      cases waiting s.log <;> rfl
    exact ⟨fun hne => absurd rfl hne, fun _ => hnone, VideoPoint.noConfusion,
      fun n hn => by simp [hnone] at hn⟩
  | clear =>
    simp only [hp, Option.some.injEq] at hstep
    subst hstep
    -- a request made since `yangipc_camera_idr_rest` is lost here
    have hnone := h.clear hp
    exact ⟨fun _ => by simp [hnone], VideoPoint.noConfusion, fun _ n hn => by simp [hnone] at hn,
      fun n hn => by simp [hnone] at hn⟩
  | get =>
    rcases answer with _ | (_ | _) | n | frame <;>
      simp only [hp, Option.some.injEq, reduceCtorEq] at hstep
    exact hstep ▸ h.getFrame hp
  | got f =>
    rcases answer with _ | (_ | _) | n | frame <;>
      simp only [hp, Option.some.injEq, reduceCtorEq] at hstep
    subst hstep
    unfold VideoState.accept
    split
    · exact h.go (by simp [hp]) (by simp) (by simp) rfl rfl
    · refine h.go (by simp [hp]) (by simp) (by simp) rfl ?_
      rw [waiting_snoc]
      cases waiting s.log <;> rfl
  | send f frame =>
    simp only [hp, Option.map_eq_some_iff] at hstep
    obtain ⟨calls, -, rfl⟩ := hstep
    exact h.go (by simp [hp]) (by simp) (by simp) rfl waitingStep_videos
  | release f =>
    simp only [hp, Option.some.injEq] at hstep
    subst hstep
    refine h.go (by simp [hp]) (by simp) (by simp) rfl ?_
    rw [waiting_snoc]
    cases waiting s.log <;> rfl
  | finish =>
    simp only [hp, Option.some.injEq] at hstep
    exact hstep ▸ h.go (by simp [hp]) (by simp) (by simp) rfl rfl
  | ended => simp [hp] at hstep

/-- A request is made, in time or late. -/
theorem Asked.request (h : Asked s) : Asked { s with
    session := { s.session with sendKeyframe := true }
    log := s.log ++ [.request (s.point = .clear)] } := by
  by_cases hclear : s.point = .clear
  -- late: the flag is about to be cleared, and the trace counts the request as lost
  · have hsame : waiting (s.log ++ [.request (s.point = .clear)]) = waiting s.log := by
      rw [waiting_snoc]
      cases waiting s.log <;> simp [waitingStep, hclear]
    refine ⟨fun hne => absurd hclear hne, fun _ => hsame.trans (h.clear hclear), ?_, ?_⟩
    · exact fun hget => VideoPoint.noConfusion (hclear.symm.trans hget)
    · exact fun n hn => h.bound n (hsame.symm.trans hn)
  -- in time: the request waits, together with the one that may be waiting
  · have hsome : waiting (s.log ++ [.request (s.point = .clear)]) =
        some ((waiting s.log).getD 0) := by
      rw [waiting_snoc]
      cases waiting s.log <;> simp [waitingStep, hclear]
    refine ⟨fun _ => by simp [hsome], fun hp => absurd hp hclear, fun hget n hn => ?_,
      fun n hn => ?_⟩
    · obtain rfl := Option.some.inj (hsome.symm.trans hn)
      cases hw : waiting s.log with
      | none => rfl
      | some m => exact h.get hget m hw
    · obtain rfl := Option.some.inj (hsome.symm.trans hn)
      cases hw : waiting s.log with
      | none => exact Nat.zero_le 1
      | some m => exact h.bound m hw

theorem Asked.step {a : VideoAction} (h : Asked s) (hstep : s.step a t) : Asked t := by
  cases a with
  | thread answer => exact h.thread hstep
  | client call => exact Option.some.inj hstep ▸ ⟨h.flag, h.clear, h.get, h.bound⟩
  | stop => exact Option.some.inj hstep ▸ ⟨h.flag, h.clear, h.get, h.bound⟩
  | request type =>
    obtain rfl := Option.some.inj hstep
    cases type with
    | sendkeyframe => exact h.request
    | connected => exact h.request
    | other => exact h

/-- **Key frames are requested.** In every run, a request that is not made between the call of
`yangipc_camera_idr_rest` and the clearing of the flag is waiting until the camera is asked for a
key frame, and the thread takes one frame at most in the meantime.  Elsewhere the flag is set if
and only if such a request is waiting, so that the other requests are lost. -/
theorem key_frames_are_requested (h : Reaches VideoState.step (.start w) s) :
    (∀ n, waiting s.log = some n → n ≤ 1) ∧
      (s.point ≠ .clear → (s.session.sendKeyframe = true ↔ waiting s.log ≠ none)) := by
  have hasked : Asked s := by
    refine h.invariant ⟨fun _ => ?_, fun _ => rfl, ?_, ?_⟩ fun t a u ht hstep => ht.step hstep
    · simp [VideoState.start, waiting]
    · simp [VideoState.start, waiting]
    · simp [VideoState.start, waiting]
  exact ⟨hasked.bound, hasked.flag⟩

/-- A request is waiting while one frame is handed over. -/
theorem key_frames_are_requested_once : ∃ s : VideoState, s.session.sendKeyframe = true ∧
    waiting s.log = some 1 ∧ waiting s.log ≠ none := by
  obtain ⟨s, hrun, hpoint, hflag, hlog⟩ := exists_frame_handed_over
  have hasked := key_frames_are_requested (hrun.mono fun _ _ _ ha => ha.2)
  exact ⟨s, hflag, by rw [hlog]; rfl, (hasked.2 (by simp [hpoint])).mp hflag⟩

/-! ## Presentation times -/

def stampsStep : Option (List UInt32) → VideoEvent → Option (List UInt32)
  | _, .connected => some []
  | c, .accepted timestamp => c.map (· ++ [timestamp])
  | c, _ => c

/-- The times of the frames accepted since the session was found enabled. -/
def stamps (log : List VideoEvent) : Option (List UInt32) := observe stampsStep none log

@[simp] theorem stamps_snoc {log : List VideoEvent} {e : VideoEvent} :
    stamps (log ++ [e]) = stampsStep (stamps log) e := observe_snoc

/-- The first time that is not zero, or zero. -/
def baseOf (l : List UInt32) : UInt32 := (l.find? (· ≠ 0)).getD 0

theorem baseOf_snoc {l : List UInt32} {x : UInt32} :
    baseOf (l ++ [x]) = if baseOf l = 0 then x else baseOf l := by
  unfold baseOf
  rw [List.find?_append]
  cases hl : l.find? (· ≠ 0) with
  | none =>
    by_cases hx : x = 0 <;> simp [hx]
  | some y =>
    have hy : y ≠ 0 := by simpa using List.find?_some hl
    simp [hy]

/-- Later frames do not change a base that is not zero. -/
theorem baseOf_append {l l' : List UInt32} {x : UInt32} (hx : x ∈ l) (hne : x ≠ 0) :
    baseOf (l ++ l') = baseOf l := by
  have hsome : (l.find? (· ≠ 0)).isSome := List.find?_isSome.mpr ⟨x, hx, by simpa using hne⟩
  obtain ⟨y, hy⟩ := Option.isSome_iff_exists.mp hsome
  rw [baseOf, baseOf, List.find?_append, hy, Option.some_or]

/-- What is promised of a frame that is handed over, behind a trace. -/
def Presented (log : List VideoEvent) : VideoEvent → Prop
  | .video _ timestamp frame => ∃ l, stamps log = some l ∧ timestamp ∈ l ∧
      frame.pts = timestamp - baseOf l
  | _ => True

/-- The points of the loop at which the session is enabled. -/
def VideoPoint.Enabled : VideoPoint → Prop
  | keyframe | rest | clear | get | got _ | send _ _ | release _ => True
  | _ => False

/-- The invariant: what has been handed over is right, and what will be. -/
structure Presents (s : VideoState) : Prop where
  log : Always Presented s.log
  enabled : s.point.Enabled → s.session.hasConnected = true
  base : s.session.hasConnected = true → ∃ l, stamps s.log = some l ∧ s.baseTs = baseOf l
  sending : ∀ f frame, s.point = .send f frame →
    ∃ l, stamps s.log = some l ∧ frame.timestamp ∈ l

/-- A step that accepts no frame and hands over none. -/
theorem Presents.go {l : List VideoEvent} (h : Presents s) (hlog : t.log = s.log ++ l)
    (hquiet : ∀ e ∈ l, stampsStep (stamps s.log) e = stamps s.log)
    (hpresented : Always Presented t.log) (hbase : t.baseTs = s.baseTs)
    (henabled : t.point.Enabled → t.session.hasConnected = true)
    (hconnected : t.session.hasConnected = true → s.session.hasConnected = true)
    (hsend : ∀ f frame, t.point = .send f frame → s.point = .send f frame) : Presents t := by
  have hstamps : stamps t.log = stamps s.log := by
    rw [hlog]
    exact observe_neutral hquiet
  refine ⟨hpresented, henabled, fun hc => ?_, fun f frame hp => ?_⟩
  · rw [hstamps, hbase]
    exact h.base (hconnected hc)
  · rw [hstamps]
    exact h.sending f frame (hsend f frame hp)

/-- A step without events. -/
theorem Presents.move (h : Presents s) (hlog : t.log = s.log) (hbase : t.baseTs = s.baseTs)
    (henabled : t.point.Enabled → t.session.hasConnected = true)
    (hconnected : t.session.hasConnected = true → s.session.hasConnected = true)
    (hsend : ∀ f frame, t.point = .send f frame → s.point = .send f frame) : Presents t :=
  h.go (l := []) (by simp [hlog]) (by simp) (hlog ▸ h.log) hbase henabled hconnected hsend

/-- A step with one event that is neither. -/
theorem Presents.tell {e : VideoEvent} (h : Presents s) (hlog : t.log = s.log ++ [e])
    (hquiet : ∀ c, stampsStep c e = c) (hpresented : ∀ log, Presented log e)
    (hbase : t.baseTs = s.baseTs) (henabled : t.point.Enabled → t.session.hasConnected = true)
    (hconnected : t.session.hasConnected = true → s.session.hasConnected = true)
    (hsend : ∀ f frame, t.point = .send f frame → s.point = .send f frame) : Presents t :=
  h.go hlog (fun _ hc => List.mem_singleton.mp hc ▸ hquiet _)
    (hlog ▸ always_snoc.mpr ⟨h.log, hpresented _⟩) hbase henabled hconnected hsend

/-- The session is found enabled. -/
theorem Presents.connect (h : Presents s) : Presents s.connect := by
  unfold VideoState.connect
  split
  · rename_i hc
    exact h.move rfl rfl (fun _ => hc) id fun f frame => VideoPoint.noConfusion
  · refine ⟨always_snoc.mpr ⟨h.log, trivial⟩, fun _ => rfl, fun _ => ⟨[], ?_, rfl⟩,
      fun f frame => VideoPoint.noConfusion⟩
    rw [stamps_snoc]
    cases stamps s.log <;> rfl

/-- A frame is accepted, or it is too short. -/
theorem Presents.accept {f : FrameAddr} {frame : H264Frame} (h : Presents s)
    (hp : s.point = .got f) : Presents (s.accept f frame) := by
  have hconnected := h.enabled (by rw [hp]; trivial)
  unfold VideoState.accept
  split
  · exact h.move rfl rfl (fun _ => hconnected) id fun f frame => VideoPoint.noConfusion
  · obtain ⟨l, hl, hbase⟩ := h.base hconnected
    have hstamps : stamps (s.log ++ [.accepted frame.timestamp]) =
        some (l ++ [frame.timestamp]) := by
      rw [stamps_snoc, hl]
      rfl
    -- the base is set by the first time that is not zero, in the code as in `baseOf`
    refine ⟨always_snoc.mpr ⟨h.log, trivial⟩, fun _ => hconnected,
      fun _ => ⟨_, hstamps, ?_⟩, fun g frame' hg => ⟨_, hstamps, ?_⟩⟩
    · rw [baseOf_snoc, hbase]
    · obtain ⟨-, rfl⟩ := VideoPoint.send.inj hg
      simp

/-- The frames of `videoData` carry one time. -/
theorem pts_of_mem_videoData {baseTs : UInt32} {frame : H264Frame} {calls : List YangFrame}
    (h : videoData baseTs frame = some calls) :
    ∀ call ∈ calls, call.pts = frame.timestamp - baseTs := by
  unfold videoData at h
  simp only at h
  split at h
  · obtain rfl := Option.some.inj h
    simp
  · obtain ⟨l, -, rfl⟩ := Option.map_eq_some_iff.mp h
    intro call hcall
    obtain ⟨c, -, rfl⟩ := List.mem_map.mp hcall
    rfl

/-- A frame is handed over. -/
theorem Presents.send {f : FrameAddr} {frame : H264Frame} {calls : List YangFrame}
    (h : Presents s) (hp : s.point = .send f frame)
    (hcalls : videoData s.baseTs frame = some calls) :
    Presents { s with
      point := .release f, log := s.log ++ calls.map (.video f frame.timestamp) } := by
  have hconnected := h.enabled (by rw [hp]; trivial)
  obtain ⟨l, hl, hbase⟩ := h.base hconnected
  obtain ⟨l', hl', hmem⟩ := h.sending f frame hp
  -- between `got` and `send` the times of the connection are the same
  obtain rfl := Option.some.inj (hl.symm.trans hl')
  have hpts := pts_of_mem_videoData hcalls
  have hquiet (calls : List YangFrame) :
      stamps (s.log ++ calls.map (.video f frame.timestamp)) = stamps s.log := by
    refine observe_neutral fun e he => ?_
    obtain ⟨call, -, rfl⟩ := List.mem_map.mp he
    rfl
  refine h.go rfl (fun e he => ?_) ?_ rfl (fun _ => hconnected) id
    fun f frame => VideoPoint.noConfusion
  · obtain ⟨call, -, rfl⟩ := List.mem_map.mp he
    rfl
  · -- one event after the other, the last one first
    clear hcalls
    induction calls using List.reverseRecOn with
    | nil => simpa using h.log
    | append_singleton calls call ih =>
      rw [List.map_append, List.map_singleton, ← List.append_assoc]
      refine always_snoc.mpr ⟨ih fun c hc => hpts c (List.mem_append_left _ hc), ?_⟩
      refine ⟨l, (hquiet calls).trans hl, hmem, ?_⟩
      rw [← hbase]
      exact hpts call (by simp)

/-- **One step of the thread.** -/
theorem Presents.thread {answer : VideoAnswer} (h : Presents s)
    (hstep : s.threadNext answer = some t) : Presents t := by
  unfold VideoState.threadNext at hstep
  have hconnected (he : s.point.Enabled) := h.enabled he
  cases hp : s.point with
  | created =>
    simp only [hp, Option.some.injEq] at hstep
    exact hstep ▸ h.move rfl rfl False.elim id fun f frame => VideoPoint.noConfusion
  | starting =>
    simp only [hp, Option.some.injEq] at hstep
    exact hstep ▸ h.move rfl rfl False.elim (fun hc => absurd hc (by simp))
      fun f frame => VideoPoint.noConfusion
  | loop =>
    simp only [hp, Option.some.injEq] at hstep
    subst hstep
    by_cases hloop : s.session.isLoop
    · exact h.move rfl rfl (by simp [hloop, VideoPoint.Enabled]) id (by simp [hloop])
    · exact h.move rfl rfl (by simp [hloop, VideoPoint.Enabled]) id (by simp [hloop])
  | enable =>
    rcases answer with _ | (_ | _) | n | frame <;>
      simp only [hp, Option.some.injEq, reduceCtorEq] at hstep
    · exact hstep ▸ h.move rfl rfl False.elim (fun hc => absurd hc (by simp))
        fun f frame => VideoPoint.noConfusion
    · exact hstep ▸ h.connect
  | keyframe =>
    have hc := hconnected (by rw [hp]; trivial)
    simp only [hp, Option.some.injEq] at hstep
    subst hstep
    by_cases hkey : s.session.sendKeyframe
    · exact h.move rfl rfl (fun _ => hc) id (by simp [hkey])
    · exact h.move rfl rfl (fun _ => hc) id (by simp [hkey])
  | rest =>
    have hc := hconnected (by rw [hp]; trivial)
    simp only [hp, Option.some.injEq] at hstep
    exact hstep ▸ h.tell rfl (fun _ => rfl) (fun _ => trivial) rfl (fun _ => hc) id
      fun f frame => VideoPoint.noConfusion
  | clear =>
    have hc := hconnected (by rw [hp]; trivial)
    simp only [hp, Option.some.injEq] at hstep
    exact hstep ▸ h.move rfl rfl (fun _ => hc) id fun f frame => VideoPoint.noConfusion
  | get =>
    have hc := hconnected (by rw [hp]; trivial)
    rcases answer with _ | (_ | _) | n | frame <;>
      simp only [hp, Option.some.injEq, reduceCtorEq] at hstep
    subst hstep
    unfold VideoState.getFrame
    simp only
    split
    · exact h.tell rfl (fun _ => rfl) (fun _ => trivial) rfl (fun _ => hc) id
        fun f frame => VideoPoint.noConfusion
    · exact h.move rfl rfl False.elim id fun f frame => VideoPoint.noConfusion
  | got f =>
    rcases answer with _ | (_ | _) | n | frame <;>
      simp only [hp, Option.some.injEq, reduceCtorEq] at hstep
    exact hstep ▸ h.accept hp
  | send f frame =>
    simp only [hp, Option.map_eq_some_iff] at hstep
    obtain ⟨calls, hcalls, rfl⟩ := hstep
    exact h.send hp hcalls
  | release f =>
    simp only [hp, Option.some.injEq] at hstep
    exact hstep ▸ h.tell rfl (fun _ => rfl) (fun _ => trivial) rfl False.elim id
      fun f frame => VideoPoint.noConfusion
  | finish =>
    simp only [hp, Option.some.injEq] at hstep
    exact hstep ▸ h.move rfl rfl False.elim id fun f frame => VideoPoint.noConfusion
  | ended => simp [hp] at hstep

theorem Presents.step {a : VideoAction} (h : Presents s) (hstep : s.step a t) : Presents t := by
  cases a with
  | thread answer => exact h.thread hstep
  | client call => exact Option.some.inj hstep ▸ ⟨h.log, h.enabled, h.base, h.sending⟩
  | stop => exact Option.some.inj hstep ▸ ⟨h.log, h.enabled, h.base, h.sending⟩
  | request type =>
    obtain rfl := Option.some.inj hstep
    have hasked (late : Bool) : Presents { s with
        session := { s.session with sendKeyframe := true }
        log := s.log ++ [.request late] } :=
      h.tell rfl (fun _ => rfl) (fun _ => trivial) rfl h.enabled id fun _ _ => id
    cases type with
    | sendkeyframe => exact hasked _
    | connected => exact hasked _
    | other => exact h

/-- A trace that goes on in the same connection. -/
theorem stamps_append {log l : List VideoEvent} {stamped : List UInt32}
    (h : stamps log = some stamped) (hl : .connected ∉ l) :
    ∃ more, stamps (log ++ l) = some (stamped ++ more) := by
  induction l using List.reverseRecOn with
  | nil => exact ⟨[], by simpa using h⟩
  | append_singleton l e ih =>
    obtain ⟨more, hmore⟩ := ih fun hmem => hl (List.mem_append_left _ hmem)
    rw [← List.append_assoc, stamps_snoc, hmore]
    cases e with
    | connected => exact absurd (List.mem_append_right l (List.mem_singleton_self _)) hl
    | accepted timestamp => exact ⟨more ++ [timestamp], by simp [stampsStep]⟩
    | _ => exact ⟨more, rfl⟩

/-- **Presentation times.** In every run, a frame that is handed over has as its presentation time
the time from the base of its connection, which is the first time that is not zero among the
frames accepted since the session was found enabled.  So two frames of a connection are as far
apart in their presentation times as in their own, modulo `2 ^ 32`, if the time of the first is not
zero. -/
theorem presentation_times (h : Reaches VideoState.step (.start w) s) :
    (∀ l₁ f timestamp frame l₂, s.log = l₁ ++ .video f timestamp frame :: l₂ →
      ∃ l, stamps l₁ = some l ∧ timestamp ∈ l ∧ frame.pts = timestamp - baseOf l) ∧
    ∀ l₁ f timestamp frame l₂ f' timestamp' frame' l₃,
      s.log = l₁ ++ .video f timestamp frame :: (l₂ ++ .video f' timestamp' frame' :: l₃) →
      .connected ∉ l₂ → timestamp ≠ 0 →
      frame'.pts - frame.pts = timestamp' - timestamp := by
  have hpresents : Presents s := by
    refine h.invariant ⟨always_nil, False.elim, ?_, fun f frame => VideoPoint.noConfusion⟩
      fun t a u ht hstep => ht.step hstep
    simp [VideoState.start]
  refine ⟨fun l₁ f timestamp frame l₂ hlog => hpresents.log l₁ _ l₂ hlog, ?_⟩
  intro l₁ f timestamp frame l₂ f' timestamp' frame' l₃ hlog hsame hne
  obtain ⟨l, hl, hmem, hpts⟩ := hpresents.log l₁ _ _ hlog
  have hvideo : stamps (l₁ ++ [.video f timestamp frame]) = some l := by
    rw [stamps_snoc, hl]
    rfl
  obtain ⟨more, hmore⟩ := stamps_append hvideo hsame
  obtain ⟨l', hl', -, hpts'⟩ := hpresents.log (l₁ ++ [.video f timestamp frame] ++ l₂)
    (.video f' timestamp' frame') l₃ (by simp [hlog])
  obtain rfl := Option.some.inj (hmore.symm.trans hl')
  -- both times are from one base, which cancels
  rw [hpts, hpts', baseOf_append hmem hne]
  grind

/-- The first frame of a connection is presented at zero. -/
theorem presentation_times_first : ∃ s : VideoState, ∃ frame : YangFrame,
    .video 1000 700 frame ∈ s.log ∧ frame.pts = 700 - baseOf [700] := by
  obtain ⟨s, hrun, -, -, hlog⟩ := exists_frame_handed_over
  obtain ⟨l, hl, -, hpts⟩ := (presentation_times (hrun.mono fun _ _ _ ha => ha.2)).1
    [.connected, .request false, .got 1000, .accepted 700] 1000 700 ⟨0, 6, 0, true⟩ [] hlog
  obtain rfl : [700] = l := Option.some.inj hl
  exact ⟨s, ⟨0, 6, 0, true⟩, by simp [hlog], hpts⟩

end Encoder

end YangIpc
