import YangIpc.Commands.Transfer
import YangIpc.Encoder.VideoThread
import YangIpc.FrameQueue.Delivery
import YangIpc.Library.Broadcast.Contents

/-!
# From the camera to the peer

The driver of the camera gets a buffer of the H264 queue, writes a frame into it and completes it.
The queue hands the buffer to the video thread, which reads the frame and hands it to the session.
The buffers are used again and again, and any thread may ask for key frames or use the queue as
another consumer in the meantime.

The driver writes only to buffers that it was given and has not completed.  The camera stays on:
nobody clears the queue, and nobody unregisters the consumer of the thread.

## Main definitions

* `Pipeline`: the thread, the memory of the buffers, and the driver
* `Pipeline.next`, `Pipeline.Lawful`: the steps, and what is expected of them
* `Pipeline.underway`, `Pipeline.queued`: the frames on their way

## Main results

* `Flow.call`: what a call on the queue does to the frames
* `frames_arrive_as_completed`: what is handed over is what was completed
-/

namespace YangIpc

namespace Encoder

open FrameQueue Transition Broadcast
open Commands (consumerTransmission bits_consumerTransmission consumes_iff)

/-- A frame that is long enough. -/
def H264Frame.long (frame : H264Frame) : Bool := 4 ≤ frame.frame.length

/-- The video thread, what is in the buffers, and the buffers that the driver of the camera has.
`completions` are the frames completed, and `handed` the frames handed over, each with the calls of
`onVideoData`. -/
structure Pipeline where
  video : VideoState
  memory : FrameAddr → H264Frame
  owned : Finset FrameAddr
  completions : List H264Frame
  handed : List (H264Frame × List YangFrame)

/-- The steps of everybody. -/
inductive PipelineAction
  | thread (answer : VideoAnswer)
  | request (type : YangRequestType)
  | stop
  /-- a call of another consumer -/
  | client (call : Call)
  /-- `frame_queue_v2_register_consumer` of `yang_task` -/
  | register
  /-- `frame_queue_v2_malloc` of the driver -/
  | malloc (size : ℕ) (answer : Option FrameAddr)
  /-- the driver writes a frame -/
  | write (f : FrameAddr) (frame : H264Frame)
  /-- the driver reports the end of a frame -/
  | complete (f : FrameAddr) (ok : Bool)

namespace Pipeline

/-- The queue before the first frame, and the thread before its first step. -/
def start (w : World) (memory : FrameAddr → H264Frame) : Pipeline := ⟨.start w, memory, ∅, [], []⟩

/-- A call on the queue. -/
def call (s : Pipeline) (call : Call) : Pipeline :=
  { s with video := { s.video with world := s.video.world.call .h264 call } }

/-- The thread reads a frame from memory. -/
def answered (s : Pipeline) (answer : VideoAnswer) : VideoAnswer :=
  match s.video.point with
  | .got f => .frame (s.memory f)
  | _ => answer

/-- What the thread hands over next: what is in the buffer, with its calls. -/
def handing (s : Pipeline) : List (H264Frame × List YangFrame) :=
  match s.video.point with
  | .send f frame => ((videoData s.video.baseTs frame).map fun calls => (s.memory f, calls)).toList
  | _ => []

/-- `dvp_camera_frame_complete` and `h264e_frame_complete`. -/
def dvpCameraFrameComplete (s : Pipeline) (f : FrameAddr) (ok : Bool) : Pipeline :=
  if ok then
    { s.call (.complete (some f)) with
      owned := s.owned.erase f
      completions :=
        if (frameQueueV2Complete .h264 (some f) s.video.world.queue).2 then
          s.completions ++ [s.memory f]
        else s.completions }
  else { s.call (.cancel (some f)) with owned := s.owned.erase f }

/-- A buffer for the driver. -/
def h264eFrameMalloc (s : Pipeline) (size : ℕ) (answer : Option FrameAddr) : Pipeline :=
  { s.call (.malloc size answer) with
    owned :=
      match (frameQueueV2Malloc .h264 size answer s.video.world.queue).2 with
      | some f => insert f s.owned
      | none => s.owned }

/-- The state after a step, if it is possible. -/
def next (s : Pipeline) : PipelineAction → Option Pipeline
  | .thread answer =>
    (s.video.threadNext (s.answered answer)).map fun video =>
      { s with video := video, handed := s.handed ++ s.handing }
  | .request type => some { s with video := s.video.sendMsgToEncoder type }
  | .stop => (s.video.next .stop).map fun video => { s with video := video }
  | .client call => some (s.call call)
  | .register => some (s.call (.registerConsumer consumerTransmission))
  | .malloc size answer => some (s.h264eFrameMalloc size answer)
  | .write f frame => some { s with memory := Function.update s.memory f frame }
  | .complete f ok => some (s.dvpCameraFrameComplete f ok)

/-- The transition system. -/
def step (s : Pipeline) (a : PipelineAction) (t : Pipeline) : Prop := s.next a = some t

/-- The allocator keeps its promise, the driver touches only its buffers, and other consumers
release only what they hold. -/
def Lawful (s : Pipeline) : PipelineAction → Prop
  | .malloc size answer => Fresh .h264 s.video.world.queue (.malloc size answer)
  | .write f _ | .complete f _ => f ∈ s.owned
  | .client call => disciplinedCall .h264 s.video.world call ∧
      ∃ id, call.consumer = some id ∧ SingleBit id ∧ id ≠ consumerTransmission
  | _ => True

/-- The frame that the thread has taken, unless it is too short or has been handed over. -/
def underway (s : Pipeline) : List H264Frame :=
  match s.video.point with
  | .got f => [s.memory f].filter H264Frame.long
  | .send f _ => [s.memory f]
  | _ => []

/-- What is in the buffers that wait in the queue for the thread, oldest first. -/
def queued (s : Pipeline) : List H264Frame :=
  (s.video.world.queue.readyList.nodes.filter fun n =>
    (s.video.world.queue.node n).pendingFor consumerTransmission).filterMap fun n =>
      (s.video.world.queue.node n).frame.map s.memory

end Pipeline

/-! ## The queue and the contents of its buffers -/

/-- The calls that leave the consumer of the thread its frames. -/
structure Passing (call : Call) : Prop where
  running : Running call
  apart : ∀ id, call.consumer = some id →
    id = consumerTransmission ∨ id &&& consumerTransmission = 0
  keeps : call ≠ .clearAll ∧ call ≠ .unregisterConsumer consumerTransmission

/-- What is in the queue: nothing is left out for the consumer of the thread, the buffers contain
what was completed, and before the consumer registers it is given nothing. -/
structure Flow (memory : FrameAddr → H264Frame) (completions : List H264Frame) (w : World) :
    Prop where
  exact : Exact consumerTransmission 0 w.abstract
  carries : Carries memory completions w.abstract
  inactive : 0 ∉ w.abstract.active → w.history.delivered consumerTransmission = []

/-- The contents of the frames that the consumer of the thread was given. -/
def taken (completions : List H264Frame) (w : World) : List H264Frame :=
  contents completions (w.history.delivered consumerTransmission)

variable {w : World} {s t : Pipeline} {memory : FrameAddr → H264Frame}
  {completions : List H264Frame} {c : Call} {ev : Event Mask FrameAddr} {f : FrameAddr}

theorem singleBit_consumerTransmission : SingleBit consumerTransmission := ⟨0, by omega, rfl⟩

/-- **A call on the queue** is an event, and the contents go with it. -/
theorem Flow.call (h : Flow memory completions w) (hw : WellFormed .h264 w.queue)
    (hpass : Passing c) :
    ∃ ev, Causes .h264 c ev ∧ Step Bits.bits Valid w.abstract ev (w.call .h264 c).abstract ∧
      Flow memory (completions ++ ev.publishes memory) (w.call .h264 c) := by
  obtain ⟨ev, hcause, hstep⟩ := World.refines hw hpass.running
  refine ⟨ev, hcause, hstep, ?_, h.carries.step hstep, fun hout => ?_⟩
  · exact h.exact.step bits_consumerTransmission
      (apart_of_apartCall bits_consumerTransmission hpass.apart hcause)
      (lossless_of_causes hpass.keeps.1 hcause) hstep
  · -- it was not active before
    have hbefore : 0 ∉ w.abstract.active := by
      refine fun hk => hout (active_step hstep hk fun id hev hmem => ?_)
      subst hev
      obtain rfl : c = .unregisterConsumer id := hcause
      rcases hpass.apart id rfl with rfl | hzero
      · exact hpass.keeps.2 rfl
      · have hboth : 0 ∈ Bits.bits id ∩ Bits.bits consumerTransmission :=
          ⟨hmem, by rw [bits_consumerTransmission]; rfl⟩
        rw [Bits.and_eq_zero_iff.mp hzero] at hboth
        exact hboth
    exact h.exact.inactive bits_consumerTransmission hstep hbefore (h.inactive hbefore)

/-- Only a call of `get_frame` gives the consumer of the thread a frame. -/
theorem Flow.taken_call (h : Flow memory completions w) (hcause : Causes .h264 c ev)
    (hstep : Step Bits.bits Valid w.abstract ev (w.call .h264 c).abstract)
    (hget : ∀ waits, c ≠ .getFrame consumerTransmission waits) :
    taken (completions ++ ev.publishes memory) (w.call .h264 c) = taken completions w := by
  rcases received_step h.carries hstep consumerTransmission with hsame | ⟨e, -, rfl, -⟩ |
    ⟨-, hout, hnil⟩
  · exact hsame
  · obtain ⟨waits, hcall⟩ := hcause
    exact absurd hcall (hget waits)
  -- a new period begins; the consumer was inactive and had been given nothing
  · have hinactive : 0 ∉ w.abstract.active := fun hk => by
      have hboth : 0 ∈ w.abstract.active ∩ Bits.bits consumerTransmission :=
        ⟨hk, by rw [bits_consumerTransmission]; rfl⟩
      rw [hout] at hboth
      exact hboth
    have hnew : (w.call .h264 c).history.delivered consumerTransmission = [] := hnil
    rw [taken, taken, hnew, h.inactive hinactive, contents_nil, contents_nil]

/-! ## The steps of the thread -/

/-- What a step of the thread does to its frame. -/
inductive FrameStep (v : VideoState) (answer : VideoAnswer) (v' : VideoState) : Prop
  /-- it has none -/
  | without (before : v.point.frame = none) (after : v'.point.frame = none)
      (world : v'.world = v.world)
  /-- it asks for one -/
  | get (waits : ℕ) (point : v.point = .get) (eq : v' = v.getFrame waits)
  /-- it reads it -/
  | accept (f : FrameAddr) (frame : H264Frame) (point : v.point = .got f)
      (reads : answer = .frame frame) (eq : v' = v.accept f frame)
  /-- it hands it over -/
  | send (f : FrameAddr) (frame : H264Frame) (calls : List YangFrame)
      (point : v.point = .send f frame) (hands : videoData v.baseTs frame = some calls)
      (after : v'.point = .release f) (world : v'.world = v.world)
  /-- it gives it back -/
  | release (f : FrameAddr) (point : v.point = .release f) (after : v'.point = .loop)
      (world : v'.world = v.world.call .h264 (.releaseFrame consumerTransmission (some f)))

theorem connect_frame (v : VideoState) :
    v.connect.point.frame = none ∧ v.connect.world = v.world := by
  unfold VideoState.connect
  split <;> exact ⟨rfl, rfl⟩

theorem threadNext_cases {v v' : VideoState} {answer : VideoAnswer}
    (hstep : v.threadNext answer = some v') : FrameStep v answer v' := by
  revert hstep
  fun_cases VideoState.threadNext v answer <;> rename_i hp <;> intro hstep <;>
    simp only [Option.some.injEq, reduceCtorEq, Option.map_eq_some_iff] at hstep
  case case3 | case6 =>
    subst hstep
    refine .without (by rw [hp]; rfl) ?_ rfl
    show VideoPoint.frame (if _ then _ else _) = _
    split <;> rfl
  case case4 =>
    subst hstep
    exact .without (by rw [hp]; rfl) (connect_frame v).1 (connect_frame v).2
  case case9 waits => exact .get waits hp hstep.symm
  case case10 f frame => exact .accept f frame hp rfl hstep.symm
  case case11 f frame =>
    obtain ⟨calls, hcalls, rfl⟩ := hstep
    exact .send f frame calls hp hcalls rfl rfl
  case case12 f =>
    subst hstep
    exact .release f hp rfl rfl
  -- what is left has nothing to do with a frame
  all_goals
    subst hstep
    exact .without (by rw [hp]; rfl) rfl rfl

/-! ## The invariant -/

/-- The invariant: the frames of the driver are not in the queue, the thread hands over what it has
read, and what it was given is handed over or underway. -/
structure Piped (w₀ : World) (s : Pipeline) : Prop where
  safe : Safe w₀ s.video
  flow : Flow s.memory s.completions s.video.world
  owned : ∀ f ∈ s.owned, ∀ e ∈ s.video.world.abstract.entries, e.item ≠ f
  sending : ∀ f frame, s.video.point = .send f frame → s.memory f = frame ∧ frame.long = true
  arrived : s.handed.map Prod.fst ++ s.underway =
    (taken s.completions s.video.world).filter H264Frame.long
  faithful : ∀ h ∈ s.handed, ∃ base, videoData base h.1 = some h.2

theorem handing_eq_nil (h : ∀ f frame, s.video.point ≠ .send f frame) : s.handing = [] := by
  unfold Pipeline.handing
  split
  · rename_i f frame hp
    exact absurd hp (h f frame)
  · rfl

theorem underway_of_none (h : s.video.point.frame = none) : s.underway = [] := by
  unfold Pipeline.underway
  cases hp : s.video.point with
  | got f => simp [hp, VideoPoint.frame] at h
  | send f frame => simp [hp, VideoPoint.frame] at h
  | _ => rfl

theorem underway_of_got (h : s.video.point = .got f) :
    s.underway = [s.memory f].filter H264Frame.long := by
  rw [Pipeline.underway, h]

theorem underway_of_send {frame : H264Frame} (h : s.video.point = .send f frame) :
    s.underway = [s.memory f] := by
  rw [Pipeline.underway, h]

theorem underway_of_release (h : s.video.point = .release f) : s.underway = [] := by
  rw [Pipeline.underway, h]

/-- An event that publishes nothing. -/
theorem publishes_eq_nil (h : ∀ f, ev ≠ .publish f) : ev.publishes memory = [] := by
  cases ev with
  | publish f => exact absurd rfl (h f)
  | _ => rfl

section Steps

variable {w₀ : World}

/-- A step that leaves the queue and the frame of the thread alone. -/
theorem Piped.go (h : Piped w₀ s) {video : VideoState} (hsafe : Safe w₀ video)
    (hworld : video.world = s.video.world)
    (hpoint : video.point = s.video.point ∨
      video.point.frame = none ∧ s.video.point.frame = none) :
    Piped w₀ { s with video := video } := by
  refine ⟨hsafe, hworld ▸ h.flow, hworld ▸ h.owned, ?_, ?_, h.faithful⟩
  · rcases hpoint with hsame | ⟨hnone, -⟩
    · exact hsame ▸ h.sending
    · rintro f frame (hp : video.point = _)
      rw [hp] at hnone
      exact absurd hnone (Option.some_ne_none f)
  · have hunderway : ({ s with video := video } : Pipeline).underway = s.underway := by
      rcases hpoint with hsame | ⟨hnone, hnone'⟩
      · simp only [Pipeline.underway, hsame]
      · rw [underway_of_none hnone', underway_of_none hnone]
    rw [hunderway]
    show _ = (taken s.completions video.world).filter _
    rw [hworld]
    exact h.arrived

/-- **A call of another party**, with what it does to the completions and to the frames of the
driver. -/
theorem Piped.pass (h : Piped w₀ s) (hw : WellFormed .h264 s.video.world.queue)
    (hpass : Passing c) (hok : disciplinedCall .h264 s.video.world c) (hforeign : Foreign c)
    {completions : List H264Frame} {owned : Finset FrameAddr}
    (hget : ∀ waits, c ≠ .getFrame consumerTransmission waits)
    (hnew : ∀ ev, Causes .h264 c ev →
      Step Bits.bits Valid s.video.world.abstract ev (s.video.world.call .h264 c).abstract →
      completions = s.completions ++ ev.publishes s.memory ∧
        ∀ f ∈ owned, ∀ e ∈ (s.video.world.call .h264 c).abstract.entries, e.item ≠ f) :
    Piped w₀ { s.call c with completions := completions, owned := owned } := by
  obtain ⟨ev, hcause, hstep, hflow⟩ := h.flow.call hw hpass
  obtain ⟨rfl, howned⟩ := hnew ev hcause hstep
  refine ⟨h.safe.client ⟨hok, hforeign⟩, hflow, howned, h.sending, ?_, h.faithful⟩
  show s.handed.map Prod.fst ++ s.underway = (taken _ (s.video.world.call .h264 c)).filter _
  rw [h.flow.taken_call hcause hstep hget]
  exact h.arrived

/-- A call that completes nothing. -/
theorem Piped.quiet (h : Piped w₀ s) (hw : WellFormed .h264 s.video.world.queue)
    (hpass : Passing c) (hok : disciplinedCall .h264 s.video.world c) (hforeign : Foreign c)
    (hget : ∀ waits, c ≠ .getFrame consumerTransmission waits) (hcomplete : ∀ f, c ≠ .complete f)
    {owned : Finset FrameAddr}
    (howned : ∀ f ∈ owned, f ∈ s.owned ∨
      ∀ e ∈ (s.video.world.call .h264 c).abstract.entries, e.item ≠ f) :
    Piped w₀ { s.call c with owned := owned } := by
  refine h.pass hw hpass hok hforeign hget fun ev hcause hstep => ?_
  have hpublish : ∀ f, ev ≠ .publish f := by
    rintro f rfl
    exact hcomplete (some f) hcause
  refine ⟨?_, fun f hf => ?_⟩
  · rw [publishes_eq_nil hpublish, List.append_nil]
    rfl
  -- only `complete` brings a frame of the driver into the queue
  · exact (howned f hf).elim (fun hmem => unqueued_step hstep (h.owned f hmem) (hpublish f)) id

/-- **Another consumer.** -/
theorem Piped.client (h : Piped w₀ s) (hw : WellFormed .h264 s.video.world.queue)
    (hok : disciplinedCall .h264 s.video.world c) {id : Mask} (hid : c.consumer = some id)
    (hsingle : SingleBit id) (hne : id ≠ consumerTransmission) : Piped w₀ (s.call c) := by
  have hpass : Passing c := by
    refine ⟨hok.1, fun id' hid' => ?_, ?_, ?_⟩
    · obtain rfl := Option.some.inj (hid.symm.trans hid')
      exact singleBit_consumerTransmission.apart hsingle
    · rintro rfl
      exact absurd hid.symm (Option.some_ne_none id)
    · rintro rfl
      exact hne (Option.some.inj hid).symm
  refine h.quiet hw hpass hok ?_ ?_ ?_ fun f hf => .inl hf
  · cases c with
    | getFrame id' waits => exact Option.some.inj hid ▸ hne
    | releaseFrame id' frame => exact Option.some.inj hid ▸ hne
    | _ => trivial
  · rintro waits rfl
    exact hne (Option.some.inj hid).symm
  · rintro f rfl
    exact absurd hid.symm (Option.some_ne_none id)

/-- The consumer of the thread registers. -/
theorem Piped.register (h : Piped w₀ s) (hw : WellFormed .h264 s.video.world.queue) :
    Piped w₀ (s.call (.registerConsumer consumerTransmission)) := by
  refine h.quiet (c := .registerConsumer consumerTransmission) hw
    ⟨trivial, ?_, Call.noConfusion, Call.noConfusion⟩ ⟨trivial, trivial, trivial⟩ trivial
    (fun _ => Call.noConfusion) (fun _ => Call.noConfusion) fun f hf => .inl hf
  exact fun id hid => .inl (Option.some.inj hid).symm

/-- The calls of the driver. -/
theorem passing_of_driver (hrunning : Running c) (hconsumer : c.consumer = none)
    (hclear : c ≠ .clearAll) : Passing c := by
  refine ⟨hrunning, fun id hid => ?_, hclear, ?_⟩
  · exact absurd (hid.symm.trans hconsumer) (Option.some_ne_none id)
  · rintro rfl
    exact absurd hconsumer (Option.some_ne_none _)

/-- The driver cancels a frame. -/
theorem Piped.cancel (h : Piped w₀ s) (hw : WellFormed .h264 s.video.world.queue) :
    Piped w₀ { s.call (.cancel (some f)) with owned := s.owned.erase f } :=
  h.quiet (c := .cancel (some f)) hw (passing_of_driver trivial rfl Call.noConfusion)
    ⟨trivial, trivial, trivial⟩ trivial (fun _ => Call.noConfusion)
    (fun _ => Call.noConfusion) fun _ hg => .inl (Finset.mem_of_mem_erase hg)

/-- A buffer that `malloc` returns is not in the queue. -/
theorem malloc_unqueued {size : ℕ} {answer : Option FrameAddr}
    (hw : WellFormed .h264 (w.call .h264 (.malloc size answer)).queue)
    (hf : (frameQueueV2Malloc .h264 size answer w.queue).2 = some f) :
    ∀ e ∈ (w.call .h264 (.malloc size answer)).abstract.entries, e.item ≠ f := by
  rintro e he rfl
  obtain ⟨n, hn, rfl⟩ := mem_entries.mp he
  obtain ⟨m, hm, hmf⟩ := malloc_frame hf
  obtain ⟨g, hg⟩ := Option.ne_none_iff_exists'.mp (hw.ready_frame n hn)
  have hitem : (entryOf n ((w.call .h264 (.malloc size answer)).queue.node n)).item = g := by
    rw [entryOf, hg]
    rfl
  rw [hitem] at hmf
  -- one buffer would be at a free node and at a completed one
  exact hw.ne_of_free_ready hm hn (hw.frame_inj m (mem_listed_of_free hm) n
    (mem_listed_of_ready hn) g hmf hg)

/-- **The driver gets a buffer.** -/
theorem Piped.malloc {size : ℕ} {answer : Option FrameAddr} (h : Piped w₀ s)
    (hw : WellFormed .h264 s.video.world.queue)
    (hfresh : Fresh .h264 s.video.world.queue (.malloc size answer)) :
    Piped w₀ (s.h264eFrameMalloc size answer) := by
  have hpass := passing_of_driver (c := .malloc size answer) trivial rfl Call.noConfusion
  have hw' : WellFormed .h264 (s.video.world.call .h264 (.malloc size answer)).queue :=
    hw.run hfresh
  refine h.quiet hw hpass ⟨trivial, hfresh, trivial⟩ trivial (fun _ => Call.noConfusion)
    (fun _ => Call.noConfusion) fun f hf => ?_
  cases hm : (frameQueueV2Malloc .h264 size answer s.video.world.queue).2 with
  | none =>
    rw [hm] at hf
    exact .inl hf
  | some g =>
    rw [hm] at hf
    rcases Finset.mem_insert.mp hf with rfl | hmem
    · exact .inr (malloc_unqueued hw' hm)
    · exact .inl hmem

/-- What a call of `complete` publishes. -/
theorem publishes_complete {w : World} {memory : FrameAddr → H264Frame}
    (hcause : Causes .h264 (.complete (some f)) ev)
    (hstep : Step Bits.bits Valid w.abstract ev (w.call .h264 (.complete (some f))).abstract) :
    ev.publishes memory =
      if (frameQueueV2Complete .h264 (some f) w.queue).2 then [memory f] else [] := by
  -- the completions are counted by the history
  have hcount : (w.history.record w.queue (.complete (some f))
      (.status (frameQueueV2Complete .h264 (some f) w.queue).2)).completed =
      w.history.completed + (ev.publishes memory).length := completed_step hstep
  cases ev with
  | publish g =>
    obtain rfl : f = g := Option.some.inj (Call.complete.inj hcause)
    cases hr : (frameQueueV2Complete .h264 (some f) w.queue).2 with
    | true => rfl
    | false =>
      rw [hr] at hcount
      exact absurd hcount (Nat.succ_ne_self _).symm
  | idle =>
    cases hr : (frameQueueV2Complete .h264 (some f) w.queue).2 with
    | true =>
      rw [hr] at hcount
      exact absurd hcount (Nat.succ_ne_self _)
    | false => rfl
  | deliver id g => exact absurd hcause (by rintro ⟨_, ⟨⟩⟩)
  | discard g => exact absurd rfl hcause.1
  | _ => exact Call.noConfusion hcause

/-- **The driver completes a frame.** -/
theorem Piped.complete (h : Piped w₀ s) (hw : WellFormed .h264 s.video.world.queue) :
    Piped w₀ (s.dvpCameraFrameComplete f true) := by
  refine h.pass (c := .complete (some f)) hw (passing_of_driver trivial rfl Call.noConfusion)
    ⟨trivial, trivial, trivial⟩ trivial (fun _ => Call.noConfusion)
    fun ev hcause hstep => ⟨?_, fun g hg => ?_⟩
  · rw [publishes_complete hcause hstep]
    split <;> simp
  · obtain ⟨hne, hmem⟩ := Finset.mem_erase.mp hg
    refine unqueued_step hstep (h.owned g hmem) ?_
    rintro rfl
    exact hne (Option.some.inj (Call.complete.inj hcause)).symm

/-- **The driver writes a frame.** -/
theorem Piped.write (h : Piped w₀ s) (hacc : Accounted Bits.bits Valid s.video.world.abstract)
    (hf : f ∈ s.owned) (frame : H264Frame) :
    Piped w₀ { s with memory := Function.update s.memory f frame } := by
  -- what the driver owns is not in the queue
  have hqueue := h.owned f hf
  -- the frame of the thread is in the queue, so it is another one
  have hother : ∀ g, s.video.point.frame = some g →
      Function.update s.memory f frame g = s.memory g := by
    intro g hg
    obtain ⟨-, e, he, rfl, -⟩ := hacc.held _ g ((h.safe.holds g).mpr hg)
    exact Function.update_of_ne (hqueue e he) _ _
  refine ⟨h.safe, ⟨h.flow.exact, h.flow.carries.write hqueue frame, h.flow.inactive⟩, h.owned,
    fun g frame' hp => ?_, ?_, h.faithful⟩
  · show Function.update s.memory f frame g = frame' ∧ _
    rw [hother g (by rw [hp]; rfl)]
    exact h.sending g frame' hp
  · have hunderway : ({ s with memory := Function.update s.memory f frame } : Pipeline).underway =
        s.underway := by
      unfold Pipeline.underway
      cases hp : s.video.point with
      | got g => simp only [hother g (by rw [hp]; rfl)]
      | send g frame' => simp only [hother g (by rw [hp]; rfl)]
      | _ => rfl
    rw [hunderway]
    exact h.arrived

/-- **The thread takes a frame**, or finds none. -/
theorem Piped.getFrame {waits : ℕ} (h : Piped w₀ s) (hw : WellFormed .h264 s.video.world.queue)
    (hpoint : s.video.point = .get) : Piped w₀ { s with video := s.video.getFrame waits } := by
  have hpass : Passing (.getFrame consumerTransmission waits) :=
    ⟨trivial, fun id hid => .inl (Option.some.inj hid).symm, Call.noConfusion, Call.noConfusion⟩
  obtain ⟨ev, hcause, hstep, hflow⟩ := h.flow.call hw hpass
  have hpublish : ∀ f, ev ≠ .publish f := by
    rintro f rfl
    exact Call.noConfusion hcause
  have hnone : ev.publishes s.memory = [] := publishes_eq_nil hpublish
  rw [hnone, List.append_nil] at hflow
  have howned : ∀ f ∈ s.owned, ∀ e ∈ (s.video.world.call .h264
      (.getFrame consumerTransmission waits)).abstract.entries, e.item ≠ f :=
    fun f hf => unqueued_step hstep (h.owned f hf) (hpublish f)
  -- what was taken so far has been handed over
  have hbefore : s.underway = [] := underway_of_none (by rw [hpoint]; rfl)
  have harrived := h.arrived
  rw [hbefore, List.append_nil] at harrived
  have hsafe : Safe w₀ (s.video.getFrame waits) := h.safe.getFrame hpoint
  unfold VideoState.getFrame at hsafe ⊢
  cases hr : (frameQueueV2GetFrame .h264 consumerTransmission waits s.video.world.queue).2 with
  | none =>
    simp only [hr] at hsafe ⊢
    refine ⟨hsafe, hflow, howned, fun f frame => VideoPoint.noConfusion, ?_, h.faithful⟩
    have hsame : (s.video.world.call .h264 (.getFrame consumerTransmission waits)).history =
        s.video.world.history := by
      show s.video.world.history.record _ (.getFrame consumerTransmission waits) (.frame _) = _
      rw [hr]
      rfl
    show s.handed.map Prod.fst ++ [] = (contents _ _).filter _
    rw [List.append_nil, hsame]
    exact harrived
  | some f =>
    simp only [hr] at hsafe ⊢
    refine ⟨hsafe, hflow, howned, fun f frame => VideoPoint.noConfusion, ?_, h.faithful⟩
    have hmore : (s.video.world.call .h264 (.getFrame consumerTransmission waits)).history.delivered
        consumerTransmission = s.video.world.history.delivered consumerTransmission ++
          [s.video.world.history.stamp f] := by
      show (s.video.world.history.record _ (.getFrame consumerTransmission waits)
        (.frame _)).delivered _ = _
      rw [hr]
      simp only [History.record, Function.update_self]
    -- the frame is the one that the thread holds afterwards
    have hcontent : contents s.completions [s.video.world.history.stamp f] = [s.memory f] := by
      rcases delivered_step hstep consumerTransmission with hsame | ⟨e, he, -, rfl, -⟩ |
        ⟨rfl, -, -⟩
      · exact absurd (List.append_right_eq_self.mp (hmore.symm.trans hsame)) (List.cons_ne_nil _ _)
      · have hheld := (hsafe.holds e.item).mp (holds_deliver hstep)
        obtain rfl : f = e.item := Option.some.inj hheld
        exact contents_singleton (h.flow.carries.content e he)
      · exact Call.noConfusion hcause
    show s.handed.map Prod.fst ++ [s.memory f].filter _ = (contents _ _).filter _
    rw [hmore, contents_append, hcontent, List.filter_append, harrived]
    rfl

/-- The thread reads its frame. -/
theorem Piped.accept (h : Piped w₀ s) (hsafe : Safe w₀ (s.video.accept f (s.memory f)))
    (hpoint : s.video.point = .got f) :
    Piped w₀ { s with video := s.video.accept f (s.memory f) } := by
  have harrived := h.arrived
  rw [underway_of_got hpoint] at harrived
  unfold VideoState.accept at hsafe ⊢
  by_cases hshort : (s.memory f).frame.length < 4
  · have hlong : ¬(s.memory f).long = true := by simpa [H264Frame.long] using hshort
    rw [if_pos hshort] at hsafe ⊢
    refine ⟨hsafe, h.flow, h.owned, fun f frame => VideoPoint.noConfusion, ?_, h.faithful⟩
    -- a frame that is too short is taken, and never handed over
    rwa [List.filter_cons_of_neg hlong] at harrived
  · have hlong : (s.memory f).long = true := by simpa [H264Frame.long] using hshort
    rw [if_neg hshort] at hsafe ⊢
    refine ⟨hsafe, h.flow, h.owned, fun g frame hp => ?_, ?_, h.faithful⟩
    · obtain ⟨rfl, rfl⟩ := VideoPoint.send.inj hp
      exact ⟨rfl, hlong⟩
    · rwa [List.filter_cons_of_pos hlong] at harrived

/-- The thread gives its frame back. -/
theorem Piped.release {video : VideoState} (h : Piped w₀ s)
    (hw : WellFormed .h264 s.video.world.queue) (hsafe : Safe w₀ video)
    (hpoint : s.video.point = .release f) (hafter : video.point = .loop)
    (hworld : video.world =
      s.video.world.call .h264 (.releaseFrame consumerTransmission (some f))) :
    Piped w₀ { s with video := video } := by
  have hpass : Passing (.releaseFrame consumerTransmission (some f)) :=
    ⟨trivial, fun id hid => .inl (Option.some.inj hid).symm, Call.noConfusion, Call.noConfusion⟩
  obtain ⟨ev, hcause, hstep, hflow⟩ := h.flow.call hw hpass
  -- releasing a frame changes nothing about what the thread was given
  have htaken := h.flow.taken_call hcause hstep fun _ => Call.noConfusion
  have hpublish : ∀ g, ev ≠ .publish g := by
    rintro g rfl
    exact Call.noConfusion hcause
  have hnone : ev.publishes s.memory = [] := publishes_eq_nil hpublish
  rw [hnone, List.append_nil] at hflow htaken
  have harrived := h.arrived
  rw [underway_of_release hpoint] at harrived
  refine ⟨hsafe, hworld.symm ▸ hflow, ?_, ?_, ?_, h.faithful⟩
  · show ∀ g ∈ s.owned, ∀ e ∈ video.world.abstract.entries, e.item ≠ g
    rw [hworld]
    exact fun g hg => unqueued_step hstep (h.owned g hg) (hpublish g)
  · rintro g frame (hp : video.point = _)
    rw [hafter] at hp
    exact VideoPoint.noConfusion hp
  · rw [underway_of_none (s := { s with video := video }) (by rw [hafter]; rfl)]
    show _ = (taken s.completions video.world).filter _
    rw [hworld, htaken]
    exact harrived

/-- **One step of the thread.** -/
theorem Piped.thread {answer : VideoAnswer} {video : VideoState} (h : Piped w₀ s)
    (hw : WellFormed .h264 s.video.world.queue)
    (hstep : s.video.threadNext (s.answered answer) = some video) :
    Piped w₀ { s with video := video, handed := s.handed ++ s.handing } := by
  have hsafe := h.safe.thread hstep
  -- nothing is handed over except in one case
  have hquiet (hne : ∀ f frame, s.video.point ≠ .send f frame)
      (hpiped : Piped w₀ { s with video := video }) :
      Piped w₀ { s with video := video, handed := s.handed ++ s.handing } := by
    rw [handing_eq_nil hne, List.append_nil]
    exact hpiped
  cases threadNext_cases hstep with
  | without before after world =>
    refine hquiet (fun f frame hp => ?_) (h.go hsafe world (.inr ⟨after, before⟩))
    rw [hp] at before
    exact Option.some_ne_none f before
  | get waits point eq =>
    subst eq
    exact hquiet (fun f frame => by rw [point]; exact VideoPoint.noConfusion) (h.getFrame hw point)
  | accept f frame point reads eq =>
    subst eq
    refine hquiet (fun f frame => by rw [point]; exact VideoPoint.noConfusion) ?_
    have hframe : s.memory f = frame := by
      unfold Pipeline.answered at reads
      rw [point] at reads
      exact VideoAnswer.frame.inj reads
    subst hframe
    exact h.accept hsafe point
  | send f frame calls point hands after world =>
    obtain ⟨hmemory, hlong⟩ := h.sending f frame point
    have hhanding : s.handing = [(s.memory f, calls)] := by
      unfold Pipeline.handing
      rw [point]
      simp only [hands]
      rfl
    have harrived := h.arrived
    rw [underway_of_send point] at harrived
    rw [hhanding]
    refine ⟨hsafe, world.symm ▸ h.flow, world.symm ▸ h.owned, ?_, ?_, ?_⟩
    · rintro g frame' (hp : video.point = _)
      rw [after] at hp
      exact VideoPoint.noConfusion hp
    · rw [underway_of_release after, List.map_append, List.append_nil]
      show _ = (taken s.completions video.world).filter _
      rw [world]
      exact harrived
    · intro handed hmem
      rcases List.mem_append.mp hmem with hmem | hmem
      · exact h.faithful handed hmem
      · obtain rfl := List.mem_singleton.mp hmem
        exact ⟨s.video.baseTs, hmemory ▸ hands⟩
  | release f point after world =>
    refine hquiet (fun f frame => by rw [point]; exact VideoPoint.noConfusion) ?_
    exact h.release hw hsafe point after world

/-- **One step of anybody.** -/
theorem Piped.step {a : PipelineAction} (h : Piped w₀ s)
    (hqueue : WellFormed .h264 s.video.world.queue ∧
      Accounted Bits.bits Valid s.video.world.abstract)
    (hok : s.Lawful a) (hstep : s.step a t) : Piped w₀ t := by
  obtain ⟨hw, hacc⟩ := hqueue
  cases a with
  | thread answer =>
    obtain ⟨video, hthread, rfl⟩ := Option.map_eq_some_iff.mp hstep
    exact h.thread hw hthread
  | request type =>
    obtain rfl := Option.some.inj hstep
    have hsafe : Safe w₀ (s.video.sendMsgToEncoder type) :=
      h.safe.step (a := .request type) trivial rfl
    cases type <;> exact h.go hsafe rfl (.inl rfl)
  | stop =>
    obtain rfl := Option.some.inj hstep
    exact h.go (h.safe.step (a := .stop) trivial rfl) rfl (.inl rfl)
  | client c =>
    obtain rfl := Option.some.inj hstep
    obtain ⟨hdisciplined, id, hid, hsingle, hne⟩ := hok
    exact h.client hw hdisciplined hid hsingle hne
  | register =>
    obtain rfl := Option.some.inj hstep
    exact h.register hw
  | malloc size answer =>
    obtain rfl := Option.some.inj hstep
    exact h.malloc hw hok
  | write f frame =>
    obtain rfl := Option.some.inj hstep
    exact h.write hacc hok frame
  | complete f ok =>
    obtain rfl := Option.some.inj hstep
    cases ok with
    | true => exact h.complete hw
    | false => exact h.cancel hw

end Steps

/-- The frames that wait in the queue, as entries of the broadcast queue. -/
theorem queued_eq (hw : WellFormed .h264 s.video.world.queue)
    {p : Entry NodeId ℕ FrameAddr → Bool} (hp : ∀ e, p e = true ↔ 0 ∈ e.pending) :
    (s.video.world.abstract.entries.filter p).map (fun e => s.memory e.item) = s.queued := by
  have hpending : (p ∘ fun n => entryOf n (s.video.world.queue.node n)) = fun n =>
      (s.video.world.queue.node n).pendingFor consumerTransmission := by
    funext n
    rw [Bool.eq_iff_iff, Function.comp_apply, hp, ← Entry.waits_singleton,
      ← bits_consumerTransmission]
    exact waits_entryOf
  show ((s.video.world.queue.readyList.nodes.map _).filter p).map _ = _
  rw [List.filter_map, List.map_map, hpending, ← List.filterMap_eq_map]
  refine List.filterMap_congr fun n hn => ?_
  obtain ⟨f, hf⟩ := Option.ne_none_iff_exists'.mp (hw.ready_frame n (List.mem_of_mem_filter hn))
  simp [entryOf, hf]

/-- Before the first step. -/
theorem piped_start {answer : ℕ → Option NodeId} {node : NodeId → FrameNode} :
    Piped ⟨initialised .h264 answer node, History.empty⟩
      (.start ⟨initialised .h264 answer node, History.empty⟩ memory) := by
  refine ⟨⟨.refl _, fun f => ?_, rfl⟩, ⟨exact_initialised, ⟨rfl, ?_, ?_⟩, fun _ => rfl⟩, ?_,
    fun f frame => VideoPoint.noConfusion, rfl, ?_⟩
  · simp [Pipeline.start, VideoState.start, History.empty, VideoPoint.frame]
  · simp [Pipeline.start, VideoState.start, initialised_entries]
  · simp [Pipeline.start, VideoState.start, World.abstract, History.empty]
  · simp [Pipeline.start]
  · simp [Pipeline.start]

/-- **What the peer is sent is what the camera completed.** In every run in which the driver
touches only its buffers, the calls for a frame are those of the frame as it was completed.  Once
the consumer of the thread is registered, the frames completed since then that are long enough
are, in the order of their completion, those handed over, the one underway and those in the queue:
none is lost, repeated, or overwritten before it is sent.  Before that, none is handed over. -/
theorem frames_arrive_as_completed {answer : ℕ → Option NodeId} {node : NodeId → FrameNode}
    (hnodes : (createdNodes .h264 answer).Nodup)
    (h : Reaches (Guarded Pipeline.step Pipeline.Lawful)
      (.start ⟨initialised .h264 answer node, History.empty⟩ memory) s) :
    (∀ h ∈ s.handed, ∃ base, videoData base h.1 = some h.2) ∧
      (s.video.world.queue.activeConsumers &&& consumerTransmission ≠ 0 →
        s.handed.map Prod.fst ++ s.underway ++ s.queued.filter H264Frame.long =
          (s.completions.drop (s.video.world.history.since consumerTransmission)).filter
            H264Frame.long) ∧
      (s.video.world.queue.activeConsumers &&& consumerTransmission = 0 →
        s.handed = [] ∧ s.underway = []) := by
  have hpiped : Piped ⟨initialised .h264 answer node, History.empty⟩ s := by
    refine h.invariant ?_ fun t a u ht hstep =>
      ht.step (accounted_of_reaches hnodes ht.safe.run) hstep.1 hstep.2
    exact piped_start
  obtain ⟨hw, hacc⟩ := accounted_of_reaches hnodes hpiped.safe.run
  refine ⟨hpiped.faithful, fun hactive => ?_, fun hinactive => ?_⟩
  · classical
    have hall := hpiped.flow.exact.received hpiped.flow.carries
      (p := fun e => decide (0 ∈ e.pending)) (fun e => decide_eq_true_iff)
      (consumes_iff.mp hactive)
    rw [queued_eq hw fun e => decide_eq_true_iff] at hall
    rw [hpiped.arrived, ← List.filter_append]
    exact congrArg _ hall
  · have hnil : (taken s.completions s.video.world).filter H264Frame.long = [] := by
      rw [taken, hpiped.flow.inactive fun hk => consumes_iff.mpr hk hinactive]
      rfl
    obtain ⟨hhanded, hunderway⟩ := List.append_eq_nil_iff.mp (hpiped.arrived.trans hnil)
    exact ⟨List.map_eq_nil_iff.mp hhanded, hunderway⟩

/-- What the driver and the thread do on their own. -/
def Pipeline.move (s : Pipeline) (a : PipelineAction) : Option (PipelineAction × Pipeline) :=
  (s.next a).map (a, ·)

/-- The lawful steps of the driver and of the thread. -/
def Pipeline.lawful (s : Pipeline) : PipelineAction → Bool
  | .malloc size answer => Fresh .h264 s.video.world.queue (.malloc size answer)
  | .write f _ | .complete f _ => f ∈ s.owned
  | .client _ => false
  | _ => true

theorem Pipeline.lawful_of_lawful {a : PipelineAction} (h : s.lawful a = true) : s.Lawful a := by
  cases a with
  | malloc size answer =>
    exact of_decide_eq_true (p := Fresh .h264 s.video.world.queue (.malloc size answer)) h
  | write f frame => exact of_decide_eq_true (p := f ∈ s.owned) h
  | complete f ok => exact of_decide_eq_true (p := f ∈ s.owned) h
  | client c => exact absurd h Bool.false_ne_true
  | _ => trivial

/-- A frame in the buffer `f`. -/
def oneCompletion (f : FrameAddr) (frame : H264Frame) : List PipelineAction :=
  [.malloc 64 (some f), .write f frame, .complete f true]

/-- The frames of a short run: the first is completed before the consumer of the thread registers,
and the second is too short. -/
def fourFrames : List PipelineAction :=
  oneCompletion 1000 idrFrame ++ [.register] ++ oneCompletion 2000 ⟨[0, 0], 800, 0⟩ ++
    oneCompletion 3000 { idrFrame with timestamp := 900 } ++
    oneCompletion 4000 { idrFrame with timestamp := 1000 } ++
    [.thread .none, .thread .none] ++
    ([0, 1].flatMap fun _ => [.thread .none, .thread (.enabled true), .thread .none,
      .thread (.waits 0), .thread .none, .thread .none])

/-- The third frame is handed over, and the fourth is in the queue. -/
theorem frames_arrive_as_completed_third : ∃ s : Pipeline,
    s.handed.map (·.1.timestamp) = [900] ∧ s.queued.map (·.timestamp) = [1000] ∧
      s.handed.map Prod.fst ++ s.underway ++ s.queued.filter H264Frame.long =
        (s.completions.drop (s.video.world.history.since consumerTransmission)).filter
          H264Frame.long := by
  have hplay : (play Pipeline.move Pipeline.lawful fourFrames
      (.start h264World fun _ => ⟨[], 0, 0⟩)).any (fun s =>
        s.video.world.queue.activeConsumers &&& consumerTransmission ≠ 0 ∧
          s.handed.map (·.1.timestamp) = [900] ∧ s.queued.map (·.timestamp) = [1000]) = true := by
    decide +kernel
  obtain ⟨s, hrun, hs⟩ := exists_reaches_of_play (fun _ _ _ _ => next_of_labelled) hplay
  obtain ⟨hactive, hhanded, hqueued⟩ := of_decide_eq_true hs
  have hlawful : Reaches (Guarded Pipeline.step Pipeline.Lawful)
      (.start h264World fun _ => ⟨[], 0, 0⟩) s :=
    hrun.weaken fun _ _ ha => Pipeline.lawful_of_lawful ha
  exact ⟨s, hhanded, hqueued, (frames_arrive_as_completed h264Nodes_nodup hlawful).2.1 hactive⟩

end Encoder

end YangIpc
