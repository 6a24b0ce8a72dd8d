import YangIpc.Commands.Devices
import YangIpc.Encoder.StartCode
import YangIpc.FrameQueue.Holds
import YangIpc.Library.Trace

/-!
# The video thread

`yang_bk_video_thread` of `YangIpcEncoder.c` takes frames from the H264 queue and hands them to the
session of the peer, as long as the session is enabled.  Any thread may ask for a key frame or stop
the thread, and any thread may use the queue, but no other takes frames as the same consumer.

A call on the queue is one step, and so is every access to a flag that other threads write.  The
audio of the loop is in `Encoder.AudioFifo`.

## Main definitions

* `YangBkIpcVideo`, `VideoPoint`, `VideoState`: the flags, the points of the thread, the state
* `VideoState.threadNext`: the steps of the thread
* `VideoState.next`, `VideoState.Clients`: the steps of everybody, and what is expected of others
* `custody`: a monitor of the frames that the thread takes and gives back

## Main results

* `video_frames_are_safe`: a frame is handed over only while the queue keeps it for the thread
-/

namespace YangIpc

namespace Encoder

open FrameQueue Transition Trace
open Commands (consumerTransmission)

/-- What the thread reads of a `frame_buffer_t`; `frame` has `length` bytes. -/
structure H264Frame where
  frame : List UInt8
  timestamp : UInt32
  h264Type : UInt32
deriving DecidableEq, Repr

/-- `FRAME_FLAG_IS_I_FRAME`. -/
def frameFlagIsIFrame : UInt32 := 0x01000000

/-- `YangFrame`, as far as the thread fills it: where `payload` is in the frame, and one of the
equal `pts` and `dts`. -/
structure YangFrame where
  payload : ℕ
  nb : ℕ
  pts : UInt32
  frametype : Bool
deriving DecidableEq, Repr

/-- The calls of `onVideoData` for a frame; `none` if a byte is read behind the frame. -/
def videoData (baseTs : UInt32) (frame : H264Frame) : Option (List YangFrame) :=
  let pts := frame.timestamp - baseTs
  if frame.h264Type &&& frameFlagIsIFrame ≠ 0 then some [⟨0, frame.frame.length, pts, true⟩]
  else (yangSendP frame.frame).map (List.map fun call => ⟨call.1, call.2, pts, false⟩)

/-- `YangRequestType`, as far as it is told apart. -/
inductive YangRequestType
  | sendkeyframe
  | connected
  | other
deriving DecidableEq, Repr

/-- `YangBkIpcVideo`: its flags. -/
structure YangBkIpcVideo where
  isStart : Bool
  isLoop : Bool
  sendKeyframe : Bool
  hasConnected : Bool
deriving DecidableEq, Repr

/-- Where the thread is. -/
inductive VideoPoint
  /-- `isLoop = yangtrue` -/
  | created
  /-- `isStart = yangtrue` -/
  | starting
  /-- at the condition `isLoop` -/
  | loop
  /-- about to ask whether the session is enabled -/
  | enable
  /-- at the condition `sendKeyframe` -/
  | keyframe
  /-- `yangipc_camera_idr_rest` -/
  | rest
  /-- `sendKeyframe = yangfalse` -/
  | clear
  /-- `frame_queue_v2_get_frame` -/
  | get
  /-- about to look at a frame -/
  | got (f : FrameAddr)
  /-- about to hand it over -/
  | send (f : FrameAddr) (frame : H264Frame)
  /-- `frame_queue_v2_release_frame` -/
  | release (f : FrameAddr)
  /-- `isStart = yangfalse` -/
  | finish
  | ended
deriving DecidableEq, Repr

/-- The frame that the thread has. -/
def VideoPoint.frame : VideoPoint → Option FrameAddr
  | got f | send f _ | release f => some f
  | _ => none

/-- What is observed of a run. -/
inductive VideoEvent
  /-- `sendMsgToEncoder` asks for a key frame; `late` if the thread is about to clear the flag -/
  | request (late : Bool)
  /-- the camera is asked for a key frame -/
  | rest
  /-- the session is found enabled, after it was not -/
  | connected
  | got (f : FrameAddr)
  /-- the frame is long enough -/
  | accepted (timestamp : UInt32)
  /-- `onVideoData` -/
  | video (f : FrameAddr) (timestamp : UInt32) (frame : YangFrame)
  | released (f : FrameAddr)
deriving DecidableEq, Repr

/-- The session, the thread with its `baseTs`, and the queue. -/
structure VideoState where
  session : YangBkIpcVideo
  point : VideoPoint
  baseTs : UInt32
  log : List VideoEvent
  world : World

/-- What the thread finds. -/
inductive VideoAnswer
  | none
  /-- `codecEnable.enable`; `true` if there is none -/
  | enabled (on : Bool)
  /-- how often `get_frame` waits -/
  | waits (n : ℕ)
  | frame (frame : H264Frame)

/-- The steps, with the answers of the environment. -/
inductive VideoAction
  | thread (answer : VideoAnswer)
  | request (type : YangRequestType)
  | stop
  /-- a call of another client of the queue -/
  | client (call : Call)

/-- A call that does not take or release a frame as the consumer of the thread. -/
def Foreign : Call → Prop
  | .getFrame id _ | .releaseFrame id _ => id ≠ consumerTransmission
  | _ => True

namespace VideoState

/-- The thread is created. -/
def start (w : World) : VideoState := ⟨⟨false, false, false, false⟩, .created, 0, [], w⟩

/-- `yang_bk_video_sendMsgToEncoder`. -/
def sendMsgToEncoder (s : VideoState) : YangRequestType → VideoState
  | .sendkeyframe | .connected =>
    { s with
      session := { s.session with sendKeyframe := true }
      log := s.log ++ [.request (s.point = .clear)] }
  | .other => s

/-- The session is enabled. -/
def connect (s : VideoState) : VideoState :=
  if s.session.hasConnected then { s with point := .keyframe }
  else
    { s with
      session := { s.session with hasConnected := true }
      point := .keyframe
      baseTs := 0
      log := s.log ++ [.connected] }

/-- `frame_queue_v2_get_frame(IMAGE_H264, CONSUMER_TRANSMISSION, 200)`. -/
def getFrame (s : VideoState) (waits : ℕ) : VideoState :=
  let call : Call := .getFrame consumerTransmission waits
  let world := s.world.call .h264 call
  match (frameQueueV2GetFrame .h264 consumerTransmission waits s.world.queue).2 with
  | some f => { s with point := .got f, log := s.log ++ [.got f], world := world }
  | none => { s with point := .loop, world := world }

/-- The tests of `length` and of `baseTs`. -/
def accept (s : VideoState) (f : FrameAddr) (frame : H264Frame) : VideoState :=
  if frame.frame.length < 4 then { s with point := .release f }
  else
    { s with
      point := .send f frame
      baseTs := if s.baseTs = 0 then frame.timestamp else s.baseTs
      log := s.log ++ [.accepted frame.timestamp] }

/-- `yang_bk_video_thread`: what the thread does next. -/
def threadNext (s : VideoState) (answer : VideoAnswer) : Option VideoState :=
  match s.point, answer with
  | .created, _ =>
    some { s with session := { s.session with isLoop := true }, point := .starting }
  | .starting, _ =>
    some { s with
      session := { s.session with isStart := true, hasConnected := false }, point := .loop }
  | .loop, _ => some { s with point := if s.session.isLoop then .enable else .finish }
  | .enable, .enabled true => some s.connect
  | .enable, .enabled false =>
    some { s with session := { s.session with hasConnected := false }, point := .loop }
  | .keyframe, _ => some { s with point := if s.session.sendKeyframe then .rest else .get }
  | .rest, _ => some { s with point := .clear, log := s.log ++ [.rest] }
  | .clear, _ =>
    some { s with session := { s.session with sendKeyframe := false }, point := .get }
  | .get, .waits n => some (s.getFrame n)
  | .got f, .frame frame => some (s.accept f frame)
  | .send f frame, _ =>
    (videoData s.baseTs frame).map fun calls =>
      { s with point := .release f, log := s.log ++ calls.map (.video f frame.timestamp) }
  | .release f, _ =>
    some { s with
      point := .loop
      log := s.log ++ [.released f]
      world := s.world.call .h264 (.releaseFrame consumerTransmission (some f)) }
  | .finish, _ =>
    some { s with session := { s.session with isStart := false }, point := .ended }
  | _, _ => none

/-- The state after a step, if it is possible. -/
def next (s : VideoState) : VideoAction → Option VideoState
  | .thread answer => s.threadNext answer
  | .request type => some (s.sendMsgToEncoder type)
  -- `yang_bk_video_stop`
  | .stop => some { s with session := { s.session with isLoop := false } }
  | .client call => some { s with world := s.world.call .h264 call }

/-- The transition system. -/
def step (s : VideoState) (a : VideoAction) (t : VideoState) : Prop := s.next a = some t

/-- The other clients release only what they hold, and take nothing as this consumer. -/
def Clients (s : VideoState) : VideoAction → Prop
  | .client call => disciplinedCall .h264 s.world call ∧ Foreign call
  | _ => True

end VideoState

/-! ## The frames of the thread -/

/-- A frame is taken when there is none, handed over and given back when it is the one taken. -/
def custodyStep : Option (Option FrameAddr) → VideoEvent → Option (Option FrameAddr)
  | some none, .got f => some (some f)
  | some (some f), .video g _ _ => if f = g then some (some f) else none
  | some (some f), .released g => if f = g then some none else none
  | _, .got _ | _, .video _ _ _ | _, .released _ => none
  | c, .request _ | c, .rest | c, .connected | c, .accepted _ => c

/-- The frame that is taken and not given back; `none` if a frame was taken while another was,
handed over without being taken, or given back twice. -/
def custody (log : List VideoEvent) : Option (Option FrameAddr) :=
  observe custodyStep (some none) log

theorem custody_snoc {log : List VideoEvent} {e : VideoEvent} :
    custody (log ++ [e]) = custodyStep (custody log) e := observe_snoc

/-- The invariant: the queue has seen a disciplined run, and its history and the log agree with
the thread on what it has. -/
structure Safe (w₀ : World) (s : VideoState) : Prop where
  run : Reaches (Guarded (World.step .h264) (disciplinedCall .h264)) w₀ s.world
  holds : ∀ f, (consumerTransmission, f) ∈ s.world.history.holds ↔ s.point.frame = some f
  custody : custody s.log = some s.point.frame

variable {w₀ w : World} {s t : VideoState} {f : FrameAddr}

/-- A step that has nothing to do with the queue. -/
theorem Safe.go (h : Safe w₀ s) (hworld : t.world = s.world)
    (hframe : t.point.frame = s.point.frame)
    (hlog : Encoder.custody t.log = Encoder.custody s.log) :
    Safe w₀ t where
  run := hworld ▸ h.run
  holds f := by rw [hworld, hframe, h.holds]
  custody := by rw [hlog, h.custody, hframe]

/-- What a call of another client leaves to the thread. -/
theorem Safe.client {call : Call} (h : Safe w₀ s) (hok : s.Clients (.client call)) :
    Safe w₀ { s with world := s.world.call .h264 call } where
  run := World.reaches_call h.run call hok.1
  holds f := by
    rw [← h.holds]
    obtain ⟨-, hother⟩ := hok
    show (_, f) ∈ (s.world.history.record _ call _).holds ↔ _
    unfold History.record
    split
    · exact Iff.rfl
    -- the holds of this consumer are changed by its own calls only
    · have hne : consumerTransmission ≠ _ := Ne.symm hother
      simp [hne]
    · have hne : consumerTransmission ≠ _ := Ne.symm hother
      simp [hne]
    · split <;> exact Iff.rfl
    · exact Iff.rfl
  custody := h.custody

/-- The thread takes a frame, or finds none. -/
theorem Safe.getFrame {waits : ℕ} (h : Safe w₀ s) (hpoint : s.point = .get) :
    Safe w₀ (s.getFrame waits) := by
  have hnone : s.point.frame = none := by rw [hpoint]; rfl
  have hrun := World.reaches_call h.run (.getFrame consumerTransmission waits)
    ⟨trivial, trivial, trivial⟩
  have hcustody := h.custody
  rw [hnone] at hcustody
  unfold VideoState.getFrame
  simp only
  split
  · rename_i f hf
    -- the history records the frame for the consumer of the thread
    have hholds : (s.world.call .h264 (.getFrame consumerTransmission waits)).history.holds =
        insert (consumerTransmission, f) s.world.history.holds := by
      show (s.world.history.record _ (.getFrame consumerTransmission waits) (.frame _)).holds = _
      rw [hf]
      rfl
    refine ⟨hrun, fun g => ?_, ?_⟩
    · show _ ↔ some f = some g
      have hg := h.holds g
      rw [hnone] at hg
      rw [hholds, Finset.mem_insert, hg]
      simp [eq_comm]
    · show Encoder.custody (s.log ++ [.got f]) = some (some f)
      rw [custody_snoc, hcustody]
      rfl
  · rename_i hf
    have hholds : (s.world.call .h264 (.getFrame consumerTransmission waits)).history.holds =
        s.world.history.holds := by
      show (s.world.history.record _ (.getFrame consumerTransmission waits) (.frame _)).holds = _
      rw [hf]
      rfl
    refine ⟨hrun, fun g => ?_, hcustody⟩
    rw [hholds, h.holds, hnone]
    rfl

/-- The thread gives its frame back. -/
theorem Safe.release (h : Safe w₀ s) (hpoint : s.point = .release f) :
    Safe w₀ { s with
      point := .loop
      log := s.log ++ [.released f]
      world := s.world.call .h264 (.releaseFrame consumerTransmission (some f)) } := by
  have hframe : s.point.frame = some f := by rw [hpoint]; rfl
  -- the release is one of a frame that the thread holds, so the run stays disciplined
  refine ⟨World.reaches_call h.run _ ⟨trivial, trivial, (h.holds f).mpr hframe⟩, fun g => ?_, ?_⟩
  · show (_, g) ∈ s.world.history.holds.erase _ ↔ none = some g
    rw [Finset.mem_erase, h.holds, hframe]
    simp [eq_comm]
  · have hcustody := h.custody
    rw [hframe] at hcustody
    show Encoder.custody (s.log ++ [.released f]) = some none
    rw [custody_snoc, hcustody]
    simp [custodyStep]

/-- **One step of the thread.** -/
theorem Safe.thread {answer : VideoAnswer} (h : Safe w₀ s)
    (hstep : s.threadNext answer = some t) : Safe w₀ t := by
  unfold VideoState.threadNext at hstep
  have hneutral (e : VideoEvent) (he : ∀ c, custodyStep c e = c) :
      Encoder.custody (s.log ++ [e]) = Encoder.custody s.log := by
    rw [custody_snoc]
    exact he _
  cases hp : s.point with
  | created =>
    simp only [hp, Option.some.injEq] at hstep
    exact hstep ▸ h.go rfl (by rw [hp]; rfl) rfl
  | starting =>
    simp only [hp, Option.some.injEq] at hstep
    exact hstep ▸ h.go rfl (by rw [hp]; rfl) rfl
  | loop =>
    simp only [hp, Option.some.injEq] at hstep
    refine hstep ▸ h.go rfl ?_ rfl
    rw [hp]
    show VideoPoint.frame (if _ then _ else _) = _
    split <;> rfl
  | enable =>
    rcases answer with _ | (_ | _) | n | frame <;>
      simp only [hp, Option.some.injEq, reduceCtorEq] at hstep
    · exact hstep ▸ h.go rfl (by rw [hp]; rfl) rfl
    · subst hstep
      unfold VideoState.connect
      split
      · exact h.go rfl (by rw [hp]; rfl) rfl
      · exact h.go rfl (by rw [hp]; rfl) (hneutral _ fun c => by rcases c with _ | _ | _ <;> rfl)
  | keyframe =>
    simp only [hp, Option.some.injEq] at hstep
    refine hstep ▸ h.go rfl ?_ rfl
    rw [hp]
    show VideoPoint.frame (if _ then _ else _) = _
    split <;> rfl
  | rest =>
    simp only [hp, Option.some.injEq] at hstep
    exact hstep ▸ h.go rfl (by rw [hp]; rfl)
      (hneutral _ fun c => by rcases c with _ | _ | _ <;> rfl)
  | clear =>
    simp only [hp, Option.some.injEq] at hstep
    exact hstep ▸ h.go rfl (by rw [hp]; rfl) rfl
  | get =>
    rcases answer with _ | (_ | _) | n | frame <;>
      simp only [hp, Option.some.injEq, reduceCtorEq] at hstep
    exact hstep ▸ h.getFrame hp
  | got f =>
    rcases answer with _ | (_ | _) | n | frame <;>
      simp only [hp, Option.some.injEq, reduceCtorEq] at hstep
    subst hstep
    unfold VideoState.accept
    split
    · exact h.go rfl (by rw [hp]; rfl) rfl
    · exact h.go rfl (by rw [hp]; rfl) (hneutral _ fun c => by rcases c with _ | _ | _ <;> rfl)
  | send f frame =>
    simp only [hp, Option.map_eq_some_iff] at hstep
    obtain ⟨calls, -, rfl⟩ := hstep
    -- every part of the frame is handed over while the thread has it
    have hcustody : Encoder.custody s.log = some (some f) := by
      rw [h.custody, hp]
      rfl
    refine h.go rfl (by rw [hp]; rfl) (observe_neutral fun e he => ?_)
    obtain ⟨call, -, rfl⟩ := List.mem_map.mp he
    show custodyStep (Encoder.custody s.log) _ = Encoder.custody s.log
    rw [hcustody]
    simp [custodyStep]
  | release f =>
    simp only [hp, Option.some.injEq] at hstep
    exact hstep ▸ h.release hp
  | finish =>
    simp only [hp, Option.some.injEq] at hstep
    exact hstep ▸ h.go rfl (by rw [hp]; rfl) rfl
  | ended => simp [hp] at hstep

/-- **One step of anybody.** -/
theorem Safe.step {a : VideoAction} (h : Safe w₀ s) (hok : s.Clients a) (hstep : s.step a t) :
    Safe w₀ t := by
  cases a with
  | thread answer => exact h.thread hstep
  | client call => exact Option.some.inj hstep ▸ h.client hok
  | stop => exact Option.some.inj hstep ▸ h.go rfl rfl rfl
  | request type =>
    obtain rfl := Option.some.inj hstep
    have hneutral (late : Bool) : Encoder.custody (s.log ++ [.request late]) =
        Encoder.custody s.log := by
      rw [custody_snoc]
      rcases Encoder.custody s.log with _ | _ | _ <;> rfl
    cases type with
    | sendkeyframe => exact h.go rfl rfl (hneutral _)
    | connected => exact h.go rfl rfl (hneutral _)
    | other => exact h

/-! ## The queue around the thread -/

/-- The queue keeps a frame for those who hold it: its buffer is live, it is the buffer of a
completed node with references, and no producer can be given it. -/
structure Kept (q : FrameQueueV2) (f : FrameAddr) : Prop where
  live : ∃ b ∈ q.live, b.addr = f
  ready : ∃ n ∈ q.readyList.nodes, (q.node n).frame = some f ∧ (q.node n).refCount ≠ 0
  notFree : ∀ n ∈ q.freeList.nodes, (q.node n).frame ≠ some f

theorem kept_of_held {id : Mask} (hw : WellFormed .h264 w.queue)
    (hacc : Broadcast.Accounted Bits.bits Valid w.abstract) (hheld : (id, f) ∈ w.history.holds) :
    Kept w.queue f := by
  obtain ⟨-, e, he, rfl, -⟩ := hacc.held id f hheld
  obtain ⟨n, hn, rfl⟩ := mem_entries.mp he
  obtain ⟨g, hg⟩ := Option.ne_none_iff_exists'.mp (hw.ready_frame n hn)
  have hitem : (entryOf n (w.queue.node n)).item = g := by simp [entryOf, hg]
  have href : (w.queue.node n).refCount ≠ 0 := hacc.refs_ne_zero he hheld
  rw [hitem]
  refine ⟨hw.frame_live n (mem_listed_of_ready hn) g hg, ⟨n, hn, hg, href⟩, fun m hm hmg => ?_⟩
  exact hw.ne_of_free_ready hm hn (hw.frame_inj m (mem_listed_of_free hm) n
    (mem_listed_of_ready hn) g hmg hg)

/-- **The frames that are handed over are safe.** In every run in which the other clients of the
queue release only what they hold, the thread takes a frame only when it has none, hands over only
the frame that it has, and gives it back once.  While it has a frame, the queue counts it among the
holders and keeps the frame. -/
theorem video_frames_are_safe {answer : ℕ → Option NodeId} {node : NodeId → FrameNode}
    (hnodes : (createdNodes .h264 answer).Nodup)
    (h : Reaches (Guarded VideoState.step VideoState.Clients)
      (.start ⟨initialised .h264 answer node, History.empty⟩) s) :
    custody s.log = some s.point.frame ∧
      (∀ f, (consumerTransmission, f) ∈ s.world.history.holds ↔ s.point.frame = some f) ∧
      ∀ f, s.point.frame = some f → Kept s.world.queue f := by
  have hsafe : Safe ⟨initialised .h264 answer node, History.empty⟩ s := by
    refine h.invariant ⟨.refl _, fun f => ?_, rfl⟩ fun t a u ht hstep => ht.step hstep.1 hstep.2
    simp [VideoState.start, History.empty, VideoPoint.frame]
  obtain ⟨hw, hacc⟩ := accounted_of_reaches hnodes hsafe.run
  exact ⟨hsafe.custody, hsafe.holds, fun f hf => kept_of_held hw hacc ((hsafe.holds f).mpr hf)⟩

/-- What the thread does on its own. -/
def VideoState.move (s : VideoState) (a : VideoAction) : Option (VideoAction × VideoState) :=
  (s.next a).map (a, ·)

/-- Every step but those of the other clients. -/
def VideoAction.inside : VideoAction → Bool
  | .client _ => false
  | _ => true

/-- A frame of the encoder: a coded slice of an IDR picture. -/
def idrFrame : H264Frame := ⟨[0, 0, 0, 1, 0x65, 0x88], 700, frameFlagIsIFrame⟩

/-- The only frame that was completed is taken and handed over; a key frame is requested right
before. -/
def oneFrame : List VideoAction :=
  [.thread .none, .thread .none, .thread .none, .thread (.enabled true), .thread .none,
    .request .connected, .thread (.waits 0), .thread (.frame idrFrame), .thread .none]

/-- The queue with a frame that a producer has completed for the thread. -/
def h264Ready : World :=
  ((h264World.call .h264 (.registerConsumer consumerTransmission)).call .h264
    (.malloc 64 (some 1000))).call .h264 (.complete (some 1000))

theorem VideoState.reaches_client {s₀ : VideoState} (call : Call)
    (h : Reaches (Guarded VideoState.step VideoState.Clients) s₀ s)
    (hok : s.Clients (.client call)) :
    Reaches (Guarded VideoState.step VideoState.Clients) s₀
      { s with world := s.world.call .h264 call } :=
  h.tail (a := .client call) ⟨hok, rfl⟩

theorem h264Ready_reached :
    Reaches (Guarded VideoState.step VideoState.Clients) (.start h264World)
      (.start h264Ready) := by
  refine VideoState.reaches_client _ (VideoState.reaches_client _ (VideoState.reaches_client _
    (.refl (.start h264World)) ?_) ?_) ?_
  · exact ⟨⟨trivial, trivial, trivial⟩, trivial⟩
  · refine ⟨⟨trivial, ?_, trivial⟩, trivial⟩
    show ∀ b ∈ (h264World.call .h264 (.registerConsumer consumerTransmission)).queue.live,
      b.addr ≠ 1000
    decide
  · exact ⟨⟨trivial, trivial, trivial⟩, trivial⟩

/-- What is observed of it. -/
theorem exists_frame_handed_over :
    ∃ s, Reaches (Guarded VideoState.step VideoState.Clients) (.start h264World) s ∧
      s.point = .release 1000 ∧ s.session.sendKeyframe = true ∧
      s.log = [.connected, .request false, .got 1000, .accepted 700,
        .video 1000 700 ⟨0, 6, 0, true⟩] := by
  have hplay : (play VideoState.move (fun _ a => a.inside) oneFrame (.start h264Ready)).any
      (fun s => s.point = .release 1000 ∧ s.session.sendKeyframe = true ∧
        s.log = [.connected, .request false, .got 1000, .accepted 700,
          .video 1000 700 ⟨0, 6, 0, true⟩]) = true := by decide +kernel
  obtain ⟨s, hrun, hs⟩ := exists_reaches_of_play (fun _ _ _ _ => next_of_labelled) hplay
  refine ⟨s, h264Ready_reached.trans (hrun.weaken fun s a ha => ?_), of_decide_eq_true hs⟩
  cases a with
  | client call => exact absurd ha Bool.false_ne_true
  | _ => trivial

/-- The frame is handed over while the queue keeps it. -/
theorem video_frames_are_safe_one : ∃ s : VideoState, s.point = .release 1000 ∧
    Kept s.world.queue 1000 := by
  obtain ⟨s, hrun, hpoint, -, -⟩ := exists_frame_handed_over
  exact ⟨s, hpoint, (video_frames_are_safe h264Nodes_nodup hrun).2.2 1000 (by rw [hpoint]; rfl)⟩

end Encoder

end YangIpc
