import Mathlib.Data.List.Basic
import Mathlib.Data.Nat.Notation

/-!
# The YUV display task

`yuv_display.c` takes frames of the camera out of their queue, has the hardware rotate them by a
quarter turn where that is configured, and gives the frame, or the rotated one in a buffer of its
own, to the display.  The display calls back when it does not need them any more.

Frames are numbered in the order in which the task gets them, and buffers in the order of their
allocation.  What is done with them is kept in lists: the frames released, the buffers freed, and
those of either kind that the display has.

## Main definitions

* `YuvDisplayConfig`, `YuvDisplay`: what the task was opened with, and its state
* `yuvDisplayProcessFrame`, `yuvDisplayRotationComplete`, `yuvDisplayIteration`: the functions
* `YuvDisplayAction`, `YuvDisplay.next`: iterations of the task, and callbacks of the display
-/

namespace YangIpc

namespace Display

/-! ## The state -/

/-- `media_rotate_t`. -/
inductive MediaRotate
  | none
  | rotate90
  | rotate180
  | rotate270
deriving DecidableEq, Repr

/-- `get_rotate_angle`. -/
def getRotateAngle (rotate : UInt32) : MediaRotate :=
  if rotate = 0 then .none
  else if rotate = 90 then .rotate90
  else if rotate = 180 then .rotate180
  else if rotate = 270 then .rotate270
  else .none

/-- What `yuv_display_open` is given: the angle, and whether there is a display. -/
structure YuvDisplayConfig where
  rotate : UInt32
  displayHandle : Bool
deriving DecidableEq, Repr

namespace YuvDisplayConfig

def rotateAngle (config : YuvDisplayConfig) : MediaRotate := getRotateAngle config.rotate

def rotateEnabled (config : YuvDisplayConfig) : Bool := config.rotateAngle ≠ .none

/-- The frames are rotated by the hardware. -/
def hardwareRotation (config : YuvDisplayConfig) : Bool :=
  config.rotateEnabled && (config.rotateAngle = .rotate90 || config.rotateAngle = .rotate270)

end YuvDisplayConfig

/-- `yuv_display_task_t` and `processing_frame`, and what was done so far. -/
structure YuvDisplay where
  taskRunning : Bool
  processingFrame : Option ℕ
  rotateOutputFrame : Option ℕ
  /-- The number of frames that `frame_queue_v2_get_frame` has given. -/
  obtained : ℕ
  /-- The frames passed to `frame_queue_v2_release_frame`. -/
  released : List ℕ
  /-- The number of buffers that `frame_buffer_display_malloc` has given. -/
  allocated : ℕ
  /-- The buffers passed to `frame_buffer_display_free`. -/
  freed : List ℕ
  /-- The frames that the display has, and will call back for. -/
  shownFrames : List ℕ
  /-- The buffers that the display has. -/
  shownOutputs : List ℕ
deriving DecidableEq, Repr

/-- The task has started. -/
def YuvDisplay.start : YuvDisplay := ⟨true, none, none, 0, [], 0, [], [], []⟩

/-- `yuv_display_event_t`. -/
inductive YuvDisplayEvent
  | start
  | stop
  | frameReady
deriving DecidableEq, Repr

/-- What an iteration of the task finds: the message, if there is one within 50 ms, whether there
is a frame, and whether each of the calls succeeds. -/
structure YuvDisplayAnswers where
  msg : Option YuvDisplayEvent
  getFrame : Bool
  malloc : Bool
  rottConfig : Bool
  rottEnable : Bool
  /-- `bk_display_flush` of a rotated frame. -/
  flushOutput : Bool
  /-- `bk_display_flush` of a frame as it is. -/
  flushFrame : Bool
deriving DecidableEq, Repr

/-! ## The functions -/

section Functions

variable (config : YuvDisplayConfig) (answers : YuvDisplayAnswers) (s : YuvDisplay)

/-- `frame_queue_v2_release_frame`, also by `yuv_display_frame_free_cb`. -/
def releaseFrame (frame : ℕ) : YuvDisplay := { s with released := frame :: s.released }

/-- `frame_buffer_display_free`, by `yuv_display_rotate_frame_free_cb`. -/
def freeOutput (output : ℕ) : YuvDisplay := { s with freed := output :: s.freed }

/-- The output buffer for a rotation is allocated, unless there is one. -/
def allocateOutput : YuvDisplay × Bool :=
  match s.rotateOutputFrame with
  | some _ => (s, true)
  | none =>
    if answers.malloc then
      ({ s with rotateOutputFrame := some s.allocated, allocated := s.allocated + 1 }, true)
    else (s, false)

/-- `yuv_display_process_frame`, and whether it succeeds. -/
def yuvDisplayProcessFrame (frame : ℕ) : YuvDisplay × Bool :=
  if config.hardwareRotation then
    let r := allocateOutput answers s
    (r.1, r.2 && answers.rottConfig && answers.rottEnable)
  else if config.displayHandle then
    if answers.flushFrame then ({ s with shownFrames := frame :: s.shownFrames }, true)
    else (releaseFrame s frame, false)
  else (releaseFrame s frame, true)

/-- `yuv_display_rotation_complete`. -/
def yuvDisplayRotationComplete (srcFrame : Option ℕ) : YuvDisplay :=
  match s.rotateOutputFrame with
  | none => s
  | some output =>
    let s :=
      match srcFrame with
      | some frame => releaseFrame s frame
      | none => s
    let s :=
      if config.displayHandle then
        if answers.flushOutput then { s with shownOutputs := output :: s.shownOutputs }
        else freeOutput s output
      else freeOutput s output
    { s with rotateOutputFrame := none }

/-- The end of `yuv_display_task_main`. -/
def yuvDisplayExit : YuvDisplay :=
  let s :=
    match s.processingFrame with
    | some frame => releaseFrame s frame
    | none => s
  let s :=
    match s.rotateOutputFrame with
    | some output => { freeOutput s output with rotateOutputFrame := none }
    | none => s
  { s with taskRunning := false, processingFrame := none }

/-- The second half of an iteration: a new frame, if none is being processed. -/
def yuvDisplayGetFrame : YuvDisplay :=
  match s.processingFrame with
  | some _ => s
  | none =>
    if answers.getFrame then
      let yuvFrame := s.obtained
      let r := yuvDisplayProcessFrame config answers
        { s with obtained := s.obtained + 1, processingFrame := some yuvFrame } yuvFrame
      if r.2 = false then { releaseFrame r.1 yuvFrame with processingFrame := none }
      else if config.hardwareRotation = false then
        -- "already released via display callback in process_frame"
        { r.1 with processingFrame := none }
      else r.1
    else s

/-- An iteration of the loop of `yuv_display_task_main`. -/
def yuvDisplayIteration : YuvDisplay :=
  match answers.msg with
  | some .stop => yuvDisplayExit s
  | some .frameReady =>
    yuvDisplayGetFrame config answers
      { yuvDisplayRotationComplete config answers s s.processingFrame with processingFrame := none }
  | some .start => yuvDisplayGetFrame config answers s
  | none => yuvDisplayGetFrame config answers s

end Functions

/-! ## Runs -/

/-- A step: an iteration of the task, or a callback of the display for the `i`-th of the frames or
buffers it has. -/
inductive YuvDisplayAction
  | iteration (answers : YuvDisplayAnswers)
  | frameShown (i : ℕ)
  | outputShown (i : ℕ)
deriving DecidableEq, Repr

/-- The state after a step; one that is not possible changes nothing. -/
def YuvDisplay.next (config : YuvDisplayConfig) (s : YuvDisplay) : YuvDisplayAction → YuvDisplay
  | .iteration answers =>
    if s.taskRunning then yuvDisplayIteration config answers s else s
  | .frameShown i =>
    match s.shownFrames[i]? with
    | some frame => releaseFrame { s with shownFrames := s.shownFrames.eraseIdx i } frame
    | none => s
  | .outputShown i =>
    match s.shownOutputs[i]? with
    | some output => freeOutput { s with shownOutputs := s.shownOutputs.eraseIdx i } output
    | none => s

/-- The task has exited, and all callbacks have run. -/
def YuvDisplay.Finished (s : YuvDisplay) : Prop :=
  s.taskRunning = false ∧ s.shownFrames = [] ∧ s.shownOutputs = []

instance (s : YuvDisplay) : Decidable s.Finished := inferInstanceAs (Decidable (_ ∧ _ ∧ _))

/-- Every frame was released once, and every buffer freed once. -/
def YuvDisplay.ExactlyOnce (s : YuvDisplay) : Prop :=
  (List.range s.obtained).Perm s.released ∧ (List.range s.allocated).Perm s.freed

instance (s : YuvDisplay) : Decidable s.ExactlyOnce := inferInstanceAs (Decidable (_ ∧ _))

/-- No frame that is taken to be shown as it is is refused by the display. -/
def NoFlushFails (config : YuvDisplayConfig) (s : YuvDisplay) : YuvDisplayAction → Prop
  | .iteration answers => s.taskRunning = true → answers.msg ≠ some .stop →
    answers.getFrame = true → config.hardwareRotation = false → config.displayHandle = true →
      answers.flushFrame = true
  | _ => True

end Display

end YangIpc
