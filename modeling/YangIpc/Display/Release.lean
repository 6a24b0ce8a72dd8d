import YangIpc.Display.Yuv
import YangIpc.Library.Ledger
import YangIpc.Library.Run

/-!
# Frames are released once

Whatever the order of messages, failures and callbacks is, the ledger of the frames and the one of
the buffers stay balanced, with one exception: a frame that is shown as it is and refused by the
display is released by `yuv_display_process_frame` and again by the loop.

## Main definitions

* `Inv`: the ledgers, with the frames that were released twice

## Main results

* `rotationComplete_inv`, `getFrame_inv`, `exit_inv`: the parts of an iteration
* `next_inv`, `run_inv`: one step, and a run
* `exactlyOnce_iff`: every finished run
-/

namespace YangIpc

namespace Display

open Ledger Transition

/-- The ledgers are balanced, but for the frames of `surplus`, which were released a second time.
A frame is processed only by the hardware, into a buffer, and the task leaves nothing behind. -/
structure Inv (config : YuvDisplayConfig) (s : YuvDisplay) (surplus : List ℕ) : Prop where
  frames : Balanced (List.range s.obtained ++ surplus)
    (s.processingFrame.toList ++ s.shownFrames) s.released
  outputs : Balanced (List.range s.allocated ++ [])
    (s.rotateOutputFrame.toList ++ s.shownOutputs) s.freed
  output : s.rotateOutputFrame = none → s.processingFrame = none
  direct : config.hardwareRotation = false → s.processingFrame = none
  exited : s.taskRunning = false → s.processingFrame = none ∧ s.rotateOutputFrame = none

section Parts

variable {config : YuvDisplayConfig} {answers : YuvDisplayAnswers} {s : YuvDisplay}
  {surplus : List ℕ}

theorem Inv.start (config : YuvDisplayConfig) : Inv config .start [] :=
  ⟨List.Perm.nil, List.Perm.nil, fun _ => rfl, fun _ => rfl, fun h => absurd h Bool.noConfusion⟩

/-- **A rotation is complete**: the frame is released, and the buffer shown or freed. -/
theorem rotationComplete_inv (h : Inv config s surplus) (hrunning : s.taskRunning = true) :
    Inv config
      { yuvDisplayRotationComplete config answers s s.processingFrame with processingFrame := none }
      surplus := by
  obtain ⟨hframes, houtputs, houtput, -, -⟩ := h
  obtain ⟨running, processing, output, obtained, released, allocated, freed, frames, outputs⟩ := s
  cases output with
  | none =>
    obtain rfl : processing = none := houtput rfl
    exact ⟨hframes, houtputs, fun _ => rfl, fun _ => rfl, fun _ => ⟨rfl, rfl⟩⟩
  | some output =>
    have hreleased : Balanced (List.range obtained ++ surplus) frames
        (processing.toList ++ released) :=
      balanced_return_append_iff.mpr hframes
    have hfreed : Balanced (List.range allocated ++ []) outputs (output :: freed) :=
      balanced_return_iff.mpr houtputs
    have hdone {outputs freed : List ℕ} (h : Balanced (List.range allocated ++ []) outputs freed) :
        Inv config ⟨running, none, none, obtained, processing.toList ++ released, allocated, freed,
          frames, outputs⟩ surplus :=
      ⟨hreleased, h, fun _ => rfl, fun _ => rfl, fun _ => ⟨rfl, rfl⟩⟩
    simp only [yuvDisplayRotationComplete]
    cases processing with
    | none | some =>
      split
      · split
        · exact hdone houtputs
        · exact hdone hfreed
      · exact hdone hfreed

theorem rotationComplete_running {srcFrame : Option ℕ} :
    (yuvDisplayRotationComplete config answers s srcFrame).taskRunning = s.taskRunning := by
  unfold yuvDisplayRotationComplete
  cases s.rotateOutputFrame with
  | none => rfl
  | some output =>
    cases srcFrame with
    | none | some =>
      simp only
      split
      · split
        · rfl
        · rfl
      · rfl

/-- An output buffer is allocated, and that there is none after that is a failure. -/
theorem allocateOutput_spec (answers : YuvDisplayAnswers)
    (h : Balanced (List.range s.allocated ++ []) (s.rotateOutputFrame.toList ++ s.shownOutputs)
      s.freed) :
    ∃ output allocated,
      (allocateOutput answers s).1 =
        { s with rotateOutputFrame := output, allocated := allocated } ∧
      Balanced (List.range allocated ++ []) (output.toList ++ s.shownOutputs) s.freed ∧
      ((allocateOutput answers s).2 = true → output ≠ none) := by
  obtain ⟨running, processing, output, obtained, released, allocated, freed, frames, outputs⟩ := s
  cases output with
  | some output => exact ⟨some output, allocated, rfl, h, fun _ => Option.some_ne_none output⟩
  | none =>
    simp only [allocateOutput]
    split
    · exact ⟨some allocated, allocated + 1, rfl, balanced_range_succ_iff.mpr h,
        fun _ => Option.some_ne_none allocated⟩
    · exact ⟨none, allocated, rfl, h, fun hfalse => absurd hfalse Bool.false_ne_true⟩

/-- A frame is obtained. -/
theorem balanced_obtained (h : Inv config s surplus) (hprocessing : s.processingFrame = none) :
    Balanced (List.range (s.obtained + 1) ++ surplus) (s.obtained :: s.shownFrames)
      s.released := by
  have hframes := h.frames
  rw [hprocessing] at hframes
  exact balanced_range_succ_iff.mpr hframes

/-- **A frame is rotated by the hardware**, or released once. -/
theorem getFrame_hardware (h : Inv config s surplus) (hrunning : s.taskRunning = true)
    (hprocessing : s.processingFrame = none) (hget : answers.getFrame = true)
    (hhardware : config.hardwareRotation = true) :
    Inv config (yuvDisplayGetFrame config answers s) surplus := by
  have hexited : s.taskRunning = false → False := fun hexited =>
    Bool.noConfusion (hrunning.symm.trans hexited)
  have hobtained := balanced_obtained h hprocessing
  obtain ⟨output, allocated, heq, houtputs, hsome⟩ :=
    allocateOutput_spec answers (s := { s with
      obtained := s.obtained + 1, processingFrame := some s.obtained }) h.outputs
  simp only [yuvDisplayGetFrame, hprocessing, hget, yuvDisplayProcessFrame, hhardware, if_true, heq,
    Bool.true_eq_false, if_false]
  split
  case isTrue hfails =>
    -- a buffer is kept for the next frame
    exact ⟨balanced_return_iff.mpr hobtained, houtputs, fun _ => rfl, fun _ => rfl,
      fun h => (hexited h).elim⟩
  case isFalse hrotates =>
    rw [Bool.not_eq_false, Bool.and_eq_true, Bool.and_eq_true] at hrotates
    exact ⟨hobtained, houtputs, fun hnone => absurd hnone (hsome hrotates.1.1),
      fun hdirect => absurd (hhardware.symm.trans hdirect) Bool.noConfusion,
      fun h => (hexited h).elim⟩

/-- **A frame is shown as it is**, and released twice if the display refuses it. -/
theorem getFrame_direct (h : Inv config s surplus) (hrunning : s.taskRunning = true)
    (hprocessing : s.processingFrame = none) (hget : answers.getFrame = true)
    (hhardware : config.hardwareRotation = false) :
    ∃ extra, Inv config (yuvDisplayGetFrame config answers s) (extra ++ surplus) ∧
      (extra = [] ↔ (config.displayHandle = true → answers.flushFrame = true)) := by
  have hexited : s.taskRunning = false → False := fun hexited =>
    Bool.noConfusion (hrunning.symm.trans hexited)
  have hobtained := balanced_obtained h hprocessing
  have hdone {extra frames released : List ℕ}
      (hframes : Balanced (List.range (s.obtained + 1) ++ (extra ++ surplus)) frames released) :
      Inv config ⟨s.taskRunning, none, s.rotateOutputFrame, s.obtained + 1, released, s.allocated,
        s.freed, frames, s.shownOutputs⟩ (extra ++ surplus) :=
    ⟨hframes, h.outputs, fun _ => rfl, fun _ => rfl, fun h => (hexited h).elim⟩
  simp only [yuvDisplayGetFrame, hprocessing, hget, yuvDisplayProcessFrame, hhardware, if_true,
    Bool.false_eq_true, if_false]
  cases hdisplay : config.displayHandle with
  | false =>
    exact ⟨[], hdone (balanced_return_iff.mpr hobtained), iff_of_true rfl Bool.noConfusion⟩
  | true =>
    cases hflush : answers.flushFrame with
    | true => exact ⟨[], hdone hobtained, iff_of_true rfl fun _ => rfl⟩
    | false =>
      have htwice : Balanced (List.range (s.obtained + 1) ++ ([s.obtained] ++ surplus))
          s.shownFrames (s.obtained :: s.obtained :: s.released) :=
        balanced_surplus_iff.mpr (balanced_return_iff.mpr hobtained)
      exact ⟨[s.obtained], hdone htwice,
        iff_of_false (List.cons_ne_nil _ _) fun h => Bool.false_ne_true (h rfl)⟩

/-- **The second half of an iteration.** -/
theorem getFrame_inv (h : Inv config s surplus) (hrunning : s.taskRunning = true) :
    ∃ extra, Inv config (yuvDisplayGetFrame config answers s) (extra ++ surplus) ∧
      (extra = [] ↔ (answers.getFrame = true → config.hardwareRotation = false →
        config.displayHandle = true → answers.flushFrame = true)) := by
  cases hprocessing : s.processingFrame with
  | some frame =>
    have hrotates : config.hardwareRotation ≠ false := fun hdirect =>
      absurd (hprocessing.symm.trans (h.direct hdirect)) (Option.some_ne_none frame)
    refine ⟨[], ?_, iff_of_true rfl fun _ hdirect => absurd hdirect hrotates⟩
    rwa [yuvDisplayGetFrame, hprocessing]
  | none =>
    cases hget : answers.getFrame with
    | false =>
      refine ⟨[], ?_, iff_of_true rfl fun hget => absurd hget Bool.false_ne_true⟩
      simpa [yuvDisplayGetFrame, hprocessing, hget] using h
    | true =>
      cases hhardware : config.hardwareRotation with
      | true =>
        exact ⟨[], getFrame_hardware h hrunning hprocessing hget hhardware,
          iff_of_true rfl fun _ hdirect => Bool.noConfusion hdirect⟩
      | false =>
        obtain ⟨extra, hinv, hextra⟩ := getFrame_direct h hrunning hprocessing hget hhardware
        exact ⟨extra, hinv, by simpa using hextra⟩

/-- **The end of the task**: what is being processed is released, and the buffer is freed. -/
theorem exit_inv (h : Inv config s surplus) : Inv config (yuvDisplayExit s) surplus := by
  obtain ⟨hframes, houtputs, -, -, -⟩ := h
  obtain ⟨running, processing, output, obtained, released, allocated, freed, frames, outputs⟩ := s
  have hreleased : Balanced (List.range obtained ++ surplus) frames
      (processing.toList ++ released) :=
    balanced_return_append_iff.mpr hframes
  have hfreed : Balanced (List.range allocated ++ []) outputs (output.toList ++ freed) :=
    balanced_return_append_iff.mpr houtputs
  cases processing with
  | none | some =>
    cases output with
    | none | some =>
      exact ⟨hreleased, hfreed, fun _ => rfl, fun _ => rfl, fun _ => ⟨rfl, rfl⟩⟩

/-! ## One step -/

/-- **An iteration of the task.** -/
theorem iteration_inv (h : Inv config s surplus) (hrunning : s.taskRunning = true) :
    ∃ extra, Inv config (yuvDisplayIteration config answers s) (extra ++ surplus) ∧
      (extra = [] ↔ (answers.msg ≠ some .stop → answers.getFrame = true →
        config.hardwareRotation = false → config.displayHandle = true →
          answers.flushFrame = true)) := by
  by_cases hstop : answers.msg = some .stop
  · refine ⟨[], ?_, iff_of_true rfl fun hne => absurd hstop hne⟩
    simp only [yuvDisplayIteration, hstop]
    exact exit_inv h
  · rw [imp_iff_right hstop]
    unfold yuvDisplayIteration
    split
    case h_1 h => exact absurd h hstop
    case h_2 =>
      refine getFrame_inv (rotationComplete_inv h hrunning) ?_
      rw [← hrunning]
      exact rotationComplete_running
    case h_3 => exact getFrame_inv h hrunning
    case h_4 => exact getFrame_inv h hrunning

/-- **One step** leaves something over if and only if the display refuses a frame. -/
theorem next_inv (h : Inv config s surplus) (a : YuvDisplayAction) :
    ∃ extra, Inv config (s.next config a) (extra ++ surplus) ∧
      (extra = [] ↔ NoFlushFails config s a) := by
  cases a with
  | iteration answers =>
    simp only [YuvDisplay.next, NoFlushFails]
    split
    case isTrue hrunning =>
      rw [imp_iff_right hrunning]
      exact iteration_inv h hrunning
    case isFalse hexited => exact ⟨[], h, iff_of_true rfl fun hrunning => absurd hrunning hexited⟩
  | frameShown i =>
    refine ⟨[], ?_, iff_of_true rfl trivial⟩
    simp only [YuvDisplay.next]
    cases hframe : s.shownFrames[i]? with
    | none => exact h
    | some frame =>
      exact ⟨h.frames.eraseIdx hframe, h.outputs, h.output, h.direct, h.exited⟩
  | outputShown i =>
    refine ⟨[], ?_, iff_of_true rfl trivial⟩
    simp only [YuvDisplay.next]
    cases houtput : s.shownOutputs[i]? with
    | none => exact h
    | some output =>
      exact ⟨h.frames, h.outputs.eraseIdx houtput, h.output, h.direct, h.exited⟩

end Parts

/-! ## Every run -/

/-- **A run** leaves nothing over if and only if no step of it does. -/
theorem run_inv {config : YuvDisplayConfig} (actions : List YuvDisplayAction) :
    ∀ {s surplus}, Inv config s surplus →
      ∃ extra, Inv config (actions.foldl (YuvDisplay.next config) s) (extra ++ surplus) ∧
        (extra = [] ↔ Along (YuvDisplay.next config) (NoFlushFails config) s actions) := by
  induction actions with
  | nil => exact fun h => ⟨[], h, iff_of_true rfl trivial⟩
  | cons a rest ih =>
    intro s surplus h
    obtain ⟨first, hfirst, hfirst_iff⟩ := next_inv h a
    obtain ⟨others, hothers, hothers_iff⟩ := ih hfirst
    refine ⟨others ++ first, by rwa [List.append_assoc], ?_⟩
    rw [List.append_eq_nil_iff, hothers_iff, hfirst_iff]
    exact and_comm

/-- What is left when the task has exited and all callbacks have run. -/
theorem exactlyOnce_of_inv {config : YuvDisplayConfig} {s : YuvDisplay} {surplus : List ℕ}
    (h : Inv config s surplus) (hfin : s.Finished) : s.ExactlyOnce ↔ surplus = [] := by
  obtain ⟨hrunning, hframes, houtputs⟩ := hfin
  obtain ⟨hprocessing, houtput⟩ := h.exited hrunning
  have hreleased := h.frames
  rw [hprocessing, hframes] at hreleased
  have hfreed := h.outputs
  rw [houtput, houtputs] at hfreed
  exact (and_iff_left (hfreed.perm_iff_of_surplus.mpr rfl)).trans hreleased.perm_iff_of_surplus

/-- **Every finished run** has released every frame and freed every buffer exactly once if and only
if no frame that was to be shown as it is was refused by the display. -/
theorem exactlyOnce_iff (config : YuvDisplayConfig) (actions : List YuvDisplayAction)
    (hfin : (actions.foldl (YuvDisplay.next config) .start).Finished) :
    (actions.foldl (YuvDisplay.next config) .start).ExactlyOnce ↔
      Along (YuvDisplay.next config) (NoFlushFails config) .start actions := by
  obtain ⟨extra, hinv, hextra⟩ := run_inv actions (Inv.start config)
  rw [List.append_nil] at hinv
  exact (exactlyOnce_of_inv hinv hfin).trans hextra

/-- A frame is rotated, shown, and called back for, and the task is stopped. -/
def rotatedRun : List YuvDisplayAction :=
  [.iteration ⟨none, true, true, true, true, true, true⟩,
    .iteration ⟨some .frameReady, false, true, true, true, true, true⟩, .outputShown 0,
    .iteration ⟨some .stop, false, true, true, true, true, true⟩]

theorem exactlyOnce_iff_rotated :
    (rotatedRun.foldl (YuvDisplay.next ⟨90, true⟩) .start).Finished ∧
      ((rotatedRun.foldl (YuvDisplay.next ⟨90, true⟩) .start).ExactlyOnce ↔
        Along (YuvDisplay.next ⟨90, true⟩) (NoFlushFails ⟨90, true⟩) .start rotatedRun) :=
  ⟨by decide, exactlyOnce_iff ⟨90, true⟩ rotatedRun (by decide)⟩

/-- **A frame is released twice** when it is not rotated and the display refuses it. -/
theorem not_exactlyOnce_refused :
    ¬∀ (config : YuvDisplayConfig) (actions : List YuvDisplayAction),
      (actions.foldl (YuvDisplay.next config) .start).Finished →
        (actions.foldl (YuvDisplay.next config) .start).ExactlyOnce := by
  intro h
  have htwice := h ⟨0, true⟩
    [.iteration ⟨none, true, true, true, true, true, false⟩,
      .iteration ⟨some .stop, true, true, true, true, true, true⟩] (by decide)
  exact absurd htwice (by decide)

end Display

end YangIpc
