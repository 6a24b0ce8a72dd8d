import YangIpc.Cs2.Write
import YangIpc.Transmission.Packet

/-!
# The drop strategy

When the buffer of the image channel fills up, `yangipc_cs2_service.c` drops frames: the drop level
says how many of the frames between two I frames are left out, and follows the bytes that wait, or
their average.  The constants of the library and the answers of its calls are arguments; divisions
and unsigned subtractions are checked.

## Main definitions

* `H264DropInfo`, `DropState`: the state
* `yangipcCs2H264DownDropLevel`, `yangipcCs2ImgH264DropLevelCheck`, `yangipcCs2ImgH264DropCheck`:
  the functions
* `H264DropInfo.Bounded`: the invariant

## Main results

* `dropCheck_spec`: one frame
* `drop_strategy_safe`: every sequence of frames
-/

namespace YangIpc

namespace Cs2

open Transmission (headSizeTotal)

/-! ## Checked arithmetic -/

/-- What goes wrong in a computation with unsigned numbers. -/
inductive ArithmeticFault
  | divideByZero
  | underflow
deriving DecidableEq, Repr

/-- A difference of unsigned numbers. -/
def checkedSub (a b : ℕ) : Except ArithmeticFault ℕ :=
  if b ≤ a then .ok (a - b) else .error .underflow

/-- A quotient. -/
def checkedDiv (a b : ℕ) : Except ArithmeticFault ℕ :=
  if b = 0 then .error .divideByZero else .ok (a / b)

theorem checkedSub_of_le {a b : ℕ} (h : b ≤ a) : checkedSub a b = .ok (a - b) := if_pos h

theorem checkedDiv_of_ne_zero {a b : ℕ} (h : b ≠ 0) : checkedDiv a b = .ok (a / b) := if_neg h

/-! ## The state -/

/-- `MEDIA_H264_MAX_DROP_LEVEL`. -/
def mediaH264MaxDropLevel : ℕ := 6

/-- `MEDIA_H264_I_FRAME_MAX_NUM`. -/
def mediaH264IFrameMaxNum : ℕ := 2

/-- `MEDIA_H264_START_DROP_THD`. -/
def mediaH264StartDropThd (thd : ℕ) : ℕ := cs2ImgMaxTxBufferThd thd / 2

/-- `MEDIA_H264_DROP_LEVEL_INTERVAL`. -/
def mediaH264DropLevelInterval (thd : ℕ) : ℕ := cs2ImgMaxTxBufferThd thd / 2 / 7

/-- `yangipc_cs2_h264_drop_info_t`. -/
structure H264DropInfo where
  iNum : UInt8
  pNum : UInt8
  dropLevel : UInt8
  dropPeriod : UInt8
  statusTotalSize : UInt32
  statusCnt : UInt32
  checkType : Bool
  supportType : Bool
  iFrameDroped : Bool
deriving DecidableEq, Repr

/-- `s_h264_drop_info`, and `drop_other_gop_frame`, which is kept between the calls. -/
structure DropState where
  info : H264DropInfo
  dropOtherGopFrame : Bool
deriving DecidableEq, Repr

/-- The initial state. -/
def DropState.start : DropState := ⟨⟨0, 0, 0, 0, 0, 0, false, false, false⟩, false⟩

/-- The statistics are cleared. -/
def H264DropInfo.clearStatus (info : H264DropInfo) : H264DropInfo :=
  { info with dropPeriod := 0, statusTotalSize := 0, statusCnt := 0 }

/-! ## The functions -/

section Functions

variable (thd : ℕ)

/-- `yangipc_cs2_img_h264_record_map`. -/
def yangipcCs2ImgH264RecordMap (info : H264DropInfo) (isIFrame : Bool) : H264DropInfo :=
  let info := if isIFrame && info.dropLevel ≠ 0 then
    { info with dropPeriod := info.dropPeriod + 1 } else info
  let info := if isIFrame && mediaH264IFrameMaxNum ≤ info.iNum.toNat then
    { info with iNum := 0 } else info
  if isIFrame then { info with iNum := info.iNum + 1, pNum := 0 }
  else { info with pNum := info.pNum + 1 }

/-- The level of a number of bytes, as both functions below compute it; it is far from the bounds
of their integers. -/
def dropLevelOf (size : ℕ) : Except ArithmeticFault ℕ := do
  let excess ← checkedSub size (mediaH264StartDropThd thd)
  let intervals ← checkedDiv excess (mediaH264DropLevelInterval thd)
  if mediaH264MaxDropLevel ≤ intervals + 1 then return mediaH264MaxDropLevel - 1
  else return intervals + 1

/-- `yangipc_cs2_h264_down_drop_level`. -/
def yangipcCs2H264DownDropLevel (info : H264DropInfo) (curDropLevel : ℕ)
    (recovery isIFrame : Bool) : Except ArithmeticFault H264DropInfo :=
  if info.dropPeriod ≤ 10 || !isIFrame || info.statusCnt = 0 then return info
  else do
    let statusAvgSize ←
      checkedDiv (info.statusTotalSize * 1024).toNat info.statusCnt.toNat
    if statusAvgSize < mediaH264StartDropThd thd then
      return { info with
        dropLevel := if recovery then 0 else UInt8.ofNat curDropLevel }.clearStatus
    else do
      let avgDropLevel ← dropLevelOf thd statusAvgSize
      return { info with
        dropLevel := UInt8.ofNat
          (if curDropLevel < avgDropLevel then avgDropLevel else curDropLevel) }.clearStatus

/-- The statistics of a frame, before the level is computed. -/
def H264DropInfo.count (info : H264DropInfo) (writeSize : UInt32) : H264DropInfo :=
  let info := if 30 < info.dropPeriod then info.clearStatus else info
  if info.dropPeriod ≠ 0 then
    { info with
      statusTotalSize := info.statusTotalSize + writeSize / 1024
      statusCnt := info.statusCnt + 1 }
  else info

/-- The new level, when `curSize` bytes wait. -/
def H264DropInfo.level (info : H264DropInfo) (curSize : ℕ) (isIFrame : Bool) :
    Except ArithmeticFault H264DropInfo :=
  if mediaH264StartDropThd thd < curSize then do
    let curDropLevel ← dropLevelOf thd curSize
    if curDropLevel < info.dropLevel.toNat then
      yangipcCs2H264DownDropLevel thd info curDropLevel false isIFrame
    else return { info with dropLevel := UInt8.ofNat curDropLevel }
  else yangipcCs2H264DownDropLevel thd info info.dropLevel.toNat true isIFrame

/-- A period begins. -/
def H264DropInfo.beginPeriod (info : H264DropInfo) : H264DropInfo :=
  if info.dropLevel ≠ 0 && info.dropPeriod = 0 then
    { info with dropPeriod := info.dropPeriod + 1 } else info

/-- Whether the frame is dropped, at the level that was found. -/
def H264DropInfo.dropFrame (info : H264DropInfo) (isIFrame : Bool) : H264DropInfo × Bool :=
  if isIFrame then
    if mediaH264MaxDropLevel ≤ info.dropLevel.toNat && info.iNum.toNat = mediaH264IFrameMaxNum then
      ({ info with iFrameDroped := true }, true)
    else ({ info with iFrameDroped := false }, false)
  else (info, (mediaH264MaxDropLevel : ℤ) - info.dropLevel.toNat ≤ info.pNum.toNat)

/-- `yangipc_cs2_img_h264_drop_level_check`. -/
def yangipcCs2ImgH264DropLevelCheck (info : H264DropInfo) (preSize writeSize : UInt32)
    (isIFrame : Bool) : Except ArithmeticFault (H264DropInfo × Bool) :=
  let curSize := (preSize + writeSize).toNat
  if info.dropLevel = 0 && !decide (mediaH264StartDropThd thd < curSize) then return (info, false)
  else do
    let info ← (info.count writeSize).level thd curSize isIFrame
    return info.beginPeriod.dropFrame isIFrame

/-- `frame_buffer_t`, as far as it is read. -/
structure FrameBuffer where
  h264Type : UInt32
  length : UInt32
deriving DecidableEq, Repr

/-- A call of `yangipc_cs2_img_h264_drop_check`: its arguments, the configuration of the encoder,
of which the number of P frames is read, the session id, and the answers of
`PPCS_Check_Buffer`. -/
structure DropInput where
  frame : Option FrameBuffer
  count : UInt32
  extSize : UInt16
  mediaConfig : Option UInt32
  sessionId : Int32
  checkRet : Int32
  writeSize : UInt32
deriving DecidableEq, Repr

/-- The flag of an I frame is set; `H264_NAL_I_FRAME` is a constant of the library. -/
def FrameBuffer.isIFrame (nalIFrame : UInt32) (frame : FrameBuffer) : Bool :=
  frame.h264Type &&& (1 <<< nalIFrame) ≠ 0

/-- The type of the encoder is looked at until it is known. -/
def H264DropInfo.checked (info : H264DropInfo) (mediaConfig : Option UInt32) : H264DropInfo :=
  if info.checkType then info
  else
    match mediaConfig with
    | some pFrameCnt => { info with checkType := true, supportType := pFrameCnt = 5 }
    | none => info

/-- Whether the rest of a group is still dropped: not when few bytes wait. -/
def H264DropInfo.dropOther (info : H264DropInfo) (dropOther : Bool) (writeSize : UInt32) : Bool :=
  if !info.iFrameDroped && dropOther && writeSize.toNat < mediaH264StartDropThd thd / 2 then false
  else dropOther

/-- `yangipc_cs2_img_h264_drop_check`. -/
def yangipcCs2ImgH264DropCheck (nalIFrame : UInt32) (s : DropState) (input : DropInput) :
    Except ArithmeticFault (DropState × Bool) :=
  let info := s.info.checked input.mediaConfig
  match input.frame with
  | none => return (⟨info, s.dropOtherGopFrame⟩, false)
  | some frame =>
    if info.supportType = false then return (⟨info, s.dropOtherGopFrame⟩, false)
    else
      let isNalIFrame := frame.isIFrame nalIFrame
      let dropOther := !isNalIFrame && s.dropOtherGopFrame
      if input.sessionId < 0 then return (⟨info, false⟩, false)
      else
        let info := yangipcCs2ImgH264RecordMap info isNalIFrame
        if input.checkRet < 0 then return (⟨info, false⟩, false)
        else
          let dropOther := info.dropOther thd dropOther input.writeSize
          if dropOther then return (⟨info, dropOther⟩, true)
          else do
            let preSize := frame.length +
              input.count * (input.extSize.toUInt32 + UInt32.ofNat headSizeTotal)
            let r ← yangipcCs2ImgH264DropLevelCheck thd info preSize input.writeSize isNalIFrame
            return (⟨r.1, r.2⟩, r.2)

/-- The state after a sequence of calls. -/
def runDropChecks (nalIFrame : UInt32) (s : DropState) (inputs : List DropInput) :
    Except ArithmeticFault DropState :=
  inputs.foldlM (fun s input => do
    let r ← yangipcCs2ImgH264DropCheck thd nalIFrame s input
    return r.1) s

end Functions

/-! ## The invariant -/

/-- The level is below the maximum, and so is the number of I frames. -/
structure H264DropInfo.Bounded (info : H264DropInfo) : Prop where
  dropLevel : info.dropLevel.toNat ≤ mediaH264MaxDropLevel - 1
  iNum : info.iNum.toNat ≤ mediaH264IFrameMaxNum

section Invariant

variable {thd : ℕ} {info : H264DropInfo}

theorem H264DropInfo.Bounded.congr {info' : H264DropInfo} (h : info.Bounded)
    (hlevel : info'.dropLevel = info.dropLevel) (hnum : info'.iNum = info.iNum) : info'.Bounded :=
  ⟨by rw [hlevel]; exact h.dropLevel, by rw [hnum]; exact h.iNum⟩

theorem checked_bounded (h : info.Bounded) (mediaConfig : Option UInt32) :
    (info.checked mediaConfig).Bounded := by
  unfold H264DropInfo.checked
  split
  · exact h
  · cases mediaConfig with
    | none => exact h
    | some pFrameCnt => exact h.congr rfl rfl

/-- The map of an I frame. -/
theorem recordMap_iFrame (info : H264DropInfo) :
    (yangipcCs2ImgH264RecordMap info true).dropLevel = info.dropLevel ∧
      (yangipcCs2ImgH264RecordMap info true).iNum =
        (if mediaH264IFrameMaxNum ≤ info.iNum.toNat then 0 else info.iNum) + 1 := by
  unfold yangipcCs2ImgH264RecordMap
  by_cases hlevel : info.dropLevel = 0 <;> by_cases hnum : mediaH264IFrameMaxNum ≤ info.iNum.toNat
  all_goals simp [hlevel, hnum]

/-- The number of I frames starts again before it passes the maximum. -/
theorem recordMap_bounded (h : info.Bounded) (isIFrame : Bool) :
    (yangipcCs2ImgH264RecordMap info isIFrame).Bounded := by
  cases isIFrame with
  | false => exact h.congr rfl rfl
  | true =>
    obtain ⟨hlevel, hnum⟩ := recordMap_iFrame info
    refine ⟨by rw [hlevel]; exact h.dropLevel, ?_⟩
    rw [hnum]
    split
    case isTrue => decide
    case isFalse hlow =>
      unfold mediaH264IFrameMaxNum at hlow ⊢
      rw [UInt8.toNat_add]
      change (info.iNum.toNat + 1) % 256 ≤ 2
      omega

/-- **The level** of a number of bytes that is large enough is between one and five. -/
theorem dropLevelOf_spec (hthd : 1024 ≤ thd) {size : ℕ} (h : mediaH264StartDropThd thd ≤ size) :
    ∃ level, dropLevelOf thd size = .ok level ∧ level ≤ mediaH264MaxDropLevel - 1 := by
  have hinterval : mediaH264DropLevelInterval thd ≠ 0 := by
    unfold mediaH264DropLevelInterval cs2ImgMaxTxBufferThd
    omega
  simp only [dropLevelOf, checkedSub_of_le h, checkedDiv_of_ne_zero hinterval, bind, Except.bind,
    pure, Except.pure]
  split
  case isTrue => exact ⟨_, rfl, le_rfl⟩
  case isFalse hlow => exact ⟨_, rfl, by omega⟩

theorem toNat_ofNat_level {level : ℕ} (h : level ≤ mediaH264MaxDropLevel - 1) :
    (UInt8.ofNat level).toNat = level := by
  unfold mediaH264MaxDropLevel at h
  rw [UInt8.toNat_ofNat']
  omega

/-- A lower level is taken over, or a higher average, but nothing above the maximum. -/
theorem downDropLevel_spec (hthd : 1024 ≤ thd) (h : info.Bounded) {curDropLevel : ℕ}
    (hcur : curDropLevel ≤ mediaH264MaxDropLevel - 1) (recovery isIFrame : Bool) :
    ∃ info', yangipcCs2H264DownDropLevel thd info curDropLevel recovery isIFrame = .ok info' ∧
      info'.Bounded := by
  unfold yangipcCs2H264DownDropLevel
  split
  case isTrue => exact ⟨info, rfl, h⟩
  case isFalse hgo =>
    have hcnt : info.statusCnt.toNat ≠ 0 := by
      intro hzero
      have hcnt : info.statusCnt = 0 := UInt32.toNat_inj.mp hzero
      exact hgo (by simp [hcnt])
    simp only [checkedDiv_of_ne_zero hcnt, bind, Except.bind]
    split
    case isTrue =>
      refine ⟨_, rfl, ?_, h.iNum⟩
      cases recovery with
      | false => exact (toNat_ofNat_level hcur).trans_le hcur
      | true => exact Nat.zero_le _
    case isFalse hhigh =>
      obtain ⟨level, hlevel, hle⟩ := dropLevelOf_spec hthd (Nat.not_lt.mp hhigh)
      simp only [hlevel]
      refine ⟨_, rfl, ?_, h.iNum⟩
      have hmax : (if curDropLevel < level then level else curDropLevel) ≤
          mediaH264MaxDropLevel - 1 := by
        split
        · exact hle
        · exact hcur
      exact (toNat_ofNat_level hmax).trans_le hmax

theorem count_bounded (h : info.Bounded) (writeSize : UInt32) :
    (info.count writeSize).Bounded := by
  simp only [H264DropInfo.count, H264DropInfo.clearStatus]
  apply h.congr
  · split <;> split <;> rfl
  · split <;> split <;> rfl

theorem beginPeriod_bounded (h : info.Bounded) : info.beginPeriod.Bounded := by
  unfold H264DropInfo.beginPeriod
  split
  · exact h.congr rfl rfl
  · exact h

theorem level_spec (hthd : 1024 ≤ thd) (h : info.Bounded) (curSize : ℕ) (isIFrame : Bool) :
    ∃ info', info.level thd curSize isIFrame = .ok info' ∧ info'.Bounded := by
  unfold H264DropInfo.level
  split
  case isTrue hneed =>
    obtain ⟨level, hlevel, hle⟩ := dropLevelOf_spec hthd hneed.le
    simp only [hlevel, bind, Except.bind]
    split
    case isTrue => exact downDropLevel_spec hthd h hle false isIFrame
    case isFalse => exact ⟨_, rfl, (toNat_ofNat_level hle).trans_le hle, h.iNum⟩
  case isFalse => exact downDropLevel_spec hthd h h.dropLevel true isIFrame

/-- An I frame is not dropped below the maximal level. -/
theorem dropFrame_spec (h : info.Bounded) (isIFrame : Bool) :
    (info.dropFrame isIFrame).1.Bounded ∧
      (isIFrame = true → (info.dropFrame isIFrame).2 = false) := by
  have hlow : ¬mediaH264MaxDropLevel ≤ info.dropLevel.toNat := by
    have hlevel := h.dropLevel
    unfold mediaH264MaxDropLevel at hlevel ⊢
    omega
  cases isIFrame with
  | false => exact ⟨h, fun hI => absurd hI Bool.false_ne_true⟩
  | true =>
    rw [H264DropInfo.dropFrame, if_pos rfl, if_neg (by simp [hlow])]
    exact ⟨h.congr rfl rfl, fun _ => rfl⟩

/-- **The level check** of a frame. -/
theorem dropLevelCheck_spec (hthd : 1024 ≤ thd) (h : info.Bounded) (preSize writeSize : UInt32)
    (isIFrame : Bool) :
    ∃ info' drop, yangipcCs2ImgH264DropLevelCheck thd info preSize writeSize isIFrame =
      .ok (info', drop) ∧ info'.Bounded ∧ (isIFrame = true → drop = false) := by
  unfold yangipcCs2ImgH264DropLevelCheck
  simp only
  split
  case isTrue => exact ⟨info, false, rfl, h, fun _ => rfl⟩
  case isFalse =>
    obtain ⟨info', hlevel, hbounded⟩ :=
      level_spec hthd (count_bounded h writeSize) (preSize + writeSize).toNat isIFrame
    obtain ⟨hnext, hkeep⟩ := dropFrame_spec (beginPeriod_bounded hbounded) isIFrame
    simp only [hlevel, bind, Except.bind]
    exact ⟨_, _, rfl, hnext, hkeep⟩

/-! ## Every sequence of frames -/

variable {s : DropState}

/-- The frame of the call is an I frame. -/
def DropInput.IsIFrame (nalIFrame : UInt32) (input : DropInput) : Prop :=
  ∃ frame, input.frame = some frame ∧ frame.isIFrame nalIFrame = true

theorem dropOther_false (info : H264DropInfo) (writeSize : UInt32) :
    info.dropOther thd false writeSize = false := by
  unfold H264DropInfo.dropOther
  split <;> rfl

/-- **One call** keeps the bounds and does not drop an I frame. -/
theorem dropCheck_spec (hthd : 1024 ≤ thd) (nalIFrame : UInt32) (h : s.info.Bounded)
    (input : DropInput) :
    ∃ s' drop, yangipcCs2ImgH264DropCheck thd nalIFrame s input = .ok (s', drop) ∧
      s'.info.Bounded ∧ (input.IsIFrame nalIFrame → drop = false) := by
  have hchecked := checked_bounded h input.mediaConfig
  unfold yangipcCs2ImgH264DropCheck
  simp only
  cases hframe : input.frame with
  | none => exact ⟨_, false, rfl, hchecked, fun _ => rfl⟩
  | some frame =>
    simp only
    split
    case isTrue => exact ⟨_, false, rfl, hchecked, fun _ => rfl⟩
    split
    case isTrue => exact ⟨_, false, rfl, hchecked, fun _ => rfl⟩
    have hmap := recordMap_bounded hchecked (frame.isIFrame nalIFrame)
    have hframe_iff : input.IsIFrame nalIFrame ↔ frame.isIFrame nalIFrame = true := by
      simp [DropInput.IsIFrame, hframe]
    split
    case isTrue => exact ⟨_, false, rfl, hmap, fun _ => rfl⟩
    split
    case isTrue hother =>
      refine ⟨⟨_, _⟩, true, rfl, hmap, fun hI => ?_⟩
      -- an I frame ends the group before it
      rw [hframe_iff.mp hI, Bool.not_true, Bool.false_and, dropOther_false] at hother
      exact absurd hother Bool.false_ne_true
    case isFalse =>
      obtain ⟨info', drop, hlevel, hbounded, hkeep⟩ := dropLevelCheck_spec hthd hmap
        (frame.length + input.count * (input.extSize.toUInt32 + UInt32.ofNat headSizeTotal))
        input.writeSize (frame.isIFrame nalIFrame)
      simp only [hlevel, bind, Except.bind]
      exact ⟨⟨_, _⟩, drop, rfl, hbounded, fun hI => hkeep (hframe_iff.mp hI)⟩

/-- A sequence of calls from a bounded state. -/
theorem runDropChecks_spec (hthd : 1024 ≤ thd) (nalIFrame : UInt32) (h : s.info.Bounded)
    (inputs : List DropInput) :
    ∃ s', runDropChecks thd nalIFrame s inputs = .ok s' ∧ s'.info.Bounded := by
  induction inputs generalizing s with
  | nil => exact ⟨s, rfl, h⟩
  | cons input rest ih =>
    obtain ⟨s₁, drop, hcheck, hbounded, -⟩ := dropCheck_spec hthd nalIFrame h input
    obtain ⟨s', hrest, hbounded'⟩ := ih hbounded
    refine ⟨s', ?_, hbounded'⟩
    rw [runDropChecks, List.foldlM_cons, hcheck]
    exact hrest

/-- **The drop strategy** neither fails nor drops an I frame, and stays within its bounds, in
every state that a sequence of calls leads to. -/
theorem drop_strategy_safe (thd : ℕ) (hthd : 1024 ≤ thd) (nalIFrame : UInt32)
    (inputs : List DropInput) :
    ∃ s, runDropChecks thd nalIFrame .start inputs = .ok s ∧ s.info.Bounded ∧
      ∀ input, ∃ s' drop, yangipcCs2ImgH264DropCheck thd nalIFrame s input = .ok (s', drop) ∧
        (input.IsIFrame nalIFrame → drop = false) := by
  have hstart : DropState.start.info.Bounded := ⟨by decide, by decide⟩
  obtain ⟨s, hrun, hbounded⟩ := runDropChecks_spec hthd nalIFrame hstart inputs
  refine ⟨s, hrun, hbounded, fun input => ?_⟩
  obtain ⟨s', drop, hcheck, -, hkeep⟩ := dropCheck_spec hthd nalIFrame hbounded input
  exact ⟨s', drop, hcheck, hkeep⟩

/-- A frame of `length` bytes, while `writeSize` bytes wait in the session. -/
def frameInput (isIFrame : Bool) (length writeSize : UInt32) : DropInput :=
  ⟨some ⟨if isIFrame then 16777216 else 0, length⟩, 4, 0, some 5, 1, 0, writeSize⟩

/-- Three groups of pictures, while the buffer fills up and empties. -/
def threeGroups : List DropInput :=
  [frameInput true 20000 1000, frameInput false 5000 40000, frameInput false 5000 150000,
    frameInput false 5000 200000, frameInput false 5000 240000, frameInput true 20000 250000,
    frameInput false 5000 150000, frameInput true 20000 0, frameInput false 5000 0]

/-- Buffers of 256 KiB: the level is at its maximum, P frames are dropped, and the number of I
frames has started again. -/
theorem drop_strategy_safe_once :
    ∃ s, runDropChecks 262144 24 .start threeGroups = .ok s ∧
      (s.info.dropLevel.toNat = mediaH264MaxDropLevel - 1 ∧ s.info.iNum = 1 ∧
        s.dropOtherGopFrame = true) ∧ s.info.Bounded ∧
      ∀ input, ∃ s' drop, yangipcCs2ImgH264DropCheck 262144 24 s input = .ok (s', drop) ∧
        (input.IsIFrame 24 → drop = false) := by
  obtain ⟨s, hrun, hbounded, hchecks⟩ := drop_strategy_safe 262144 (by decide) 24 threeGroups
  have hend : (runDropChecks 262144 24 .start threeGroups).toOption.any (fun s =>
      s.info.dropLevel.toNat = mediaH264MaxDropLevel - 1 ∧ s.info.iNum = 1 ∧
        s.dropOtherGopFrame = true) = true := by decide +kernel
  rw [hrun] at hend
  exact ⟨s, hrun, of_decide_eq_true hend, hbounded, hchecks⟩

end Invariant

end Cs2

end YangIpc
