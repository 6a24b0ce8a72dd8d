import Mathlib.Data.List.Basic

/-!
# The modes of a USB camera

A USB camera lists the frames it can send, each with the frame rates it has.  `uvc.c` looks for a
frame of the width and height that are asked for, in the list of the format, and takes another
rate if it does not have the one asked for.  The functions for the four formats are copies of one
another, of which the one for H265 looks at no frame at all.

## Main definitions

* `UvcFrame`, `FrameTable`, `AllFrame`: the lists of a camera
* `uvcCheckConfig`: the loop of the four functions
* `Negotiates`: what is promised of them

## Main results

* `scanFrames_eq`: the loop finds the first frame of the size
* `negotiates_iff`: which functions keep the promise
-/

namespace YangIpc

namespace Camera

/-! ## The functions -/

/-- A frame of the camera: its size, and the frame rates, of which there is at least one. -/
structure UvcFrame where
  width : UInt16
  height : UInt16
  fps : List UInt32
  fps_ne : fps ≠ []

/-- The frames of a format, and their number. -/
structure FrameTable where
  num : UInt8
  frames : List UvcFrame
  num_eq : num.toNat = frames.length

/-- `all_frame` of `bk_uvc_device_brief_info_t`. -/
structure AllFrame where
  mjpeg : FrameTable
  yuv : FrameTable
  h264 : FrameTable
  h265 : FrameTable

/-- `bk_cam_uvc_config_t`, as far as it is negotiated. -/
structure UvcConfig where
  width : UInt16
  height : UInt16
  fps : UInt32
deriving DecidableEq, Repr

/-- `avdk_err_t`. -/
inductive AvdkErr
  | ok
  | unsupported
deriving DecidableEq, Repr

/-- The frame has the size that is asked for. -/
def UvcFrame.fits (frame : UvcFrame) (config : UvcConfig) : Bool :=
  frame.width = config.width && frame.height = config.height

/-- The first frame rate of a frame. -/
def UvcFrame.firstFps (frame : UvcFrame) : UInt32 := frame.fps.head frame.fps_ne

/-- The loop over the frame rates, with `fps_flag`. -/
def scanFps (resolutionFlag : Bool) (fps : UInt32) : List UInt32 → Bool → Bool
  | [], fpsFlag => fpsFlag
  | f :: rest, fpsFlag =>
    scanFps resolutionFlag fps rest (if resolutionFlag && f = fps then true else fpsFlag)

/-- The loop over the frames: both flags and the configuration behind it. -/
def scanFrames : List UvcFrame → Bool → Bool → UvcConfig → Bool × Bool × UvcConfig
  | [], resolutionFlag, fpsFlag, config => (resolutionFlag, fpsFlag, config)
  | frame :: rest, resolutionFlag, fpsFlag, config =>
    let resolutionFlag := if frame.fits config then true else resolutionFlag
    let fpsFlag := scanFps resolutionFlag config.fps frame.fps fpsFlag
    if resolutionFlag then
      -- "have adapt this resolution"
      if fpsFlag = false then (resolutionFlag, true, { config with fps := frame.firstFps })
      else (resolutionFlag, fpsFlag, config)
    else scanFrames rest resolutionFlag fpsFlag config

/-- What the four functions have in common: they look at `frameNum` frames. -/
def uvcCheckConfig (frameNum : UInt8) (frames : List UvcFrame) (config : UvcConfig) :
    AvdkErr × UvcConfig :=
  let (resolutionFlag, fpsFlag, config) :=
    scanFrames (frames.take frameNum.toNat) false false config
  (if resolutionFlag && fpsFlag then .ok else .unsupported, config)

/-- `uvc_check_mjpeg_config`. -/
def uvcCheckMjpegConfig (param : AllFrame) : UvcConfig → AvdkErr × UvcConfig :=
  uvcCheckConfig param.mjpeg.num param.mjpeg.frames

/-- `uvc_check_yuv_config`. -/
def uvcCheckYuvConfig (param : AllFrame) : UvcConfig → AvdkErr × UvcConfig :=
  uvcCheckConfig param.yuv.num param.yuv.frames

/-- `uvc_check_h264_config`. -/
def uvcCheckH264Config (param : AllFrame) : UvcConfig → AvdkErr × UvcConfig :=
  uvcCheckConfig param.h264.num param.h264.frames

/-- `uvc_check_h265_config`: `frame_num` keeps its first value. -/
def uvcCheckH265Config (param : AllFrame) : UvcConfig → AvdkErr × UvcConfig :=
  uvcCheckConfig 0 param.h265.frames

/-- The formats, by their functions. -/
inductive UvcFormat
  | mjpeg
  | yuv
  | h264
  | h265
deriving DecidableEq, Repr

/-- The function that `uvc_checkout_port_info` calls for a format. -/
def UvcFormat.check : UvcFormat → AllFrame → UvcConfig → AvdkErr × UvcConfig
  | mjpeg => uvcCheckMjpegConfig
  | yuv => uvcCheckYuvConfig
  | h264 => uvcCheckH264Config
  | h265 => uvcCheckH265Config

/-- The list of a format. -/
def UvcFormat.frames (format : UvcFormat) (param : AllFrame) : List UvcFrame :=
  match format with
  | mjpeg => param.mjpeg.frames
  | yuv => param.yuv.frames
  | h264 => param.h264.frames
  | h265 => param.h265.frames

/-- The configuration that a frame gives: the frame rate asked for, if it has it. -/
def UvcFrame.adapt (frame : UvcFrame) (config : UvcConfig) : UvcConfig :=
  { config with fps := if config.fps ∈ frame.fps then config.fps else frame.firstFps }

/-- The check succeeds if the list has a frame of the size, and the first one gives the frame
rate.  The size stays, and a failure changes nothing. -/
structure Negotiates (format : UvcFormat) (param : AllFrame) (config : UvcConfig) : Prop where
  ok_iff : (format.check param config).1 = .ok ↔
    ∃ frame ∈ format.frames param, frame.fits config = true
  fps : (format.check param config).1 = .ok → ∀ frame,
    (format.frames param).find? (·.fits config) = some frame →
      (format.check param config).2.fps = (frame.adapt config).fps
  width : (format.check param config).2.width = config.width
  height : (format.check param config).2.height = config.height
  failed : (format.check param config).1 ≠ .ok → (format.check param config).2 = config

/-! ## The loops -/

variable {config : UvcConfig} {frames : List UvcFrame}

/-- Before a frame of the size is found, rates do not matter. -/
theorem scanFps_false (fps : UInt32) (l : List UInt32) (flag : Bool) :
    scanFps false fps l flag = flag := by
  induction l generalizing flag with
  | nil => rfl
  | cons f rest ih =>
    rw [scanFps, ih]
    rfl

theorem scanFps_true (fps : UInt32) (l : List UInt32) (flag : Bool) :
    scanFps true fps l flag = (flag || decide (fps ∈ l)) := by
  induction l generalizing flag with
  | nil => simp [scanFps]
  | cons f rest ih =>
    rw [scanFps, ih]
    by_cases hf : f = fps
    · simp [hf]
    · simp [hf, Ne.symm hf]

/-- **The loop** ends at the first frame of the size, and otherwise leaves everything as it
was. -/
theorem scanFrames_eq (frames : List UvcFrame) (config : UvcConfig) :
    scanFrames frames false false config =
      match frames.find? (·.fits config) with
      | some frame => (true, true, frame.adapt config)
      | none => (false, false, config) := by
  induction frames with
  | nil => rfl
  | cons frame rest ih =>
    cases hfits : frame.fits config with
    | false =>
      rw [List.find?_cons_of_neg (by simp [hfits]), scanFrames]
      simp only [hfits, Bool.false_eq_true, if_false, scanFps_false]
      exact ih
    | true =>
      rw [List.find?_cons_of_pos (p := (UvcFrame.fits · config)) hfits, scanFrames]
      simp only [hfits, if_true, scanFps_true, Bool.false_or, UvcFrame.adapt]
      by_cases hfps : config.fps ∈ frame.fps
      · simp [hfps]
      · simp [hfps]

theorem uvcCheckConfig_eq (frameNum : UInt8) (frames : List UvcFrame) (config : UvcConfig) :
    uvcCheckConfig frameNum frames config =
      match (frames.take frameNum.toNat).find? (·.fits config) with
      | some frame => (.ok, frame.adapt config)
      | none => (.unsupported, config) := by
  unfold uvcCheckConfig
  rw [scanFrames_eq]
  cases (frames.take frameNum.toNat).find? (·.fits config) <;> rfl

/-! ## The formats -/

/-- A check that looks at the whole list keeps the promise. -/
theorem negotiates_of_check {format : UvcFormat} {param : AllFrame}
    (hcheck : format.check param config =
      match (format.frames param).find? (·.fits config) with
      | some frame => (.ok, frame.adapt config)
      | none => (.unsupported, config)) :
    Negotiates format param config := by
  cases hfind : (format.frames param).find? (·.fits config) with
  | none =>
    rw [hfind] at hcheck
    have hnone := List.find?_eq_none.mp hfind
    constructor <;> rw [hcheck]
    · refine iff_of_false (fun h => AvdkErr.noConfusion h) ?_
      rintro ⟨frame, hmem, hfits⟩
      exact hnone frame hmem hfits
    · exact fun h => AvdkErr.noConfusion h
    · exact fun _ => rfl
  | some frame =>
    rw [hfind] at hcheck
    have hfits := List.find?_some (p := (UvcFrame.fits · config)) hfind
    constructor <;> rw [hcheck]
    · exact iff_of_true rfl ⟨frame, List.mem_of_find?_eq_some hfind, hfits⟩
    · rintro - other hother
      rw [Option.some.inj (hfind.symm.trans hother)]
    · rfl
    · rfl
    · exact fun h => absurd rfl h

/-- The formats other than H265 look at the whole list. -/
theorem check_eq {format : UvcFormat} (hformat : format ≠ .h265) (param : AllFrame)
    (config : UvcConfig) :
    format.check param config =
      match (format.frames param).find? (·.fits config) with
      | some frame => (.ok, frame.adapt config)
      | none => (.unsupported, config) := by
  have hall (table : FrameTable) : table.frames.take table.num.toNat = table.frames := by
    rw [table.num_eq, List.take_length]
  cases format with
  | mjpeg => exact (uvcCheckConfig_eq _ _ _).trans (by rw [hall]; rfl)
  | yuv => exact (uvcCheckConfig_eq _ _ _).trans (by rw [hall]; rfl)
  | h264 => exact (uvcCheckConfig_eq _ _ _).trans (by rw [hall]; rfl)
  | h265 => exact absurd rfl hformat

/-- **The check of a format** keeps the promise if and only if it is not the one for H265, or the
camera has no such frame. -/
theorem negotiates_iff (format : UvcFormat) (param : AllFrame) (config : UvcConfig) :
    Negotiates format param config ↔
      (format = .h265 → ∀ frame ∈ param.h265.frames, frame.fits config = false) := by
  by_cases hformat : format = .h265
  · subst hformat
    have hcheck : UvcFormat.check .h265 param config = (.unsupported, config) :=
      uvcCheckConfig_eq _ _ _
    constructor
    · intro h _ frame hmem
      by_contra hfits
      have hok := h.ok_iff.mpr ⟨frame, hmem, by simpa using hfits⟩
      rw [hcheck] at hok
      exact AvdkErr.noConfusion hok
    · intro h
      refine negotiates_of_check ?_
      have hnone : (UvcFormat.frames .h265 param).find? (·.fits config) = none :=
        List.find?_eq_none.mpr fun frame hmem hfits =>
          absurd hfits (by rw [h rfl frame hmem]; exact Bool.false_ne_true)
      rw [hcheck, hnone]
  · exact iff_of_true (negotiates_of_check (check_eq hformat param config))
      fun h => absurd h hformat

/-- A camera with one frame in H265. -/
def h265Camera : AllFrame where
  mjpeg := ⟨0, [], rfl⟩
  yuv := ⟨0, [], rfl⟩
  h264 := ⟨0, [], rfl⟩
  h265 := ⟨1, [⟨1280, 720, [30], List.cons_ne_nil _ _⟩], rfl⟩

/-- What it offers is not found. -/
theorem not_negotiates_h265 :
    ¬∀ (format : UvcFormat) (param : AllFrame) (config : UvcConfig),
      Negotiates format param config := by
  intro h
  have hok := (h .h265 h265Camera ⟨1280, 720, 30⟩).ok_iff.mpr
    ⟨_, List.mem_cons_self, by decide⟩
  exact absurd hok (by decide)

end Camera

end YangIpc
