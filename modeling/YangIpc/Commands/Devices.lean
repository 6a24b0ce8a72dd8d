import YangIpc.Commands.Handler
import YangIpc.FrameQueue.Operations

/-!
# The camera and the Wi-Fi transfer

`yangipc_camera_turn_on`, `yangipc_camera_turn_off`, `yangipc_video_transfer_turn_on` and
`yangipc_video_transfer_turn_off` of `yangipc_devices.c`, with `yangipc_camera.c` below them.  The
command handler and the message loop call them.  The camera driver and the Wi-Fi transfer answer
whether they succeeded; a transfer that could not be opened or closed is as it was.

## Main definitions

* `Devices`: the devices, the frame queues and the transfer
* `yangipcCameraTurnOn`, `yangipcCameraTurnOff`, `yangipcVideoTransferTurnOn`,
  `yangipcVideoTransferTurnOff`: the functions
* `DeviceCall`, `Devices.next`: the calls with their answers
* `DeviceCommand`: what makes the handler and the loop call the functions

## Main results

* `dispatch_calls`: the calls of the handler are those of a command
-/

namespace YangIpc

namespace Commands

open FrameQueue

/-- A `bk_camera_ctlr_handle_t` that is not `NULL`. -/
abbrev CameraHandle := ℕ

/-- `db_device_info_t`, as far as the camera and the transfer use it; whether
`video_transfer_cb` is set. -/
structure DbDeviceInfo where
  handle : Option CameraHandle
  transferFormat : ImageFormat
  videoTransferCb : Bool

/-- `db_device_info`, the frame queues, and whether the Wi-Fi transfer is open. -/
structure Devices where
  info : Option DbDeviceInfo
  queues : ImageFormat → FrameQueueV2
  wifiOpen : Bool

/-- `CONSUMER_TRANSMISSION`. -/
def consumerTransmission : Mask := 1#32 <<< 0

/-- What the allocations of `frame_queue_v2_init` answer for each queue. -/
structure QueueAnswers where
  semaphore : ImageFormat → Bool
  node : ImageFormat → ℕ → Option NodeId

/-- What the camera driver answers when a camera is turned on: the handle it created, and whether
it could be opened. -/
structure DvpAnswer where
  created : Option CameraHandle
  opened : Bool

/-! ## The functions -/

/-- `frame_queue_v2_init`, on the queue of a format. -/
def initQueue (answers : QueueAnswers) (format : ImageFormat)
    (queues : ImageFormat → FrameQueueV2) : (ImageFormat → FrameQueueV2) × Bool :=
  let r := frameQueueV2Init format (answers.semaphore format) (answers.node format)
    (queues format)
  (Function.update queues format r.1, r.2)

/-- `frame_queue_v2_init_all`. -/
def frameQueueV2InitAll (answers : QueueAnswers) (queues : ImageFormat → FrameQueueV2) :
    (ImageFormat → FrameQueueV2) × Bool :=
  let mjpeg := initQueue answers .mjpeg queues
  if mjpeg.2 then
    let h264 := initQueue answers .h264 mjpeg.1
    if h264.2 then initQueue answers .yuv h264.1 else h264
  else mjpeg

/-- `dvp_camera_turn_on`. -/
def dvpCameraTurnOn (answer : DvpAnswer) : Option CameraHandle :=
  match answer.created with
  | some handle => if answer.opened then some handle else none
  | none => none

/-- `dvp_camera_turn_off`, for a camera that is on; whether it could be closed and deleted. -/
def dvpCameraTurnOff (closed deleted : Bool) : Bool := closed && deleted

/-- `yangipc_camera_open`; the result is `true` for `AVDK_ERR_OK`. -/
def yangipcCameraOpen (parameters : CameraParameters) (answer : DvpAnswer)
    (info : DbDeviceInfo) : DbDeviceInfo × Bool :=
  if parameters.format ≠ 0 then
    let handle := dvpCameraTurnOn answer
    ({ info with transferFormat := .h264, handle := handle }, handle.isSome)
  -- "not support transfer MJPEG stream"
  else (info, false)

/-- `yangipc_camera_turn_on`; the result is `true` for `BK_OK`, as below. -/
def yangipcCameraTurnOn (parameters : CameraParameters) (answers : QueueAnswers)
    (answer : DvpAnswer) (s : Devices) : Devices × Bool :=
  match s.info with
  | none => (s, false)
  | some info =>
    if info.handle.isSome then (s, true)
    else
      let queues := frameQueueV2InitAll answers s.queues
      if queues.2 then
        let camera := yangipcCameraOpen parameters answer info
        ({ s with info := some camera.1, queues := queues.1 }, camera.2)
      else ({ s with queues := queues.1 }, false)

/-- `yangipc_camera_turn_off`; there is no display. -/
def yangipcCameraTurnOff (closed deleted : Bool) (s : Devices) : Devices × Bool :=
  match s.info with
  | none => (s, true)
  | some info =>
    if info.handle.isNone then (s, true)
    else if dvpCameraTurnOff closed deleted then
      ({ s with
        info := some { info with handle := none }
        queues := fun format => frameQueueV2ClearAll (s.queues format) }, true)
    else (s, false)

/-- `yangipc_video_transfer_turn_on`; whether the transfer could be opened. -/
def yangipcVideoTransferTurnOn (opened : Bool) (s : Devices) : Devices × Bool :=
  match s.info with
  | none => (s, false)
  | some info =>
    if info.videoTransferCb = false then (s, false)
    else if info.handle.isNone then (s, false)
    else
      let queue := frameQueueV2RegisterConsumer info.transferFormat consumerTransmission
        (s.queues info.transferFormat)
      ({ s with
        queues := Function.update s.queues info.transferFormat queue.1
        wifiOpen := s.wifiOpen || opened }, opened)

/-- `yangipc_video_transfer_turn_off`; whether the transfer could be closed. -/
def yangipcVideoTransferTurnOff (closed : Bool) (s : Devices) : Devices × Bool :=
  match s.info with
  | none => (s, true)
  | some info =>
    if info.handle.isNone then (s, true)
    else
      let queue := frameQueueV2UnregisterConsumer info.transferFormat consumerTransmission
        (s.queues info.transferFormat)
      ({ s with
        queues := Function.update s.queues info.transferFormat queue.1
        wifiOpen := s.wifiOpen && !closed }, closed)

/-- `yangipc_devices_set_camera_transfer_callback`. -/
def yangipcDevicesSetCameraTransferCallback (cb : Bool) (s : Devices) : Devices :=
  { s with info := s.info.map ({ · with videoTransferCb := cb }) }

/-! ## Runs -/

/-- The calls, with what the driver and the transfer answer. -/
inductive DeviceCall
  | setCallback (cb : Bool)
  | cameraTurnOn (parameters : CameraParameters) (answers : QueueAnswers) (answer : DvpAnswer)
  | cameraTurnOff (closed deleted : Bool)
  | transferTurnOn (opened : Bool)
  | transferTurnOff (closed : Bool)

namespace Devices

/-- The devices after a call. -/
def next (s : Devices) : DeviceCall → Devices
  | .setCallback cb => yangipcDevicesSetCameraTransferCallback cb s
  | .cameraTurnOn parameters answers answer => (yangipcCameraTurnOn parameters answers answer s).1
  | .cameraTurnOff closed deleted => (yangipcCameraTurnOff closed deleted s).1
  | .transferTurnOn opened => (yangipcVideoTransferTurnOn opened s).1
  | .transferTurnOff closed => (yangipcVideoTransferTurnOff closed s).1

end Devices

/-- What makes the handler and the loop call the functions. -/
inductive DeviceCommand
  /-- `DBCMD_SET_CAMERA_TURN_ON` -/
  | turnOn (parameters : CameraParameters) (answers : QueueAnswers) (answer : DvpAnswer)
      (opened : Bool)
  /-- `DBCMD_SET_CAMERA_TURN_OFF` -/
  | turnOff (closed cameraClosed deleted : Bool)
  /-- `DBEVT_REMOTE_DEVICE_DISCONNECTED`, `DBEVT_IMAGE_TCP_SERVICE_DISCONNECTED` -/
  | disconnected (closed : Bool)

/-- The calls the handler and the loop make. -/
def DeviceCommand.calls : DeviceCommand → List DeviceCall
  | .turnOn parameters answers answer opened =>
    [.cameraTurnOn parameters answers answer, .transferTurnOn opened]
  | .turnOff closed cameraClosed deleted =>
    [.transferTurnOff closed, .cameraTurnOff cameraClosed deleted]
  | .disconnected closed => [.transferTurnOff closed]

/-- What the handler does when it makes a call. -/
def DeviceCall.action : DeviceCall → Option CmdAction
  | .setCallback _ => none
  | .cameraTurnOn parameters _ _ => some (.cameraTurnOn parameters)
  | .cameraTurnOff _ _ => some .cameraTurnOff
  | .transferTurnOn _ => some .videoTransferTurnOn
  | .transferTurnOff _ => some .videoTransferTurnOff

/-- The actions on the camera and the transfer. -/
def CmdAction.onCamera : CmdAction → Bool
  | .cameraTurnOn _ | .cameraTurnOff | .videoTransferTurnOn | .videoTransferTurnOff => true
  | _ => false

/-- The handler makes no other calls than those of a command. -/
theorem dispatch_calls (ret : CmdAction → UInt32) (cmd : DbCmdHead) (data : Bytes.Memory) :
    ((dispatch ret cmd).eval data).filter CmdAction.onCamera = [] ∨ ∃ command : DeviceCommand,
      ((dispatch ret cmd).eval data).filter CmdAction.onCamera =
        command.calls.filterMap DeviceCall.action := by
  unfold dispatch
  split
  case h_4 =>
    right
    exact ⟨.turnOn ((cameraParameters cmd).eval data) ⟨fun _ => true, fun _ _ => none⟩
      ⟨none, true⟩ true, by rw [Reads.Reading.eval_bind]; rfl⟩
  case h_5 => exact .inr ⟨.turnOff true true true, rfl⟩
  case h_1 =>
    left
    simp only [setServiceType, Reads.Reading.eval_bind]
    split
    · rfl
    · rw [Reads.Reading.eval_bind]
      split <;> rfl
  case h_2 =>
    left
    rw [Reads.Reading.eval_pure]
    unfold setKeepAlive
    split <;> rfl
  case h_7 =>
    left
    rw [Reads.Reading.eval_bind]
    rfl
  case h_11 =>
    left
    rw [Reads.Reading.eval_bind]
    rfl
  all_goals exact .inl rfl

end Commands

end YangIpc
