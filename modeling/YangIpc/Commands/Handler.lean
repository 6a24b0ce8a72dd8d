import YangIpc.Core.Message
import YangIpc.Library.Bytes
import YangIpc.Library.Reads

/-!
# The command handler

`yangipc_transmission_cmd_recive_callback` of `yangipc_cmd.c` is given a buffer and the number of
bytes received.  It checks that these hold a head, and decodes the payload of the command behind
it.  It is a computation that reads the buffer.  The functions it calls are observed as actions,
with their parameters; what they return is the environment's.  What is logged is not observed, but
what is read for it is.

## Main definitions

* `Dbcmd`, `DbCmdHead`: the commands and the head
* `CmdAction`: what the handler calls and sends
* `cmdReciveCallback`: the handler
-/

namespace YangIpc

namespace Commands

open Bytes Reads Reading YangIpc.Core

/-- `dbcmd_t`. -/
inductive Dbcmd
  | setServiceType
  | setKeepAlive
  | getSupportedCameraDevices
  | getSupportedLcdDevices
  | getSupportedMicDevices
  | getSupportedSpeakerDevices
  | setCameraTurnOn
  | setCameraTurnOff
  | getCameraStatus
  | setAudioTurnOn
  | setAudioTurnOff
  | getAudioStatus
  | setLcdTurnOn
  | setLcdTurnOff
  | getLcdStatus
  | setAcoustics
  | png
deriving DecidableEq, Repr

namespace Dbcmd

/-- The numbers of the commands. -/
def opcode : Dbcmd → UInt32
  | setServiceType => 1
  | setKeepAlive => 2
  | getSupportedCameraDevices => 3
  | getSupportedLcdDevices => 4
  | getSupportedMicDevices => 5
  | getSupportedSpeakerDevices => 6
  | setCameraTurnOn => 7
  | setCameraTurnOff => 8
  | getCameraStatus => 9
  | setAudioTurnOn => 10
  | setAudioTurnOff => 11
  | getAudioStatus => 12
  | setLcdTurnOn => 13
  | setLcdTurnOff => 14
  | getLcdStatus => 15
  | setAcoustics => 16
  | png => 100

/-- Every command. -/
def all : List Dbcmd :=
  [setServiceType, setKeepAlive, getSupportedCameraDevices, getSupportedLcdDevices,
    getSupportedMicDevices, getSupportedSpeakerDevices, setCameraTurnOn, setCameraTurnOff,
    getCameraStatus, setAudioTurnOn, setAudioTurnOff, getAudioStatus, setLcdTurnOn, setLcdTurnOff,
    getLcdStatus, setAcoustics, png]

/-- The command with a number. -/
def ofOpcode (n : UInt32) : Option Dbcmd := all.find? (·.opcode = n)

theorem ofOpcode_opcode (cmd : Dbcmd) : ofOpcode cmd.opcode = some cmd := by
  cases cmd <;> decide

end Dbcmd

/-! ## Heads -/

/-- `db_cmd_head_t` without the payload. -/
structure DbCmdHead where
  opcode : UInt32
  param : UInt32
  length : UInt16
deriving DecidableEq, Repr

/-- `db_evt_head_t` without the payload. -/
structure DbEvtHead where
  opcode : UInt32
  status : UInt8
  flags : UInt16
  length : UInt16
deriving DecidableEq, Repr

/-- `sizeof(db_cmd_head_t)`, the offset of the payload. -/
def dbCmdHeadSize : ℕ := 10

/-- `EVT_STATUS_OK`. -/
def evtStatusOk : UInt8 := 0

/-- `EVT_STATUS_ERROR`. -/
def evtStatusError : UInt8 := 1

/-- `EVT_STATUS_UNKNOWN`. -/
def evtStatusUnknown : UInt8 := 12

/-- `EVT_FLAGS_COMPLETE`. -/
def evtFlagsComplete : UInt16 := 0

/-! ## Reading the buffer -/

/-- `STREAM_TO_UINT16` at an offset. -/
def streamToUint16 (p : ℕ) : Reading ℕ UInt8 UInt16 := do
  let lo ← fetch p
  let hi ← fetch (p + 1)
  pure (decode16 lo hi)

/-- `STREAM_TO_UINT32` at an offset. -/
def streamToUint32 (p : ℕ) : Reading ℕ UInt8 UInt32 := do
  let b₀ ← fetch p
  let b₁ ← fetch (p + 1)
  let b₂ ← fetch (p + 2)
  let b₃ ← fetch (p + 3)
  pure (decode32 b₀ b₁ b₂ b₃)

/-- The head at the beginning of the buffer. -/
def cmdHead : Reading ℕ UInt8 DbCmdHead := do
  let opcode ← streamToUint32 0
  let param ← streamToUint32 4
  let length ← streamToUint16 8
  pure ⟨opcode, param, length⟩

/-- The bytes that a pointer of 32 bits can point to. -/
def addressSpace : ℕ := 4294967296

/-- `strlen` at an offset behind which there are `left` bytes. -/
def strlen : ℕ → ℕ → Reading ℕ UInt8 ℕ
  -- there is no terminator at all
  | 0, _ => pure 0
  | left + 1, p => do
    let c ← fetch p
    if c = 0 then pure 0
    else
      let n ← strlen left (p + 1)
      pure (n + 1)

/-- `!os_strncmp(data + p, s, strlen(s))`: the bytes are compared up to the first difference. -/
def strncmpEq : ℕ → List UInt8 → Reading ℕ UInt8 Bool
  | _, [] => pure true
  | p, c :: rest => do
    let b ← fetch p
    if b = c then strncmpEq (p + 1) rest else pure false

/-- The string `yangipc-udp`. -/
def serviceUdp : List UInt8 := [121, 97, 110, 103, 105, 112, 99, 45, 117, 100, 112]

/-- The string `yangipc-tcp`. -/
def serviceTcp : List UInt8 := [121, 97, 110, 103, 105, 112, 99, 45, 116, 99, 112]

/-! ## The handler -/

/-- `camera_parameters_t`. -/
structure CameraParameters where
  id : UInt16
  width : UInt16
  height : UInt16
  format : UInt16
  protocol : UInt16
  rotate : UInt16
deriving DecidableEq, Repr

/-- `audio_parameters_t` without the field `asr`, which nobody sets. -/
structure AudioParameters where
  aec : UInt8
  uac : UInt8
  rmtRecorderSampleRate : UInt32
  rmtPlayerSampleRate : UInt32
  rmtRecoderFmt : UInt8
  rmtPlayerFmt : UInt8
deriving DecidableEq, Repr

/-- What the handler calls. -/
inductive CmdAction
  /-- the parameter of the message is not set -/
  | sendMsg (event : Dbevt)
  | keepAliveStartTimer (timeMs : UInt32)
  | keepAliveStopTimer
  | getSupportedCameraDevices (opcode : UInt32)
  | cameraTurnOn (parameters : CameraParameters)
  | cameraTurnOff
  | videoTransferTurnOn
  | videoTransferTurnOff
  | audioTurnOn (parameters : AudioParameters)
  | audioTurnOff
  | audioAcoustics (index param : UInt32)
  | packSend (evt : DbEvtHead)
deriving DecidableEq, Repr

/-- `yangipc_transmission_event_report`, with `EVT_FLAGS_COMPLETE`. -/
def transmissionEventReport (opcode : UInt32) (status : UInt8) : CmdAction :=
  .packSend ⟨opcode, status, evtFlagsComplete, 0⟩

/-- `DBCMD_SET_SERVICE_TYPE`. -/
def setServiceType (cmd : DbCmdHead) : Reading ℕ UInt8 (List CmdAction) := do
  -- `LOGD` prints the payload as a string, and its length: both go on to the terminator
  let _printed ← strlen addressSpace dbCmdHeadSize
  let _length ← strlen addressSpace dbCmdHeadSize
  if ← strncmpEq dbCmdHeadSize serviceUdp then
    pure [.sendMsg .lanUdpServiceStartRequest, transmissionEventReport cmd.opcode evtStatusOk]
  else if ← strncmpEq dbCmdHeadSize serviceTcp then
    pure [.sendMsg .lanTcpServiceStartRequest, transmissionEventReport cmd.opcode evtStatusOk]
  else pure [transmissionEventReport cmd.opcode evtStatusError]

/-- `DBCMD_SET_KEEP_ALIVE`. -/
def setKeepAlive (cmd : DbCmdHead) : List CmdAction :=
  [if cmd.param ≠ 0 then .keepAliveStartTimer cmd.param else .keepAliveStopTimer,
    transmissionEventReport cmd.opcode evtStatusOk]

/-- The parameters of `DBCMD_SET_CAMERA_TURN_ON`; the head tells whether there is a rotation. -/
def cameraParameters (cmd : DbCmdHead) : Reading ℕ UInt8 CameraParameters := do
  let width ← streamToUint16 dbCmdHeadSize
  let height ← streamToUint16 (dbCmdHeadSize + 2)
  let format ← streamToUint16 (dbCmdHeadSize + 4)
  let protocol ← streamToUint16 (dbCmdHeadSize + 6)
  let rotate ← if cmd.length > 8 then streamToUint16 (dbCmdHeadSize + 8) else pure 0xFFFF
  pure ⟨cmd.param.toUInt16, width, height, format, protocol, rotate⟩

/-- The parameters of `DBCMD_SET_AUDIO_TURN_ON`. -/
def audioParameters : Reading ℕ UInt8 AudioParameters := do
  let aec ← fetch dbCmdHeadSize
  let uac ← fetch (dbCmdHeadSize + 1)
  let rmtRecorderSampleRate ← streamToUint32 (dbCmdHeadSize + 2)
  let rmtPlayerSampleRate ← streamToUint32 (dbCmdHeadSize + 6)
  let rmtRecoderFmt ← fetch (dbCmdHeadSize + 10)
  let rmtPlayerFmt ← fetch (dbCmdHeadSize + 11)
  pure ⟨aec, uac, rmtRecorderSampleRate, rmtPlayerSampleRate, rmtRecoderFmt, rmtPlayerFmt⟩

/-- A device function is called and the lowest byte of its result reported. -/
def callAndReport (ret : CmdAction → UInt32) (cmd : DbCmdHead) (action : CmdAction) :
    List CmdAction :=
  [action, transmissionEventReport cmd.opcode (ret action).toUInt8]

/-- The branches of the `switch`; `ret` is what the functions return. -/
def dispatch (ret : CmdAction → UInt32) (cmd : DbCmdHead) : Reading ℕ UInt8 (List CmdAction) :=
  match Dbcmd.ofOpcode cmd.opcode with
  | some .setServiceType => setServiceType cmd
  | some .setKeepAlive => pure (setKeepAlive cmd)
  | some .getSupportedCameraDevices => pure [.getSupportedCameraDevices cmd.opcode]
  | some .setCameraTurnOn => do
    let action := CmdAction.cameraTurnOn (← cameraParameters cmd)
    pure [action, .videoTransferTurnOn, transmissionEventReport cmd.opcode (ret action).toUInt8]
  | some .setCameraTurnOff => pure (.videoTransferTurnOff :: callAndReport ret cmd .cameraTurnOff)
  | some .getCameraStatus => pure []
  | some .setAudioTurnOn => do
    let parameters ← audioParameters
    pure (callAndReport ret cmd (.audioTurnOn parameters))
  | some .setAudioTurnOff => pure (callAndReport ret cmd .audioTurnOff)
  | some .getAudioStatus => pure []
  | some .png => pure [transmissionEventReport cmd.opcode evtStatusOk]
  | some .setAcoustics => do
    let param ← streamToUint32 dbCmdHeadSize
    pure (callAndReport ret cmd (.audioAcoustics cmd.param param))
  -- the build has no LCD, and the other commands have no branch
  | some .getSupportedLcdDevices | some .getSupportedMicDevices
  | some .getSupportedSpeakerDevices | some .setLcdTurnOn | some .setLcdTurnOff
  | some .getLcdStatus | none => pure [transmissionEventReport cmd.opcode evtStatusUnknown]

/-- `yangipc_transmission_cmd_recive_callback`. -/
def cmdReciveCallback (ret : CmdAction → UInt32) (length : UInt16) :
    Reading ℕ UInt8 (List CmdAction) :=
  if length.toNat < dbCmdHeadSize then pure []
  else do
    let cmd ← cmdHead
    dispatch ret cmd

end Commands

end YangIpc
