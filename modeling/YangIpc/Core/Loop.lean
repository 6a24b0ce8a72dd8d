import YangIpc.Boarding.Encoder
import YangIpc.Core.Message
import YangIpc.Core.Sdp

/-!
# The message loop

The thread of `yangipc_core.c` takes one message after the other from its queue.  It keeps the
service that was started and, in `yangipc_sdp.c`, the beacon; its calls into other modules are
observed as actions.

## Main definitions

* `CoreInput`, `CoreAction`: a message with what its handler finds, and what the handler calls
* `CoreState`, `yangipcMessageHandle`, `CoreState.run`: the state, one message, a list of messages
-/

namespace YangIpc

namespace Core

open Boarding (BoardingOp)

variable {Timer : Type} (api : TimerApi Timer) (cs2 : Bool)

/-- A message, and what its handler finds. -/
structure CoreInput where
  msg : YangipcMsg
  res : Resources
  /-- The address of the network interface. -/
  address : String
deriving DecidableEq

/-- What the loop calls. -/
inductive CoreAction
  | wifiStaConnect (boardingInfo : UInt32)
  | boardingEventNotify (opcode : BoardingOp) (status : UInt32)
  | boardingEventNotifyWithData (opcode : BoardingOp) (status : UInt32) (payload : String)
  | cmdServerInit
  | udpServiceInit
  | tcpServiceInit
  | cs2ServiceInit (key : UInt32)
  | bluetoothDeinit
  | udpUpdateRemoteAddress (remote : UInt32)
  | videoTransferTurnOff
  | audioTurnOff
  /-- the queue and the thread are deleted -/
  | exit
deriving DecidableEq, Repr

/-- `db_info` and `yangipc_sdp`, as far as the loop changes them. -/
structure CoreState (Timer : Type) where
  service : YangipcService
  sdp : Option (YangipcSdp Timer)

/-- `YANGIPC_CMD_PORT`. -/
def yangipcCmdPort : UInt32 := 7100

/-- The beacon of the UDP service. -/
def startUdpBeacon (res : Resources) (s : CoreState Timer) : CoreState Timer :=
  { s with sdp := (yangipcSdpStart api res "yangipc-udp" yangipcCmdPort 7180 7170 s.sdp).2 }

/-- The beacon of the TCP service. -/
def startTcpBeacon (res : Resources) (s : CoreState Timer) : CoreState Timer :=
  { s with sdp := (yangipcSdpStart api res "yangipc-tcp" yangipcCmdPort 7150 7140 s.sdp).2 }

/-- The beacon of the service that was started, when a remote device is gone. -/
def restartBeacon (res : Resources) (s : CoreState Timer) : CoreState Timer :=
  match s.service with
  | .lanUdp => startUdpBeacon api res s
  | .lanTcp => startTcpBeacon api res s
  | _ => s

/-- `yangipc_message_handle`, for one message.  The service `cs2` is part of the build or not. -/
def yangipcMessageHandle (s : CoreState Timer) (input : CoreInput) :
    CoreState Timer × List CoreAction :=
  match input.msg.event with
  | .wifiStationConnect => (s, [.wifiStaConnect input.msg.param])
  | .wifiStationConnected =>
    (s, [.boardingEventNotifyWithData .stationStart 0 input.address])
  | .lanUdpServiceStartRequest =>
    if s.service ≠ .none then (s, [])
    else ({ s with service := .lanUdp }, [.cmdServerInit, .udpServiceInit])
  | .lanUdpServiceStartResponse =>
    (startUdpBeacon api input.res s, [.boardingEventNotify .serviceUdpStart 0])
  | .lanTcpServiceStartRequest =>
    if s.service ≠ .none then (s, [])
    else ({ s with service := .lanTcp }, [.cmdServerInit, .tcpServiceInit])
  | .lanTcpServiceStartResponse =>
    (startTcpBeacon api input.res s, [.boardingEventNotify .serviceTcpStart 0])
  | .p2pCs2ServiceStartRequest =>
    if cs2 = false ∨ s.service ≠ .none then (s, [])
    else ({ s with service := .p2pCs2 }, [.cs2ServiceInit input.msg.param])
  | .p2pCs2ServiceStartResponse => (s, [.boardingEventNotify .srrviceCs2Start 0])
  | .startBoardingEvent =>
    (s, [.boardingEventNotify input.msg.param.toUInt16 (input.msg.param >>> 16)])
  | .bleDisable => (s, [.bluetoothDeinit])
  | .remoteDeviceConnected =>
    match s.service with
    | .lanUdp =>
      ({ s with sdp := (yangipcSdpReload api s.sdp).2 }, [.udpUpdateRemoteAddress input.msg.param])
    | .lanTcp => ({ s with sdp := (yangipcSdpReload api s.sdp).2 }, [])
    | _ => (s, [])
  | .remoteDeviceDisconnected =>
    (restartBeacon api input.res s, [.videoTransferTurnOff, .audioTurnOff])
  | .imageTcpServiceDisconnected => (restartBeacon api input.res s, [.videoTransferTurnOff])
  | .exit => ({ s with sdp := (yangipcSdpStop api s.sdp).2 }, [.exit])
  | .wifiStationDisconnected | .wifiSoftApTurningOn | .startWifiStation | .startTcpService | .sdp
  | .voiceEvent => (s, [])

namespace CoreState

/-- `yangipc_core_init`: no service, no beacon. -/
def start : CoreState Timer := ⟨.none, none⟩

/-- The state after a list of messages. -/
def run (s : CoreState Timer) : List CoreInput → CoreState Timer
  | [] => s
  | input :: rest => run (yangipcMessageHandle api cs2 s input).1 rest

end CoreState

end Core

end YangIpc
