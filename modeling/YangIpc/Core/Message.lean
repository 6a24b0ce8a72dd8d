import Mathlib.Data.Nat.Notation

/-!
# Messages of the core loop

The events that services, connections and the boarding code send to the thread of
`yangipc_core.c`, and the services it may have started.
-/

namespace YangIpc

namespace Core

/-- `dbevt_t`. -/
inductive Dbevt
  | wifiStationConnect
  | wifiStationConnected
  | wifiStationDisconnected
  | p2pCs2ServiceStartRequest
  | p2pCs2ServiceStartResponse
  | lanUdpServiceStartRequest
  | lanUdpServiceStartResponse
  | lanTcpServiceStartRequest
  | lanTcpServiceStartResponse
  | wifiSoftApTurningOn
  | remoteDeviceConnected
  | remoteDeviceDisconnected
  | startWifiStation
  | startTcpService
  | startBoardingEvent
  | bleDisable
  | sdp
  | exit
  | imageTcpServiceDisconnected
  | voiceEvent
deriving DecidableEq, Repr

/-- `yangipc_service_t`. -/
inductive YangipcService
  | none
  | p2pCs2
  | lanUdp
  | lanTcp
deriving DecidableEq, Repr

/-- `yangipc_msg_t`. -/
structure YangipcMsg where
  event : Dbevt
  param : UInt32
deriving DecidableEq, Repr

end Core

end YangIpc
