import Mathlib.Data.Int.Notation
import YangIpc.Core.Timer

/-!
# The beacon

`yangipc_sdp.c` announces the service and its ports in broadcasts that a timer sends.  What the
allocator and the sockets answer is an argument; the functions return whether they succeeded.

## Main definitions

* `YangipcSdp`: the beacon
* `yangipcSdpStart`, `yangipcSdpStop`, `yangipcSdpReload`: the functions
-/

namespace YangIpc

namespace Core

variable {Timer : Type} (api : TimerApi Timer)

/-- `struct sockaddr_in`, as far as it is set. -/
structure SockaddrIn where
  port : UInt16
  addr : UInt32
deriving DecidableEq, Repr

/-- `yangipc_sdp_t`. -/
structure YangipcSdp (Timer : Type) where
  sock : ℤ
  timer : Timer
  intvalMs : UInt32
  sockRemote : SockaddrIn
  sdpData : Option String
  sdpLength : UInt16

/-- What a start finds: whether there is memory for the beacon and for its text, and the socket
that `yangipc_sdp_init_socket` opens, if it does. -/
structure Resources where
  malloc : Bool
  mallocData : Bool
  socket : Option ℤ
deriving DecidableEq, Repr

/-- `UDP_SDP_REMOTE_PORT`. -/
def udpSdpRemotePort : UInt16 := 52110

/-- `INADDR_BROADCAST`. -/
def inaddrBroadcast : UInt32 := 0xffffffff

/-- The text of the broadcasts. -/
def sdpText (name : String) (cmdPort imgPort audPort : UInt32) : String :=
  "\x7b\"service\":\"" ++ name ++ "\", \"cmd\":\"" ++ toString cmdPort ++ "\",\"img\":\"" ++
    toString imgPort ++ "\", \"aud\":\"" ++ toString audPort ++ "\"\x7d"

/-- `yangipc_sdp_generate`: without memory the beacon has no text. -/
def yangipcSdpGenerate (res : Resources) (name : String) (cmdPort imgPort audPort : UInt32)
    (sdp : YangipcSdp Timer) : YangipcSdp Timer :=
  if sdp.sdpData = none ∧ res.mallocData = false then sdp
  else
    let text := sdpText name cmdPort imgPort audPort
    { sdp with sdpData := some text, sdpLength := UInt16.ofNat text.length }

/-- `yangipc_sdp_start_timer`. -/
def yangipcSdpStartTimer (timeMs : UInt32) (sdp : YangipcSdp Timer) : Bool × YangipcSdp Timer :=
  if sdp.intvalMs ≠ 0 ∧ sdp.intvalMs = timeMs then
    -- the timer is taken to be running already
    (true, sdp)
  else
    -- a timer with another period is removed first
    let removed :=
      if sdp.intvalMs ≠ 0 ∧ api.hasHandle sdp.timer then
        let r := api.rtosDeinitTimer sdp.timer
        (r.1, if r.1 then api.dropHandle r.2 else r.2)
      else (true, sdp.timer)
    if removed.1 then
      let created := api.rtosInitTimer removed.2 timeMs
      if created.1 then
        let started := api.rtosStartTimer created.2
        (started.1, { sdp with timer := started.2, intvalMs := timeMs })
      else (false, { sdp with timer := created.2 })
    else (false, { sdp with timer := removed.2 })

/-- `yangipc_sdp_stop_timer`. -/
def yangipcSdpStopTimer : Option (YangipcSdp Timer) → Bool × Option (YangipcSdp Timer)
  | none => (false, none)
  | some sdp =>
    let stopped := api.rtosStopTimer sdp.timer
    (stopped.1, some { sdp with timer := stopped.2 })

/-- `yangipc_sdp_reload_timer`: the period becomes a minute, and `intval_ms` stays. -/
def yangipcSdpReloadTimer : Option (YangipcSdp Timer) → Bool × Option (YangipcSdp Timer)
  | none => (false, none)
  | some sdp =>
    let changed := api.rtosChangePeriod sdp.timer 60000
    if changed.1 then
      let reloaded := api.rtosReloadTimer changed.2
      (reloaded.1, some { sdp with timer := reloaded.2 })
    else (false, some { sdp with timer := changed.2 })

/-- `yangipc_sdp_pub_deinit`. -/
def yangipcSdpPubDeinit : Option (YangipcSdp Timer) → Bool × Option (YangipcSdp Timer)
  | none => (false, none)
  | some sdp =>
    if api.hasHandle sdp.timer then
      let removed := api.rtosDeinitTimer sdp.timer
      if removed.1 then (true, none) else (false, some { sdp with timer := removed.2 })
    else (true, none)

/-- `yangipc_sdp_start`: a beacon that exists is left alone. -/
def yangipcSdpStart (res : Resources) (name : String) (cmdPort imgPort audPort : UInt32) :
    Option (YangipcSdp Timer) → Bool × Option (YangipcSdp Timer)
  | some sdp => (false, some sdp)
  | none =>
    if res.malloc then
      match res.socket with
      | none => (false, none)
      | some sock =>
        let sdp := yangipcSdpGenerate res name cmdPort imgPort audPort
          ⟨sock, api.cleared, 0, ⟨udpSdpRemotePort, inaddrBroadcast⟩, none, 0⟩
        let started := yangipcSdpStartTimer api 1000 sdp
        if started.1 then (true, some started.2)
        else (false, (yangipcSdpPubDeinit api (some started.2)).2)
    else (false, none)

/-- `yangipc_sdp_stop`. -/
def yangipcSdpStop (sdp : Option (YangipcSdp Timer)) : Bool × Option (YangipcSdp Timer) :=
  let stopped := yangipcSdpStopTimer api sdp
  if stopped.1 then yangipcSdpPubDeinit api stopped.2 else (false, stopped.2)

/-- `yangipc_sdp_reload`. -/
def yangipcSdpReload (sdp : Option (YangipcSdp Timer)) : Bool × Option (YangipcSdp Timer) :=
  yangipcSdpReloadTimer api sdp

end Core

end YangIpc
