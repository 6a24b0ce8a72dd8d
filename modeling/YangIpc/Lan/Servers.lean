import Mathlib.Data.Int.Notation
import Mathlib.Logic.Function.Basic
import YangIpc.Core.Message

/-!
# The TCP servers

The threads of the command server (`yangipc_cmd.c`) and of the image and audio servers
(`yangipc_tcp_service.c`), with the functions that send to their clients:
`yangipc_transmission_send`, `yangipc_tcp_img_send_packet` and `yangipc_tcp_aud_send_packet`.

The three threads are the same but for a few places, at which the model asks for the server.  An
access to a field that another thread uses, and a call of a socket function, are steps of their
own.  `img_status` and `aud_status` are bits of one word: a thread that writes the one loads the
word and stores it, with the other bit as it was when the word was loaded.  What the functions
answer is an argument; what is received is in `Transmission.Connections`, and what is sent in
`Transmission.SendLoop`.

## Main definitions

* `Server`, `ServerInfo`: the servers and their fields
* `ServerPoint`, `SendPoint`: where a thread, and a call that sends, are
* `serverThread`, `LanState.sendNext`: what they do next
* `LanState.step`: the transition system
-/

namespace YangIpc

namespace Lan

open YangIpc.Core

/-! ## The threads -/

inductive Server
  | cmd
  | img
  | aud
deriving DecidableEq, Repr

/-- The server whose status is in the same word: `server_state` has a word of its own. -/
def Server.partner : Server → Server
  | cmd => cmd
  | img => aud
  | aud => img

/-- `db_cmd_info_t`, or a half of `db_tcp_service_t`: `fd` is `client_fd`, `img_fd` or `aud_fd`,
and `status` is `server_state`, `img_status` or `aud_status`. -/
structure ServerInfo where
  serverFd : ℤ
  fd : ℤ
  status : Bool
deriving DecidableEq, Repr

/-- Where a thread is.  `notConn` tells whether `errno` was `ENOTCONN` when `recv` failed. -/
inductive ServerPoint
  /-- `DBEVT_LAN_TCP_SERVICE_START_RESPONSE` -/
  | response
  /-- `rcv_buf` -/
  | malloc
  | socket
  | bind
  | listen
  | select
  | accept
  /-- `server_state == BK_FALSE` -/
  | announce
  /-- `DBEVT_REMOTE_DEVICE_CONNECTED` -/
  | connected
  /-- `img_status = BK_TRUE` or `aud_status = BK_TRUE`: the word is loaded -/
  | setStatus
  /-- the word is stored; `other` is the bit of the partner that was loaded -/
  | storeStatus (other : Bool)
  /-- at the condition of the inner loop -/
  | test
  | recv
  | close (notConn : Bool)
  /-- `client_fd = -1` -/
  | reset (notConn : Bool)
  /-- `server_state == BK_TRUE`, and `server_state = BK_FALSE` -/
  | report (notConn : Bool)
  /-- `yangipc_send_msg` -/
  | lost (notConn : Bool)
  /-- `server_fd != -1` behind the label `out` -/
  | out
  | closeServer
  /-- `server_fd = -1` -/
  | resetServer
  /-- `img_status = BK_FALSE` and its like: the word is loaded -/
  | clearStatus
  | storeCleared (other : Bool)
  | clearThread
  | ended
deriving DecidableEq, Repr

/-- The connection is closed, and the field not reset yet. -/
def ServerPoint.isReset : ServerPoint → Bool
  | reset _ => true
  | _ => false

/-- The bit of the partner that is about to be stored. -/
def ServerPoint.stored : ServerPoint → Option Bool
  | storeStatus other | storeCleared other => some other
  | _ => none

/-- Where a call that sends is. -/
inductive SendPoint
  | status
  /-- `db_cmd_info->client_fd < 0` -/
  | guard
  /-- `*fd < 0` in the loop that sends -/
  | check
  /-- `*fd` is read for the call of the socket -/
  | load
  /-- the call itself; the field had been reset `resets` times when it was read -/
  | call (fd : ℤ) (resets : ℕ)
  | returned
deriving DecidableEq, Repr

/-- What is observed. -/
inductive LanEvent
  /-- `socket` succeeds -/
  | socket (server : Server) (fd : ℤ)
  | accept (server : Server) (fd : ℤ)
  /-- `recv` returns no bytes -/
  | ended (server : Server) (notConn : Bool)
  | close (server : Server) (fd : ℤ)
  /-- the inner loop is left with the client open, as the status is cleared -/
  | left (server : Server) (fd : ℤ)
  | sendMsg (server : Server) (event : Dbevt)
  /-- `sendto` or `write`; `fresh` unless `fd` is negative, or the field was reset behind the read
  of `fd`, or its connection is closed and the field not reset yet -/
  | send (server : Server) (fd : ℤ) (fresh : Bool)
deriving DecidableEq, Repr

/-- The thread or the sender that causes an event works for this server. -/
def LanEvent.server : LanEvent → Server
  | socket k _ | accept k _ | ended k _ | close k _ | left k _ | sendMsg k _ | send k _ _ => k

/-! ## The servers -/

/-- The servers, the calls made so far, and how often each `client_fd` was reset. -/
structure LanState where
  info : Server → ServerInfo
  point : Server → ServerPoint
  resets : Server → ℕ
  senders : List (Server × SendPoint)
  log : List LanEvent

/-- What the functions answer to the threads. -/
inductive Answer
  | none
  | ok (ok : Bool)
  /-- a descriptor, or `-1` -/
  | fd (fd : Option ℕ)
  /-- bytes -/
  | data
  | ended (notConn : Bool)
deriving DecidableEq, Repr

/-- What follows `accept`: the command server announces its client. -/
def afterAccept (k : Server) : ServerPoint := if k = .cmd then .announce else .setStatus

/-- What follows the reset of the field: the audio server tells nobody. -/
def afterReset (notConn : Bool) (k : Server) : ServerPoint :=
  if k = .aud then .select else .report notConn

/-- The event that a lost connection causes. -/
def lossEvent (notConn : Bool) (k : Server) : Dbevt :=
  if k = .img ∧ notConn then .imageTcpServiceDisconnected else .remoteDeviceDisconnected

/-- `yangipc_cmd_server_thread`, `yangipc_image_server_thread` and
`yangipc_audio_server_thread`: what the thread does next, with its fields, and what is
observed.  `other` is the status of the partner. -/
def serverThread (k : Server) (info : ServerInfo) (other : Bool) :
    ServerPoint → Answer → Option (ServerPoint × ServerInfo × List LanEvent)
  | .response, .none => some (.malloc, info, [.sendMsg k .lanTcpServiceStartResponse])
  | .malloc, .ok ok => some (if ok then .socket else .out, info, [])
  | .socket, .fd (some d) => some (.bind, { info with serverFd := d }, [.socket k d])
  | .socket, .fd none => some (.out, { info with serverFd := -1 }, [])
  | .bind, .ok ok => some (if ok then .listen else .out, info, [])
  | .listen, .ok ok => some (if ok then .select else .out, info, [])
  -- errors of `select` are tried again
  | .select, .ok ready => some (if ready then .accept else .select, info, [])
  | .accept, .fd (some d) => some (afterAccept k, { info with fd := d }, [.accept k d])
  | .accept, .fd none => some (.out, { info with fd := -1 }, [])
  -- no other thread writes the word of `server_state`
  | .announce, .none =>
    if info.status then some (.test, info, [])
    else some (.connected, { info with status := true }, [])
  | .connected, .none => some (.test, info, [.sendMsg k .remoteDeviceConnected])
  | .setStatus, .none => some (.storeStatus other, info, [])
  | .storeStatus _, .none => some (.test, { info with status := true }, [])
  | .test, .none =>
    if info.status then some (.recv, info, []) else some (.select, info, [.left k info.fd])
  | .recv, .data => some (.test, info, [])
  | .recv, .ended notConn => some (.close notConn, info, [.ended k notConn])
  | .close notConn, .none => some (.reset notConn, info, [.close k info.fd])
  | .reset notConn, .none => some (afterReset notConn k, { info with fd := -1 }, [])
  | .report notConn, .none =>
    -- the image server does not look at its status, which stays
    if k = .cmd then
      if info.status then some (.lost notConn, { info with status := false }, [])
      else some (.select, info, [])
    else some (.lost notConn, info, [])
  | .lost notConn, .none => some (.select, info, [.sendMsg k (lossEvent notConn k)])
  | .out, .none => some (if info.serverFd = -1 then .clearStatus else .closeServer, info, [])
  | .closeServer, .none => some (.resetServer, info, [.close k info.serverFd])
  | .resetServer, .none => some (.clearStatus, { info with serverFd := -1 }, [])
  | .clearStatus, .none => some (.storeCleared other, info, [])
  | .storeCleared _, .none => some (.clearThread, { info with status := false }, [])
  | .clearThread, .none => some (.ended, info, [])
  | _, _ => none

namespace LanState

/-- `yangipc_cmd_server_init` and `yangipc_tcp_service_init`: the fields are cleared. -/
def boot : LanState where
  info _ := ⟨0, 0, false⟩
  point k := if k = .img then .response else .malloc
  resets _ := 0
  senders := []
  log := []

/-- The status of the partner is stored as it was loaded. -/
def storeOther (w : LanState) (k : Server) : Server → ServerInfo :=
  Function.update w.info k.partner
    { w.info k.partner with
      status := (w.point k).stored.getD (w.info k.partner).status }

/-- A thread goes on. -/
def serverNext (w : LanState) (k : Server) (answer : Answer) : Option LanState :=
  (serverThread k (w.info k) (w.info k.partner).status (w.point k) answer).map fun r =>
    { w with
      point := Function.update w.point k r.1
      info := Function.update (w.storeOther k) k r.2.1
      resets := Function.update w.resets k (w.resets k + (w.point k).isReset.toNat)
      log := w.log ++ r.2.2 }

/-- The functions that send: what a call does next.  `more` tells whether the loop goes on. -/
def sendNext (w : LanState) (i : ℕ) (more : Bool) : Option LanState :=
  match w.senders[i]? with
  | none => none
  | some (k, p) =>
    let goto (w : LanState) (p : SendPoint) : Option LanState :=
      some { w with senders := w.senders.set i (k, p) }
    match p with
    | .status =>
      goto w (if (w.info k).status then (if k = .cmd then .guard else .check) else .returned)
    | .guard => goto w (if (w.info k).fd < 0 then .returned else .check)
    | .check => goto w (if (w.info k).fd < 0 then .returned else .load)
    | .load => goto w (.call (w.info k).fd (w.resets k))
    | .call fd resets =>
      let fresh : Bool := 0 ≤ fd ∧ resets = w.resets k ∧ ¬(w.point k).isReset
      goto { w with log := w.log ++ [.send k fd fresh] } (if more then .check else .returned)
    | .returned => none

/-- The steps: a thread or a call goes on, or a call is made. -/
inductive Action
  | server (k : Server) (answer : Answer)
  | send (k : Server)
  | sender (i : ℕ) (more : Bool)
deriving DecidableEq, Repr

/-- The state after a step, if it is possible. -/
def next (w : LanState) : Action → Option LanState
  | .server k answer => w.serverNext k answer
  | .send k => some { w with senders := w.senders ++ [(k, .status)] }
  | .sender i more => w.sendNext i more

/-- The transition system. -/
def step (w : LanState) (a : Action) (w' : LanState) : Prop := w.next a = some w'

end LanState

end Lan

end YangIpc
