import YangIpc.Signalling.Messages

/-!
# The signalling server

`YangIpcMessageServer.c` handles one request after the other, and a timer ends a session that has
not pinged for half a minute.  A session is the client id of the last login and the uid that was
assigned to it.  What the callbacks, the clock and the message broker do is an argument of each
call; what the server does is a list of events.

A request without data makes `yang_ipcmessage_answer` measure an absent string; this is an event of
its own, and nothing follows it.

## Main definitions

* `ServerSession`, `ServerEvent`: the state of the server and what is observed of it
* `yangIpcmessageHandleMessage`, `yangCheckLive`: the functions
* `ServerInput`, `ServerSession.step`, `ServerSession.run`: runs of requests and ticks
-/

namespace YangIpc

namespace Signalling

open Bytes (CString)

/-- `YangConnCid`. -/
structure YangConnCid where
  isConnected : Bool
  uid : Int32
  ts : UInt64
  cid : Cid
deriving DecidableEq

/-- What the server keeps between two calls: `connCid`, and `uidSeq` of the message session. -/
structure ServerSession where
  connCid : YangConnCid
  uidSeq : UInt32
deriving DecidableEq

/-- The callbacks that are set, of `YangIpcHandle` and `YangIpcDataMsg`. -/
structure YangIpcHandle where
  addPeer : Bool
  addPeer2 : Bool
  setLocalDescription : Bool
  setRemoteDescription : Bool
  addCandidate : Bool
  close : Bool
  receiveMsg : Bool
deriving DecidableEq

/-- What a call finds. -/
structure Surroundings where
  /-- `yang_get_system_time`. -/
  time : UInt64
  /-- Whether the message session is connected and has a broker. -/
  online : Bool
  /-- `getClientId`. -/
  clientId : Option Cid
  /-- What `addPeer` writes. -/
  answer : CString
  /-- What `addPeer2` writes. -/
  sdp : Option CString
deriving DecidableEq

/-- What is observed of a call. -/
inductive ServerEvent
  | addPeer (sdp : CString) (uid : Int32)
  | addPeer2 (uid : Int32)
  | setLocalDescription (sdp : CString) (uid : Int32)
  | setRemoteDescription (sdp : Option CString) (uid : Int32)
  | addCandidate (uid : Int32) (candidate : Option CString)
  | receiveMsg (uid : Int32) (data : CString)
  | close (uid : Int32)
  /-- the new session is stored, under the lock -/
  | install (connCid : YangConnCid)
  | publish (topic : CString) (request : YangIpcRequest)
  /-- `yang_strlen` of an absent string -/
  | strlenOfNull
deriving DecidableEq

variable (handle : YangIpcHandle) (around : Surroundings) (session : ServerSession)
  (mss : YangIpcRequest)

/-! ## Replies -/

/-- The topic of a client: its id, or the common one. -/
def Cid.topic (cid : Cid) : CString := if cid.isEmpty then yangTopicClient else cid.text

/-- `yang_ipcmessage_sendmsg`, and whether it succeeds.  An empty client id is replaced by the own
one of the broker's session. -/
def yangIpcmessageSendmsg (topic : CString) (request : YangIpcRequest) :
    List ServerEvent × Bool :=
  if around.online then
    let request :=
      if request.cid.isEmpty then { request with cid := around.clientId.getD request.cid }
      else request
    ([.publish topic request], true)
  else ([], false)

/-- `session->request`, filled in for a reply to `mss` and its client id. -/
def reply (connectType : YangIpcConnectType) (requestType : YangIpcRequestType) (uid : Int32)
    (data : Option CString) : YangIpcRequest :=
  ⟨connectType, requestType, uid, 0, mss.cid, data, none⟩

/-! ## The requests of a session -/

/-- `yang_ipcmessage_answer`. -/
def yangIpcmessageAnswer : List ServerEvent :=
  if handle.addPeer then
    match mss.data with
    | none => [.strlenOfNull]
    | some sdp =>
      let sent := yangIpcmessageSendmsg around mss.cid.topic
        (reply mss .p2p .answer mss.uid (some around.answer))
      .addPeer sdp mss.uid :: sent.1 ++
        if sent.2 && handle.setLocalDescription then
          [.setLocalDescription around.answer mss.uid]
        else []
  else []

/-- `yang_ipcmessage_connect`. -/
def yangIpcmessageConnect : List ServerEvent :=
  if handle.addPeer2 then
    .addPeer2 mss.uid ::
      match around.sdp with
      | none => []
      | some sdp =>
        (yangIpcmessageSendmsg around mss.cid.topic
          (reply mss .p2p .connectSdp mss.uid (some sdp))).1
  else []

/-- `yang_ipcmessage_response`. -/
def yangIpcmessageResponse : List ServerEvent :=
  if handle.setRemoteDescription then [.setRemoteDescription mss.data mss.uid] else []

/-- `yang_ipcmessage_candidate`. -/
def yangIpcmessageCandidate : List ServerEvent :=
  if handle.addCandidate then [.addCandidate mss.uid mss.data] else []

/-- `yang_ipcmessage_handleMessage_ping`. -/
def yangIpcmessageHandleMessagePing : ServerSession :=
  if session.connCid.isConnected then
    { session with connCid := { session.connCid with ts := around.time } }
  else session

/-- `yang_ipcmessage_handleMessage_p2p`. -/
def yangIpcmessageHandleMessageP2p : ServerSession × List ServerEvent :=
  if mss.requestType = .connect then (session, yangIpcmessageConnect handle around mss)
  else if mss.requestType = .connectSdp then (session, yangIpcmessageAnswer handle around mss)
  else if mss.requestType = .answer then (session, yangIpcmessageResponse handle mss)
  else if mss.requestType = .candidate then (session, yangIpcmessageCandidate handle mss)
  else if mss.requestType = .ping then (yangIpcmessageHandleMessagePing around session, [])
  else (session, [])

/-- `yang_ipcmessage_handleMessage_close`. -/
def yangIpcmessageHandleMessageClose : List ServerEvent :=
  if handle.close then [.close mss.uid] else []

/-- `yang_ipcmessage_handleMessage_data`. -/
def yangIpcmessageHandleMessageData : List ServerEvent :=
  match mss.data with
  | none => []
  | some data => if handle.receiveMsg then [.receiveMsg mss.uid data] else []

/-- `yang_ipcmessage_handleMessage_user`: the request is sent on. -/
def yangIpcmessageHandleMessageUser : List ServerEvent :=
  (yangIpcmessageSendmsg around mss.cid.topic { mss with connectType := .p2p }).1

/-! ## Login and verification -/

/-- The session that a login begins. -/
def loginConnCid : YangConnCid := ⟨true, session.uidSeq.toInt32, around.time, mss.cid⟩

/-- `yang_ipcmessage_handleMessage_login`. -/
def yangIpcmessageHandleMessageLogin : ServerSession × List ServerEvent :=
  let connCid := loginConnCid around session mss
  (⟨connCid, session.uidSeq + 1⟩,
    (if handle.close then [.close session.connCid.uid] else []) ++ .install connCid ::
      (yangIpcmessageSendmsg around mss.cid.topic
        (reply mss mss.connectType .loginResponse connCid.uid none)).1)

/-- `yang_ipcmessage_handleMessage_verify`: the reply it sends, or `none` if the request belongs
to the session. -/
def yangIpcmessageHandleMessageVerify : Option (List ServerEvent) :=
  if session.connCid.isConnected then
    if session.connCid.cid.compared = mss.cid.compared then none
    else some (yangIpcmessageSendmsg around mss.cid.topic
      (reply mss mss.connectType .notLogin mss.uid none)).1
  else some []

/-- `yang_ipcmessage_handleMessage`. -/
def yangIpcmessageHandleMessage : ServerSession × List ServerEvent :=
  if mss.requestType = .login then yangIpcmessageHandleMessageLogin handle around session mss
  else
    match yangIpcmessageHandleMessageVerify around session mss with
    | some refusal => (session, refusal)
    | none =>
      if mss.connectType = .user then (session, yangIpcmessageHandleMessageUser around mss)
      else if mss.requestType = .close then (session, yangIpcmessageHandleMessageClose handle mss)
      else if mss.connectType = .p2p then
        yangIpcmessageHandleMessageP2p handle around session mss
      else if mss.connectType = .datachannel then
        (session, yangIpcmessageHandleMessageData handle mss)
      else (session, [])

/-! ## The timer -/

/-- `Yang_LiveTime_Second`. -/
def yangLiveTimeSecond : Int32 := 30

/-- The seconds since the last ping, in 32 bits. -/
def secondsSincePing (time : UInt64) : Int32 :=
  ((time - session.connCid.ts) / (1000 * 1000)).toUInt32.toInt32

/-- `yang_checkLive`. -/
def yangCheckLive (time : UInt64) : ServerSession × List ServerEvent :=
  if session.connCid.isConnected then
    if secondsSincePing session time > yangLiveTimeSecond then
      ({ session with connCid := { session.connCid with isConnected := false } },
        if handle.close then [.close session.connCid.uid] else [])
    else (session, [])
  else (session, [])

/-! ## Runs -/

/-- A call of the server. -/
inductive ServerInput
  | message (around : Surroundings) (mss : YangIpcRequest)
  | tick (time : UInt64)
deriving DecidableEq

/-- `yang_create_ipcmessageServer`: the session is cleared, and uids begin at ten. -/
def ServerSession.start : ServerSession := ⟨⟨false, 0, 0, .replicate yangCidLength 0⟩, 10⟩

/-- One call. -/
def ServerSession.step : ServerInput → ServerSession × List ServerEvent
  | .message around mss => yangIpcmessageHandleMessage handle around session mss
  | .tick time => yangCheckLive handle session time

/-- The state and the events after a list of calls. -/
def ServerSession.run : ServerSession → List ServerInput → ServerSession × List ServerEvent
  | session, [] => (session, [])
  | session, input :: rest =>
    let r := session.step handle input
    let r' := run r.1 rest
    (r'.1, r.2 ++ r'.2)

end Signalling

end YangIpc
