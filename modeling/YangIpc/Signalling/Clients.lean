import Mathlib.Data.Nat.Notation

/-!
# The clients of the broker

`YangIpcMessage.c`, as far as the client of the MQTT library goes: `yang_ipcmessage_start` with the
loop it ends in, the thread `yang_ipcmessage_mqttc_thread`, `yang_reconnectMqtt`, which both of them
call, `yang_destroy_ipcmessage`, and the calls that send, on any threads.

An access to a field that another thread uses is a step of its own, and so is a call of the library.
What the library answers is an argument.  The pauses, and the requests that the loop of
`yang_ipcmessage_start` handles (see `Signalling.Queue`), change nothing here.

## Main definitions

* `YangIpcMessageSession`: the flags and the client
* `ReconnectPoint`, `MqttcPoint`, `CallerPoint`, `SendPoint`: where the functions are
* `yangReconnectMqtt`, `mqttcThread`, `callerThread`, `ClientState.sendNext`: what they do next
* `ClientState.step`: the transition system
-/

namespace YangIpc

namespace Signalling

/-! ## The functions -/

/-- `YangIpcMessageSession`: its flags, and the client by its number. -/
structure YangIpcMessageSession where
  isStart : Bool
  isLoop : Bool
  isMqttStart : Bool
  isMqttLoop : Bool
  isConnected : Bool
  mqtt : Option ℕ
  /-- the number of clients allocated so far -/
  allocated : ℕ
deriving DecidableEq, Repr

/-- Where `yang_reconnectMqtt` is. -/
inductive ReconnectPoint
  /-- at `if(session->mqtt)` -/
  | old
  | destroyOld
  | freeOld
  | calloc
  | create
  | setReconnectParam
  /-- at the condition `isMqttLoop` -/
  | loop
  | connect
  | subscribe
  /-- `isConnected = yangtrue` -/
  | connected
  /-- at `if(session->mqtt)` behind the loop -/
  | giveUp
  | destroyNew
  | freeNew
deriving DecidableEq, Repr

/-- Where the thread is. -/
inductive MqttcPoint
  | absent
  /-- `isMqttStart = yangtrue` -/
  | created
  | loop (isReconnect : Bool)
  | synMessage (isReconnect : Bool)
  /-- `isConnected = yangfalse` -/
  | lost (isReconnect : Bool)
  | reconnect2
  | reconnect (p : ReconnectPoint)
  | ping (isReconnect : Bool)
  /-- at `if(session->mqtt)` behind the loop -/
  | exit
  | destroy
  | free
  /-- `isMqttStart = yangfalse` -/
  | finish
  | ended
deriving DecidableEq, Repr

/-- Where the caller of `yang_ipcmessage_start` and `yang_destroy_ipcmessage` is. -/
inductive CallerPoint
  | idle
  /-- `isMqttLoop = yangtrue` -/
  | start
  | reconnect (p : ReconnectPoint)
  | threadCreate
  /-- `isStart = yangtrue` -/
  | runStart
  /-- `isLoop = yangtrue` -/
  | runLoop
  /-- at the condition `isLoop` -/
  | run
  /-- `isStart = yangfalse` -/
  | runEnd
  /-- the two assignments of `yang_ipcmessage_stop` -/
  | stopLoop
  | stopMqttLoop
  /-- at the condition `isStart||isMqttStart` -/
  | wait
  /-- at `if(session->mqtt)` -/
  | test
  | destroy
  | free
  | destroyed
deriving DecidableEq, Repr

/-- Where a call of `yang_ipcmessage_sendmsg` or `yang_ipcmessage_publish` is; when it found the
session connected, `destroys` clients had been destroyed. -/
inductive SendPoint
  /-- at the condition `isConnected` -/
  | connected
  /-- at the condition `mqtt` -/
  | mqtt (destroys : ℕ)
  /-- the field is read for a function of the client -/
  | load (destroys : ℕ)
  | call (client : Option ℕ) (destroys : ℕ)
  | returned
deriving DecidableEq, Repr

/-- What is observed: the functions of the library, with the client in their argument. -/
inductive ClientEvent
  /-- `yang_create_mqtt` -/
  | create (client : Option ℕ)
  /-- `yang_destroy_mqtt` -/
  | destroy (client : Option ℕ)
  /-- a function of the client, called where clients are created and destroyed -/
  | use (client : Option ℕ)
  /-- a function of the client, called by a call that sends; `fresh` unless a client was destroyed
  behind its test of `isConnected`, or the session has been stopped -/
  | send (client : Option ℕ) (fresh : Bool)
deriving DecidableEq, Repr

def ClientEvent.isDestroy : ClientEvent → Bool
  | destroy _ => true
  | _ => false

/-- How many clients have been destroyed. -/
def destroys (log : List ClientEvent) : ℕ := log.countP ClientEvent.isDestroy

/-- What the library and the system answer. -/
inductive ClientAnswer
  | none
  | ok (ok : Bool)
deriving DecidableEq, Repr

/-- What becomes of a call of `yang_reconnectMqtt`. -/
inductive Reconnecting
  | goes (p : ReconnectPoint)
  | returns (ok : Bool)
deriving DecidableEq, Repr

/-- `yang_reconnectMqtt`: what it does next. -/
def yangReconnectMqtt (s : YangIpcMessageSession) : ReconnectPoint → ClientAnswer →
    Option (Reconnecting × YangIpcMessageSession × List ClientEvent)
  | .old, .none => some (.goes (if s.mqtt.isSome then .destroyOld else .calloc), s, [])
  | .destroyOld, .none => some (.goes .freeOld, s, [.destroy s.mqtt])
  | .freeOld, .none => some (.goes .calloc, { s with mqtt := none }, [])
  | .calloc, .ok true =>
    some (.goes .create, { s with mqtt := some s.allocated, allocated := s.allocated + 1 }, [])
  -- the result of `yang_calloc` is not looked at, and the null pointer is followed from here on
  | .calloc, .ok false => some (.goes .create, { s with mqtt := none }, [])
  | .create, .none => some (.goes .setReconnectParam, s, [.create s.mqtt])
  | .setReconnectParam, .none => some (.goes .loop, s, [.use s.mqtt])
  | .loop, .none => some (.goes (if s.isMqttLoop then .connect else .giveUp), s, [])
  | .connect, .ok ok => some (.goes (if ok then .subscribe else .loop), s, [.use s.mqtt])
  -- the result of `subscribe` is not looked at
  | .subscribe, .ok _ => some (.goes .connected, s, [.use s.mqtt])
  | .connected, .none => some (.returns true, { s with isConnected := true }, [])
  | .giveUp, .none =>
    some (if s.mqtt.isSome then .goes .destroyNew else .returns false, s, [])
  | .destroyNew, .none => some (.goes .freeNew, s, [.destroy s.mqtt])
  | .freeNew, .none => some (.returns false, { s with mqtt := none }, [])
  | _, _ => none

/-- `yang_ipcmessage_mqttc_thread`: what it does next. -/
def mqttcThread (s : YangIpcMessageSession) : MqttcPoint → ClientAnswer →
    Option (MqttcPoint × YangIpcMessageSession × List ClientEvent)
  | .created, .none => some (.loop false, { s with isMqttStart := true }, [])
  | .loop isReconnect, .none =>
    some (if s.isMqttLoop then .synMessage isReconnect else .exit, s, [])
  | .synMessage isReconnect, .ok ok =>
    some (if ok then .ping isReconnect else .lost isReconnect, s, [.use s.mqtt])
  | .lost isReconnect, .none =>
    some (if isReconnect then .reconnect .old else .reconnect2, { s with isConnected := false }, [])
  -- the result of `reconnect2` is not looked at
  | .reconnect2, .ok _ => some (.loop true, s, [.use s.mqtt])
  | .reconnect p, answer =>
    (yangReconnectMqtt s p answer).map fun r =>
      match r.1 with
      | .goes p' => (.reconnect p', r.2)
      | .returns true => (.ping false, r.2)
      | .returns false => (.exit, r.2)
  -- only every fifty-first time
  | .ping isReconnect, .ok due => some (.loop isReconnect, s, if due then [.use s.mqtt] else [])
  | .exit, .none => some (if s.mqtt.isSome then .destroy else .finish, s, [])
  | .destroy, .none => some (.free, s, [.destroy s.mqtt])
  | .free, .none => some (.finish, { s with mqtt := none }, [])
  | .finish, .none => some (.ended, { s with isMqttStart := false }, [])
  | _, _ => none

/-- `yang_ipcmessage_start`, if it is called at all, and then `yang_destroy_ipcmessage`: what the
caller does next. -/
def callerThread (s : YangIpcMessageSession) : CallerPoint → ClientAnswer →
    Option (CallerPoint × YangIpcMessageSession × List ClientEvent)
  | .idle, .ok started => some (if started then .start else .stopLoop, s, [])
  | .start, .none => some (.reconnect .old, { s with isMqttLoop := true }, [])
  | .reconnect p, answer =>
    (yangReconnectMqtt s p answer).map fun r =>
      match r.1 with
      | .goes p' => (.reconnect p', r.2)
      | .returns true => (.threadCreate, r.2)
      | .returns false => (.stopLoop, r.2)
  -- the loop is entered without the thread as well
  | .threadCreate, .ok _ => some (.runStart, s, [])
  | .runStart, .none => some (.runLoop, { s with isStart := true }, [])
  | .runLoop, .none => some (.run, { s with isLoop := true }, [])
  | .run, .none => some (if s.isLoop then .run else .runEnd, s, [])
  | .runEnd, .none => some (.stopLoop, { s with isStart := false }, [])
  | .stopLoop, .none => some (.stopMqttLoop, { s with isLoop := false }, [])
  | .stopMqttLoop, .none => some (.wait, { s with isMqttLoop := false }, [])
  | .wait, .none => some (if s.isStart || s.isMqttStart then .wait else .test, s, [])
  | .test, .none => some (if s.mqtt.isSome then .destroy else .destroyed, s, [])
  | .destroy, .none => some (.free, s, [.destroy s.mqtt])
  | .free, .none => some (.destroyed, { s with mqtt := none }, [])
  | _, _ => none

/-! ## The system -/

/-- The session, the threads, and the calls of the library so far. -/
structure ClientState where
  session : YangIpcMessageSession
  caller : CallerPoint
  thread : MqttcPoint
  senders : List SendPoint
  log : List ClientEvent
deriving DecidableEq, Repr

namespace ClientState

/-- `yang_create_ipcmessage`. -/
def boot : ClientState := ⟨⟨false, false, false, false, false, none, 0⟩, .idle, .absent, [], []⟩

/-- The caller goes on.  The thread may be created. -/
def callerNext (w : ClientState) (answer : ClientAnswer) : Option ClientState :=
  (callerThread w.session w.caller answer).map fun r =>
    { w with
      caller := r.1
      session := r.2.1
      thread := if w.caller = .threadCreate ∧ answer = .ok true then .created else w.thread
      log := w.log ++ r.2.2 }

/-- The thread goes on. -/
def threadNext (w : ClientState) (answer : ClientAnswer) : Option ClientState :=
  (mqttcThread w.session w.thread answer).map fun r =>
    { w with thread := r.1, session := r.2.1, log := w.log ++ r.2.2 }

/-- `yang_ipcmessage_sendmsg` and `yang_ipcmessage_publish`: what a call does next.  `more` tells
whether it uses the client again. -/
def sendNext (w : ClientState) (i : ℕ) (more : Bool) : Option ClientState :=
  match w.senders[i]? with
  | none => none
  | some p =>
    let goto (w : ClientState) (p : SendPoint) : Option ClientState :=
      some { w with senders := w.senders.set i p }
    match p with
    | .connected => goto w (if w.session.isConnected then .mqtt (destroys w.log) else .returned)
    | .mqtt n => goto w (if w.session.mqtt.isSome then .load n else .returned)
    | .load n => goto w (.call w.session.mqtt n)
    | .call client n =>
      let fresh : Bool := w.session.isMqttLoop ∧ n = destroys w.log
      goto { w with log := w.log ++ [.send client fresh] } (if more then .load n else .returned)
    | .returned => none

/-- The steps: a thread or a call goes on, a call is made, one of the assignments of
`yang_ipcmessage_stop` is made on another thread, or the library reports an error. -/
inductive Action
  | caller (answer : ClientAnswer)
  | thread (answer : ClientAnswer)
  | send
  | sender (i : ℕ) (more : Bool)
  | stopLoop
  | stopMqttLoop
  | connectError
deriving DecidableEq, Repr

/-- The state after a step, if it is possible. -/
def next (w : ClientState) : Action → Option ClientState
  | .caller answer => w.callerNext answer
  | .thread answer => w.threadNext answer
  | .send => some { w with senders := w.senders ++ [.connected] }
  | .sender i more => w.sendNext i more
  | .stopLoop => some { w with session := { w.session with isLoop := false } }
  | .stopMqttLoop => some { w with session := { w.session with isMqttLoop := false } }
  -- `yang_ipcmessage_mqtt_connect_error`
  | .connectError => some { w with session := { w.session with isConnected := false } }

/-- The transition system. -/
def step (w : ClientState) (a : Action) (w' : ClientState) : Prop := w.next a = some w'

end ClientState

end Signalling

end YangIpc
