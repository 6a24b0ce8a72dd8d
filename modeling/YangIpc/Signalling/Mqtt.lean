import YangIpc.Library.Run
import YangIpc.Signalling.Server

/-!
# The connection to the broker

The thread of `YangIpcMessage.c` that exchanges messages with the broker.  When an exchange fails,
it first lets the client library reconnect, and only when the next exchange fails as well, it
creates the client anew and connects until that succeeds.  The senders look at the flag
`isConnected`, which is cleared by every failure and set by the second kind of recovery only.

The client library is outside of the repository: the results of its functions are arguments.  Its
error callback, which clears the flag as well, is not called.

## Main definitions

* `MqttSession`, `MqttPoint`, `MqttState`: the flags, the points of the thread, the state
* `MqttState.next`: the steps of the thread, with the results they find
* `SendsAfterSync`: after a successful exchange the senders do not refuse
* `NotRecovering`: a successful exchange does not follow the first kind of recovery

## Main results

* `sends_may_be_refused`: an exchange that succeeds while the senders refuse
* `sends_after_sync_iff`: the runs in which the senders never refuse after a successful exchange
-/

namespace YangIpc

namespace Signalling

open Transition
open Bytes (CString)

/-- `YangIpcMessageSession`, as far as the thread and the senders use it. -/
structure MqttSession where
  isMqttStart : Bool
  isMqttLoop : Bool
  isConnected : Bool
  /-- `mqtt` is not null. -/
  mqtt : Bool
deriving DecidableEq, Repr

/-- Where the thread is. -/
inductive MqttPoint
  /-- at the loop of `yang_reconnectMqtt`, called by `yang_ipcmessage_start` -/
  | starting
  /-- before the first instruction of the thread -/
  | created
  /-- at the condition of its loop -/
  | loop
  /-- right after `synMessage`, which has succeeded or not -/
  | synced (ok : Bool)
  /-- at the loop of `yang_reconnectMqtt`, called by the thread -/
  | connecting
  /-- the thread has ended, or was not created -/
  | ended
deriving DecidableEq, Repr

/-- The session and the thread. -/
structure MqttState where
  session : MqttSession
  point : MqttPoint
  isReconnect : Bool
deriving DecidableEq, Repr

/-- What happens next; the results are those of the client library. -/
inductive MqttAction
  | synMessage (ok : Bool)
  | reconnect2 (ok : Bool)
  /-- `connect`, and `subscribe` when it succeeds -/
  | connect (ok subscribed : Bool)
  /-- the other instructions of the thread -/
  | proceed
  /-- `yang_ipcmessage_stop` -/
  | stop
deriving DecidableEq, Repr

/-- `yang_reconnectMqtt` has connected: it subscribes and sets the flag. -/
def MqttSession.connected (session : MqttSession) : MqttSession :=
  { session with isConnected := true }

/-- The client is destroyed, by `yang_reconnectMqtt` when it gives up and by the thread at its
end. -/
def MqttSession.destroyed (session : MqttSession) : MqttSession := { session with mqtt := false }

/-- The state after a step, if it is the next one.  The pause between two exchanges, and the ping
after fifty of them, change nothing here. -/
def MqttState.next (s : MqttState) : MqttAction → Option MqttState
  | .stop => some { s with session := { s.session with isMqttLoop := false } }
  | .synMessage ok =>
    if s.point = .loop ∧ s.session.isMqttLoop = true then some { s with point := .synced ok }
    else none
  | .reconnect2 _ =>
    -- the first failure: the result is not looked at
    if s.point = .synced false ∧ s.isReconnect = false then
      some ⟨{ s.session with isConnected := false }, .loop, true⟩
    else none
  | .connect ok _ =>
    -- the result of `subscribe` is not looked at either
    if s.session.isMqttLoop = true then
      match s.point with
      | .starting =>
        if ok then some { s with session := s.session.connected, point := .created } else some s
      | .connecting =>
        if ok then some ⟨s.session.connected, .loop, false⟩ else some s
      | _ => none
    else none
  | .proceed =>
    match s.point with
    | .created => some ⟨{ s.session with isMqttStart := true }, .loop, false⟩
    | .synced true => some { s with point := .loop }
    | .synced false =>
      -- the second failure: the client is created anew
      if s.isReconnect then
        some { s with
          session := { s.session with isConnected := false, mqtt := true }, point := .connecting }
      else none
    | .starting | .connecting | .loop =>
      -- stopped: `yang_reconnectMqtt` gives up, and the thread ends
      if s.session.isMqttLoop = false then
        some { s with
          session := { s.session.destroyed with isMqttStart := false }, point := .ended }
      else none
    | .ended => none

/-- The state after an action; one that is not the next changes nothing. -/
def MqttState.after (s : MqttState) (a : MqttAction) : MqttState := (s.next a).getD s

/-- `yang_ipcmessage_start` has created the client and is about to connect. -/
def MqttState.start : MqttState := ⟨⟨false, true, false, true⟩, .starting, false⟩

/-! ## The senders -/

/-- What `yang_ipcmessage_sendmsg` and `yang_ipcmessage_publish` look at. -/
def MqttSession.online (session : MqttSession) : Bool := session.isConnected && session.mqtt

/-- `yang_ipcmessage_publish`: the result of the client library, or `none` for the error. -/
def yangIpcmessagePublish {α : Type} (session : MqttSession) (publish : α) : Option α :=
  if session.isConnected && session.mqtt then some publish else none

/-- Both senders hand messages to the broker. -/
def Sends (session : MqttSession) : Prop :=
  (∀ (around : Surroundings) (topic : CString) (request : YangIpcRequest),
    (yangIpcmessageSendmsg { around with online := session.online } topic request).2 = true) ∧
  yangIpcmessagePublish session () ≠ none

theorem sends_iff {session : MqttSession} : Sends session ↔ session.online = true := by
  constructor
  · rintro ⟨-, hpublish⟩
    by_contra hoffline
    exact hpublish (if_neg hoffline)
  · intro honline
    refine ⟨fun around topic request => ?_, ?_⟩
    · rw [yangIpcmessageSendmsg, if_pos honline]
    · rw [yangIpcmessagePublish]
      show (if session.online = true then some () else none) ≠ none
      rw [if_pos honline]
      exact Option.some_ne_none ()

/-- After a successful exchange, the senders do not refuse. -/
def SendsAfterSync (s : MqttState) (a : MqttAction) : Prop :=
  a = .synMessage true → ∀ t, s.next a = some t → Sends t.session

/-- A successful exchange comes when the last failure, if any, was answered by a new client. -/
def NotRecovering (s : MqttState) (a : MqttAction) : Prop :=
  a = .synMessage true → ∀ t, s.next a = some t → s.isReconnect = false

/-! ## The flags -/

/-- The flags at each point of the thread. -/
def Flags (s : MqttState) : Prop :=
  match s.point with
  | .starting => s.session.mqtt = true ∧ s.isReconnect = false
  | .created => s.session.mqtt = true ∧ s.session.isConnected = true ∧ s.isReconnect = false
  | .loop => s.session.mqtt = true ∧ s.session.isConnected = !s.isReconnect
  | .synced _ => s.session.mqtt = true ∧ s.session.isConnected = !s.isReconnect
  | .connecting => s.session.mqtt = true
  | .ended => True

/-- **One step.** The flag of the senders is set while `isReconnect` is not. -/
theorem Flags.next {s t : MqttState} {a : MqttAction} (h : Flags s) (hnext : s.next a = some t) :
    Flags t := by
  obtain ⟨session, point, isReconnect⟩ := s
  cases a with
  | stop =>
    obtain rfl := Option.some.inj hnext
    exact h
  | synMessage ok =>
    obtain ⟨⟨hpoint, -⟩, ht⟩ := Option.ite_none_right_eq_some.mp hnext
    obtain rfl : point = .loop := hpoint
    obtain rfl := Option.some.inj ht
    exact h
  | reconnect2 ok =>
    obtain ⟨⟨hpoint, -⟩, ht⟩ := Option.ite_none_right_eq_some.mp hnext
    obtain rfl : point = .synced false := hpoint
    obtain rfl := Option.some.inj ht
    exact ⟨h.1, rfl⟩
  | connect ok subscribed =>
    obtain ⟨-, ht⟩ := Option.ite_none_right_eq_some.mp hnext
    cases point with
    | starting =>
      cases ok with
      | true =>
        obtain rfl := Option.some.inj ht
        exact ⟨h.1, rfl, h.2⟩
      | false =>
        obtain rfl := Option.some.inj ht
        exact h
    | connecting =>
      cases ok with
      | true =>
        obtain rfl := Option.some.inj ht
        exact ⟨h, rfl⟩
      | false =>
        obtain rfl := Option.some.inj ht
        exact h
    | created | loop | synced ok | ended => exact absurd ht (Option.some_ne_none t).symm
  | proceed =>
    cases point with
    | created =>
      obtain rfl := Option.some.inj hnext
      exact ⟨h.1, h.2.1⟩
    | synced ok =>
      cases ok with
      | true =>
        obtain rfl := Option.some.inj hnext
        exact h
      | false =>
        obtain ⟨-, ht⟩ := Option.ite_none_right_eq_some.mp hnext
        obtain rfl := Option.some.inj ht
        rfl
    | starting | connecting | loop =>
      obtain ⟨-, ht⟩ := Option.ite_none_right_eq_some.mp hnext
      obtain rfl := Option.some.inj ht
      trivial
    | ended => exact absurd hnext (Option.some_ne_none t).symm

theorem Flags.after {s : MqttState} (h : Flags s) (a : MqttAction) : Flags (s.after a) := by
  unfold MqttState.after
  cases hnext : s.next a with
  | none => exact h
  | some t => exact h.next hnext

/-- **One exchange.** After it succeeded, the senders do not refuse if and only if it does not
follow the first kind of recovery. -/
theorem Flags.sendsAfterSync_iff {s : MqttState} {a : MqttAction} (h : Flags s) :
    SendsAfterSync s a ↔ NotRecovering s a := by
  refine forall_congr' fun ha => forall_congr' fun t => forall_congr' fun hnext => ?_
  subst ha
  have hflags := h.next hnext
  obtain ⟨-, ht⟩ := Option.ite_none_right_eq_some.mp hnext
  obtain rfl := Option.some.inj ht
  obtain ⟨hmqtt, hconnected⟩ := hflags
  rw [sends_iff, MqttSession.online, hmqtt, hconnected, Bool.and_true, Bool.not_eq_true']

/-- **The senders may refuse.** An exchange fails, the client library reconnects, and the next
exchange succeeds; but the flag of the senders stays cleared. -/
theorem sends_may_be_refused :
    ¬∀ actions : List MqttAction, Along MqttState.after SendsAfterSync .start actions := by
  intro h
  obtain ⟨-, -, -, -, hlast, -⟩ :=
    h [.connect true true, .proceed, .synMessage false, .reconnect2 true, .synMessage true]
  have hsends := hlast rfl _ rfl
  exact absurd (sends_iff.mp hsends) (by decide)

/-- **The senders refuse after the first kind of recovery only.** In every run, they do not refuse
after any successful exchange if and only if every successful exchange comes while `isReconnect`
is not set. -/
theorem sends_after_sync_iff (actions : List MqttAction) :
    Along MqttState.after SendsAfterSync .start actions ↔
      Along MqttState.after NotRecovering .start actions :=
  along_congr (B := Flags) (fun _ hs _ _ => hs.sendsAfterSync_iff) (fun _ hs a _ _ => hs.after a) _
    ⟨rfl, rfl⟩

end Signalling

end YangIpc
