import YangIpc.Library.Run
import Mathlib.Data.Int.Notation
import Mathlib.Data.Nat.Notation
import Mathlib.Logic.Function.Basic

/-!
# Sessions of the P2P library

The core thread of `yangipc_cs2_service.c` listens for one session after the other, and reads
commands from it until that fails.  Receivers of audio read from the session whose id is in
`s_current_sessionid`.  Whoever fails to read closes the session, under a mutex; the source warns
that two threads must not close the same one.  The core writes `s_current_sessionid` and
`device_connected` without the mutex.

Every access to a shared variable is a step.  `img_status`, `aud_status` and `device_connected` are
bits of one word, so writing one of them takes two steps: the word is loaded, and it is stored with
that bit changed, and the others as they were loaded.

## Main definitions

* `Cs2Word`: the word of the statuses; `Cs2State.writeBit`: how a bit of it is written
* `ClosePoint`, `CorePoint`, `ReceiverPoint`, `TurnPoint`: where the threads are
* `Cs2State`: the shared variables and the threads; `Cs2State.next`: their steps
* `Fresh`: what the library promises of a new session
* `Apart`: no thread loads the word while another is about to store it
-/

namespace YangIpc

namespace Cs2

/-! ## The threads -/

/-- Where a thread is in `yangipc_cs2_session_close`. -/
inductive ClosePoint
  | lock
  /-- `s_current_sessionid == -1` -/
  | test
  /-- `PPCS_ForceClose(s_current_sessionid)` -/
  | force
  /-- `s_current_sessionid = -1` -/
  | reset
  /-- `device_connected == BK_TRUE` -/
  | connected
  /-- `yangipc_send_msg` -/
  | send
  /-- `device_connected = BK_FALSE` -/
  | clear
  | unlock
deriving DecidableEq, Repr

/-- The thread writes a bit of the word there. -/
def ClosePoint.writes : ClosePoint → Bool
  | clear => true
  | _ => false

/-- Where the thread of `yangipc_cs2_p2p_interface_core` is. -/
inductive CorePoint
  /-- about to allocate its buffer -/
  | start
  /-- at the condition `is_running` of the outer loop -/
  | detect
  /-- in `cs2_p2p_listen` -/
  | listen
  /-- `s_current_sessionid = session` -/
  | store (session : ℤ)
  /-- `device_connected = BK_TRUE` -/
  | connect (session : ℤ)
  | imgOn (session : ℤ)
  | audOn (session : ℤ)
  /-- in `PPCS_Read` -/
  | read (session : ℤ)
  /-- at the condition `is_running` of the inner loop -/
  | again (session : ℤ)
  | close (point : ClosePoint)
  | imgOff
  | audOff
  /-- behind the outer loop -/
  | finish
  /-- behind the `PPCS_ForceClose` there -/
  | finishReset
  | ended
deriving DecidableEq, Repr

/-- Where a thread of `yangipc_cs2_p2p_audio_receiver` is. -/
inductive ReceiverPoint
  /-- not created -/
  | absent
  /-- about to allocate its buffer -/
  | start
  /-- `rtos_set_semaphore` -/
  | signal
  /-- at the condition `aud_running` of the outer loop -/
  | loop
  /-- `0 <= s_current_sessionid` -/
  | test
  | lock
  /-- `aud_status = BK_TRUE` -/
  | status
  | unlock
  /-- in `PPCS_Read` -/
  | read
  /-- at the condition `aud_running` of the inner loop -/
  | again
  | close (point : ClosePoint)
  | statusOff
  | runningOff
  | ended
deriving DecidableEq, Repr

/-- Where a call of `yangipc_cs2_audio_state_changed` with `DB_TURN_ON` is. -/
inductive TurnPoint
  /-- not made -/
  | absent
  /-- `aud_running == BK_TRUE` -/
  | test
  /-- `aud_running = BK_TRUE` -/
  | set
  /-- `rtos_create_thread` -/
  | create
  /-- `rtos_get_semaphore` -/
  | wait
  | returned (ok : Bool)
deriving DecidableEq, Repr

/-- The thread writes a bit of the word there. -/
def CorePoint.writes : CorePoint → Bool
  | connect _ | imgOn _ | audOn _ | imgOff | audOff => true
  | close p => p.writes
  | _ => false

/-- The thread writes a bit of the word there. -/
def ReceiverPoint.writes : ReceiverPoint → Bool
  | status | statusOff => true
  | close p => p.writes
  | _ => false

/-- The point in `yangipc_cs2_session_close`. -/
def CorePoint.closing : CorePoint → Option ClosePoint
  | close p => some p
  | _ => none

/-- The point in `yangipc_cs2_session_close`. -/
def ReceiverPoint.closing : ReceiverPoint → Option ClosePoint
  | close p => some p
  | _ => none

/-- The threads that close sessions. -/
inductive Cs2Thread
  | core
  | receiver (i : ℕ)
deriving DecidableEq, Repr

/-! ## The state -/

/-- The bits of `yangipc_cs2_info_t`, which share a `uint16_t`. -/
structure Cs2Word where
  imgStatus : Bool
  audStatus : Bool
  deviceConnected : Bool
deriving DecidableEq, Repr

/-- `yangipc_cs2_info_t`, as far as the sessions go; `mutex` is its owner. -/
structure Cs2Info where
  isRunning : Bool
  audRunning : Bool
  word : Cs2Word
  mutex : Option Cs2Thread
  audSem : Bool

/-- What is observed of a run. -/
inductive Cs2Event
  /-- `DBEVT_P2P_CS2_SERVICE_START_RESPONSE` is sent -/
  | startResponse
  /-- what `PPCS_Listen` returns -/
  | listened (ret : ℤ)
  /-- `PPCS_ForceClose` is called -/
  | forceClose (session : ℤ)
  /-- `device_connected` is set -/
  | connected
  /-- `DBEVT_REMOTE_DEVICE_DISCONNECTED` is sent -/
  | disconnected
deriving DecidableEq, Repr

/-- The shared variables and the threads.  The `i`-th receiver is the one that the `i`-th call
creates. -/
structure Cs2State where
  info : Cs2Info
  /-- The words that threads have loaded to write a bit, and not stored yet. -/
  loaded : List (Cs2Thread × Cs2Word)
  currentSessionid : ℤ
  /-- The sessions that the library has opened and not closed. -/
  sessions : List ℤ
  log : List Cs2Event
  /-- The sessions whose ids were stored while a thread was about to reset the id. -/
  overlapped : List ℤ
  core : CorePoint
  receivers : ℕ → ReceiverPoint
  turns : ℕ → TurnPoint

namespace Cs2State

/-- The core thread has set `is_running`. -/
def boot : Cs2State where
  info := ⟨true, false, ⟨false, false, false⟩, none, false⟩
  loaded := []
  currentSessionid := -1
  sessions := []
  log := []
  overlapped := []
  core := .start
  receivers _ := .absent
  turns _ := .absent

/-- Where a thread is in `yangipc_cs2_session_close`. -/
def closing (w : Cs2State) : Cs2Thread → Option ClosePoint
  | .core => w.core.closing
  | .receiver i => (w.receivers i).closing

/-- The point in `yangipc_cs2_session_close` of the owner of the mutex. -/
def holderPoint (w : Cs2State) : Option ClosePoint := w.info.mutex.bind w.closing

/-! ## The word of the statuses -/

/-- A bit is written: the word is loaded first, then stored with the bit set by `set`, and the
thread goes on. -/
def writeBit (w : Cs2State) (t : Cs2Thread) (set : Cs2Word → Cs2Word)
    (goOn : Cs2State → Cs2State) : Cs2State :=
  match w.loaded.lookup t with
  | none => { w with loaded := (t, w.info.word) :: w.loaded }
  | some word =>
    goOn { w with
      info := { w.info with word := set word }
      loaded := w.loaded.filter fun x => x.1 ≠ t }

/-! ## Closing a session -/

/-- A thread goes on in `yangipc_cs2_session_close`, or returns from it. -/
def moveTo (w : Cs2State) : Cs2Thread → Option ClosePoint → Cs2State
  | .core, some p => { w with core := .close p }
  | .core, none => { w with core := .detect }
  | .receiver i, some p => { w with receivers := Function.update w.receivers i (.close p) }
  | .receiver i, none => { w with receivers := Function.update w.receivers i .statusOff }

/-- An event is observed. -/
def emit (w : Cs2State) (e : Cs2Event) : Cs2State := { w with log := w.log ++ [e] }

/-- `PPCS_ForceClose`. -/
def forceClose (w : Cs2State) (session : ℤ) : Cs2State :=
  { w.emit (.forceClose session) with sessions := w.sessions.erase session }

/-- `yangipc_cs2_session_close`: what a thread does at a point of it. -/
def yangipcCs2SessionClose (w : Cs2State) (t : Cs2Thread) : ClosePoint → Option Cs2State
  | .lock =>
    if w.info.mutex = none then
      some ({ w with info := { w.info with mutex := some t } }.moveTo t (some .test))
    else none
  | .test =>
    -- "already close"
    if w.currentSessionid = -1 then some (w.moveTo t (some .connected))
    else some (w.moveTo t (some .force))
  | .force => some ((w.forceClose w.currentSessionid).moveTo t (some .reset))
  | .reset => some ({ w with currentSessionid := -1 }.moveTo t (some .connected))
  | .connected =>
    if w.info.word.deviceConnected then some (w.moveTo t (some .send))
    else some (w.moveTo t (some .unlock))
  | .send => some ((w.emit .disconnected).moveTo t (some .clear))
  | .clear =>
    some (w.writeBit t ({ · with deviceConnected := false }) (·.moveTo t (some .unlock)))
  | .unlock => some ({ w with info := { w.info with mutex := none } }.moveTo t none)

/-! ## The core -/

/-- `cs2_p2p_listen` behind its loop: `ret` is what `PPCS_Listen` has returned. -/
def cs2P2pListen (w : Cs2State) (ret : ℤ) : Cs2State × ℤ :=
  let opened := { w.emit (.listened ret) with
    sessions := if 0 ≤ ret then ret :: w.sessions else w.sessions }
  if w.info.isRunning then (opened, ret)
  else (if 0 ≤ ret then opened.forceClose ret else opened, -1)

/-- `s_current_sessionid = session`, and the branches on `session`. -/
def storeSession (w : Cs2State) (session : ℤ) : Cs2State :=
  { w with
    currentSessionid := session
    overlapped :=
      if 0 ≤ session ∧ w.holderPoint = some .reset then session :: w.overlapped
      else w.overlapped
    core :=
      if 0 ≤ session then .connect session
      else if session = -1 then .finish
      -- with `ERROR_PPCS_MAX_SESSION` there is only a delay before this
      else .imgOff }

/-- What the library answers: whether it goes well (the buffer, `PPCS_NetworkDetect`, a read), or
what `PPCS_Listen` returns. -/
inductive PpcsAnswer
  | ok (ok : Bool)
  | listen (ret : ℤ)
deriving DecidableEq, Repr

/-- `yangipc_cs2_p2p_interface_core`: what the thread does next.  A read goes well if it brings
data or times out. -/
def coreNext (w : Cs2State) (answer : PpcsAnswer) : Option Cs2State :=
  match w.core, answer with
  | .start, .ok true => some { w.emit .startResponse with core := .detect }
  | .start, .ok false => some { w with core := .ended }
  | .detect, .ok ok =>
    if w.info.isRunning then
      if ok then some { w with core := .listen } else some { w with core := .ended }
    else some { w with core := .finish }
  | .listen, .listen ret =>
    -- `ERROR_PPCS_TIME_OUT`
    if ret = -3 ∧ w.info.isRunning then some w
    else
      let (w, session) := w.cs2P2pListen ret
      some { w with core := .store session }
  | .store session, _ => some (w.storeSession session)
  | .connect session, _ =>
    some (w.writeBit .core ({ · with deviceConnected := true })
      fun w => { w.emit .connected with core := .imgOn session })
  | .imgOn session, _ =>
    some (w.writeBit .core ({ · with imgStatus := true }) ({ · with core := .audOn session }))
  | .audOn session, _ =>
    some (w.writeBit .core ({ · with audStatus := true }) ({ · with core := .read session }))
  | .read session, .ok true => some { w with core := .again session }
  | .read _, .ok false => some { w with core := .close .lock }
  | .again session, _ =>
    if w.info.isRunning then some { w with core := .read session }
    else some { w with core := .close .lock }
  | .close p, _ => w.yangipcCs2SessionClose .core p
  | .imgOff, _ =>
    some (w.writeBit .core ({ · with imgStatus := false }) ({ · with core := .audOff }))
  | .audOff, _ =>
    some (w.writeBit .core ({ · with audStatus := false }) ({ · with core := .detect }))
  | .finish, _ =>
    if 0 ≤ w.currentSessionid then
      some { w.forceClose w.currentSessionid with core := .finishReset }
    else some { w with core := .ended }
  | .finishReset, _ => some { w with currentSessionid := -1, core := .ended }
  | _, _ => none

/-! ## The receivers of audio -/

/-- `yangipc_cs2_p2p_audio_receiver`: what a receiver does next.  `ok` says whether it gets its
buffer, and whether a read brings data or times out. -/
def receiverNext (w : Cs2State) (i : ℕ) (ok : Bool) : Option Cs2State :=
  let goto (w : Cs2State) (p : ReceiverPoint) : Option Cs2State :=
    some { w with receivers := Function.update w.receivers i p }
  let write (set : Cs2Word → Cs2Word) (p : ReceiverPoint) : Option Cs2State :=
    some (w.writeBit (.receiver i) set
      fun w => { w with receivers := Function.update w.receivers i p })
  match w.receivers i with
  | .start => goto w (if ok then .signal else .ended)
  | .signal => goto { w with info := { w.info with audSem := true } } .loop
  | .loop => goto w (if w.info.audRunning then .test else .ended)
  | .test => goto w (if 0 ≤ w.currentSessionid then .lock else .loop)
  | .lock =>
    if w.info.mutex = none then
      goto { w with info := { w.info with mutex := some (.receiver i) } } .status
    else none
  | .status => write ({ · with audStatus := true }) .unlock
  | .unlock => goto { w with info := { w.info with mutex := none } } .read
  | .read => goto w (if ok then .again else .close .lock)
  | .again => goto w (if w.info.audRunning then .read else .statusOff)
  | .close p => w.yangipcCs2SessionClose (.receiver i) p
  | .statusOff => write ({ · with audStatus := false }) .runningOff
  | .runningOff => goto { w with info := { w.info with audRunning := false } } .ended
  | .absent | .ended => none

/-- `yangipc_cs2_audio_state_changed`: what a call does next. -/
def turnNext (w : Cs2State) (i : ℕ) (ok : Bool) : Option Cs2State :=
  let goto (w : Cs2State) (p : TurnPoint) : Option Cs2State :=
    some { w with turns := Function.update w.turns i p }
  match w.turns i with
  | .absent => goto w .test
  | .test => goto w (if w.info.audRunning then .returned true else .set)
  | .set => goto { w with info := { w.info with audRunning := true } } .create
  | .create =>
    if ok then goto { w with receivers := Function.update w.receivers i .start } .wait
    else goto w (.returned false)
  | .wait =>
    if w.info.audSem then goto { w with info := { w.info with audSem := false } } (.returned true)
    else none
  | .returned _ => none

/-! ## Runs -/

/-- The steps, with the answers of the environment. -/
inductive Action
  | core (answer : PpcsAnswer)
  | receiver (i : ℕ) (ok : Bool)
  | turn (i : ℕ) (ok : Bool)
deriving DecidableEq, Repr

/-- The state after a step, if it is possible. -/
def next (w : Cs2State) : Action → Option Cs2State
  | .core answer => w.coreNext answer
  | .receiver i ok => w.receiverNext i ok
  | .turn i ok => w.turnNext i ok

/-- The transition system. -/
def step (w : Cs2State) (a : Action) (w' : Cs2State) : Prop := w.next a = some w'

/-- No thread goes to write a bit while another has loaded the word and not stored it. -/
def Apart (w : Cs2State) : Action → Prop
  | .core _ => w.core.writes = true → ∀ x ∈ w.loaded, x.1 = .core
  | .receiver i _ => (w.receivers i).writes = true → ∀ x ∈ w.loaded, x.1 = .receiver i
  | .turn _ _ => True

/-- A new session gets an id that no open session has. -/
def Fresh (w : Cs2State) : Action → Prop
  | .core (.listen ret) => ret ∉ w.sessions
  | _ => True

end Cs2State

end Cs2

end YangIpc
