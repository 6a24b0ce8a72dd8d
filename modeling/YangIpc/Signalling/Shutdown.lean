import YangIpc.Library.Progress
import YangIpc.Library.Trace
import YangIpc.Signalling.Clients

/-!
# The end of a session

A client of the library is created by `yang_ipcmessage_start`, replaced by the thread when the
connection is lost, and destroyed by whoever ends last.  As long as every client can be allocated,
and the thread has begun when `yang_destroy_ipcmessage` looks for it, every client is destroyed
once, and nothing but a call that sends uses one that is destroyed.  In any case
`yang_destroy_ipcmessage` does not wait forever.

## Main definitions

* `Ledger`, `ledger`: a monitor of the clients
* `ClientState.Lawful`: what is assumed of the threads and the memory
* `InCharge`: who has the client
* `Kept`, `Flagged`: the invariants, with these assumptions and without

## Main results

* `clients_are_destroyed_once`: the clients
* `sends_find_their_client`: the calls that send
* `destroy_returns`: the wait of `yang_destroy_ipcmessage`
-/

namespace YangIpc

namespace Signalling

open Transition Trace

/-! ## Monitor -/

/-- How many clients have been created, and the one that is not destroyed. -/
structure Ledger where
  created : ℕ
  live : Option ℕ
deriving DecidableEq, Repr

/-- What an event means for the clients; `none` if it must not occur.  There is one client at most,
and only this one is used and destroyed where clients are. -/
def ledgerStep : Option Ledger → ClientEvent → Option Ledger
  | some l, .create c =>
    if l.live = none ∧ c = some l.created then some ⟨l.created + 1, c⟩ else none
  | some l, .destroy c => if c.isSome ∧ c = l.live then some { l with live := none } else none
  | some l, .use c => if c.isSome ∧ c = l.live then some l else none
  | some l, .send _ _ => some l
  | none, _ => none

/-- The clients behind a trace. -/
def ledger (log : List ClientEvent) : Option Ledger := observe ledgerStep (some ⟨0, none⟩) log

theorem destroys_append {log l : List ClientEvent} :
    destroys (log ++ l) = destroys log + destroys l := List.countP_append

/-- The thread has begun when `yang_destroy_ipcmessage` looks for it, and `yang_calloc` succeeds. -/
def ClientState.Lawful (w : ClientState) : ClientState.Action → Prop
  | .caller answer => (w.caller = .wait → w.thread ≠ .created) ∧
      (w.caller = .reconnect .calloc → answer ≠ .ok false)
  | .thread answer => w.thread = .reconnect .calloc → answer ≠ .ok false
  | _ => True

/-! ## Who has the client -/

/-- There is no client. -/
def NoClient (s : YangIpcMessageSession) (l : Ledger) : Prop :=
  s.mqtt = none ∧ l = ⟨s.allocated, none⟩

/-- There is one, and the field has it. -/
def HasClient (s : YangIpcMessageSession) (l : Ledger) : Prop :=
  s.mqtt.isSome ∧ l = ⟨s.allocated, s.mqtt⟩

/-- The field has one that is not created yet. -/
def Allocated (s : YangIpcMessageSession) (l : Ledger) : Prop :=
  s.mqtt = some l.created ∧ s.allocated = l.created + 1 ∧ l.live = none

/-- The field still has the last one. -/
def Destroyed (s : YangIpcMessageSession) (l : Ledger) : Prop :=
  s.mqtt.isSome ∧ l = ⟨s.allocated, none⟩

/-- There is none, and the session is stopped, or there is one. -/
def MayHaveClient (s : YangIpcMessageSession) (l : Ledger) : Prop :=
  NoClient s l ∧ s.isMqttLoop = false ∨ HasClient s l

/-- What `yang_reconnectMqtt` has where it is. -/
def ReconnectPoint.Has (s : YangIpcMessageSession) (l : Ledger) : ReconnectPoint → Prop
  | old => NoClient s l ∨ HasClient s l
  | destroyOld | setReconnectParam | loop | connect | subscribe | connected => HasClient s l
  | freeOld => Destroyed s l
  | calloc => NoClient s l
  | create => Allocated s l
  | giveUp | destroyNew => HasClient s l ∧ s.isMqttLoop = false
  | freeNew => Destroyed s l ∧ s.isMqttLoop = false

/-- What the thread has where it is, and its flags. -/
def MqttcPoint.Has (s : YangIpcMessageSession) (l : Ledger) : MqttcPoint → Prop
  | absent => s.isMqttStart = false
  | created => HasClient s l ∧ s.isMqttStart = false
  | loop _ | synMessage _ | lost _ | ping _ => HasClient s l ∧ s.isMqttStart = true
  | reconnect2 => HasClient s l ∧ s.isMqttStart = true ∧ s.isConnected = false
  | reconnect p => p.Has s l ∧ s.isMqttStart = true ∧ s.isConnected = false
  | exit => MayHaveClient s l ∧ s.isMqttStart = true ∧ s.isMqttLoop = false
  | destroy => HasClient s l ∧ s.isMqttStart = true ∧ s.isMqttLoop = false
  | free => Destroyed s l ∧ s.isMqttStart = true ∧ s.isMqttLoop = false
  | finish => NoClient s l ∧ s.isMqttStart = true ∧ s.isMqttLoop = false
  | ended => NoClient s l ∧ s.isMqttStart = false ∧ s.isMqttLoop = false

/-- What the caller has without a thread. -/
def CallerPoint.Has (s : YangIpcMessageSession) (l : Ledger) : CallerPoint → Prop
  | idle | start => NoClient s l ∧ s.isConnected = false
  | reconnect p => p.Has s l ∧ s.isConnected = false
  | threadCreate | runStart | runLoop | run | runEnd => HasClient s l
  | stopLoop | stopMqttLoop | wait | test => MayHaveClient s l
  | destroy => HasClient s l
  | free => Destroyed s l
  | destroyed => NoClient s l

/-- The thread may be at work. -/
def CallerPoint.Working : CallerPoint → Prop
  | runStart | runLoop | run | runEnd | stopLoop | stopMqttLoop | wait => True
  | _ => False

/-- The thread may have ended. -/
def CallerPoint.Behind : CallerPoint → Prop
  | runStart | runLoop | run | runEnd | stopLoop | stopMqttLoop | wait | test | destroyed => True
  | _ => False

/-- The caller has passed the assignments of `yang_ipcmessage_stop`. -/
def CallerPoint.Stopped : CallerPoint → Prop
  | wait | test | destroy | free | destroyed => True
  | _ => False

/-- The caller has not begun yet. -/
def CallerPoint.Early : CallerPoint → Prop
  | idle | start => True
  | _ => False

/-- The caller has set `isStart`. -/
def CallerPoint.Running : CallerPoint → Prop
  | runLoop | run | runEnd => True
  | _ => False

/-- Where the two are, and what they have. -/
structure InCharge (caller : CallerPoint) (thread : MqttcPoint) (s : YangIpcMessageSession)
    (l : Ledger) : Prop where
  has : thread.Has s l
  alone : thread = .absent → caller.Has s l
  apart : thread = .ended → caller.Behind
  together : thread ≠ .absent → thread ≠ .ended → caller.Working
  stopped : caller.Stopped ∨ caller = .idle → s.isMqttLoop = false
  running : s.isStart = true → caller.Running

/-- What is known of a call that sends. -/
def SendPoint.Fits (caller : CallerPoint) (s : YangIpcMessageSession) (l : Ledger) (d : ℕ) :
    SendPoint → Prop
  | connected | returned => True
  | mqtt n | load n => ¬caller.Early ∧ n ≤ d ∧ (s.isMqttLoop = true → n = d → HasClient s l)
  | call c n => ¬caller.Early ∧ n ≤ d ∧
      (s.isMqttLoop = true → n = d → HasClient s l ∧ c = s.mqtt)

/-- A client that is used in time is the one that is not destroyed. -/
def SendOk (log : List ClientEvent) : ClientEvent → Prop
  | .send c true => ∃ l ∈ ledger log, c.isSome ∧ c = l.live
  | _ => True

/-- The invariant. -/
structure Kept (w : ClientState) : Prop where
  charge : ∃ l ∈ ledger w.log, InCharge w.caller w.thread w.session l ∧
    ∀ q ∈ w.senders, q.Fits w.caller w.session l (destroys w.log)
  sends : Always SendOk w.log

/-! ## The steps of the functions -/

variable {s s' : YangIpcMessageSession} {l l' : Ledger} {ev log : List ClientEvent}
  {answer : ClientAnswer} {w w' : ClientState}

/-- What a step leaves to the calls that send: the client stays unless it is destroyed. -/
structure Told (s : YangIpcMessageSession) (l : Ledger) (s' : YangIpcMessageSession) (l' : Ledger)
    (ev : List ClientEvent) : Prop where
  told : ev.foldl ledgerStep (some l) = some l'
  kept : HasClient s l → destroys ev = 0 → HasClient s' l' ∧ s'.mqtt = s.mqtt
  quiet : ∀ e ∈ ev, ∀ log, SendOk log e

/-- The field and the clients stay. -/
theorem Told.same (hmqtt : s'.mqtt = s.mqtt) (hallocated : s'.allocated = s.allocated) :
    Told s l s' l [] := by
  refine ⟨rfl, fun h _ => ⟨?_, hmqtt⟩, by simp⟩
  rw [HasClient, hmqtt, hallocated]
  exact h

/-- The field changes when there is no client. -/
theorem Told.change (h : ¬HasClient s l) : Told s l s' l [] :=
  ⟨rfl, fun hclient => absurd hclient h, by simp⟩

theorem Told.use (h : HasClient s l) : Told s l s l [.use s.mqtt] := by
  refine ⟨if_pos ⟨h.1, by rw [h.2]⟩, fun _ _ => ⟨h, rfl⟩, ?_⟩
  simp [SendOk]

theorem Told.destroy (h : HasClient s l) :
    Told s l s { l with live := none } [.destroy s.mqtt] ∧
      Destroyed s { l with live := none } := by
  refine ⟨⟨if_pos ⟨h.1, by rw [h.2]⟩, fun _ hnone => ?_, by simp [SendOk]⟩, h.1, by rw [h.2]⟩
  exact absurd hnone Nat.one_ne_zero

theorem Told.create (h : Allocated s l) :
    Told s l s ⟨l.created + 1, s.mqtt⟩ [.create s.mqtt] ∧ HasClient s ⟨l.created + 1, s.mqtt⟩ := by
  obtain ⟨hmqtt, hallocated, hlive⟩ := h
  refine ⟨⟨if_pos ⟨hlive, hmqtt⟩, fun hclient _ => ?_, by simp [SendOk]⟩, ?_, ?_⟩
  · have := congrArg Ledger.created hclient.2
    simp only at this
    omega
  · rw [hmqtt]
    rfl
  · rw [hallocated]

theorem Destroyed.not_hasClient (h : Destroyed s l) : ¬HasClient s l := fun hclient => by
  have hlive : none = s.mqtt := congrArg Ledger.live (h.2.symm.trans hclient.2)
  have hsome := h.1
  rw [← hlive] at hsome
  exact Bool.false_ne_true hsome

theorem NoClient.not_hasClient (h : NoClient s l) : ¬HasClient s l := fun hclient => by
  have hsome := hclient.1
  rw [h.1] at hsome
  exact Bool.false_ne_true hsome

/-- The field is reset behind the destruction. -/
theorem Destroyed.free (h : Destroyed s l) :
    Told s l { s with mqtt := none } l [] ∧ NoClient { s with mqtt := none } l :=
  ⟨.change h.not_hasClient, rfl, h.2⟩

/-- What `yang_reconnectMqtt` has when it returns. -/
def Reconnecting.Has (s : YangIpcMessageSession) (l : Ledger) : Reconnecting → Prop
  | goes p => p.Has s l ∧ s.isConnected = false
  | returns true => HasClient s l
  | returns false => NoClient s l ∧ s.isMqttLoop = false

/-- **A step of `yang_reconnectMqtt`.** -/
theorem ReconnectPoint.Has.step {p : ReconnectPoint} {r : Reconnecting} (h : p.Has s l)
    (hcalloc : p = .calloc → answer ≠ .ok false) (hconnected : s.isConnected = false)
    (hstep : yangReconnectMqtt s p answer = some (r, s', ev)) :
    ∃ l', Told s l s' l' ev ∧ r.Has s' l' ∧ s'.isMqttStart = s.isMqttStart ∧
      s'.isMqttLoop = s.isMqttLoop := by
  revert hstep
  fun_cases yangReconnectMqtt s p answer <;> intro hstep
  all_goals
    simp only [Option.some.injEq, Prod.mk.injEq, reduceCtorEq] at hstep
    try obtain ⟨rfl, rfl, rfl⟩ := hstep
    try simp only [ReconnectPoint.Has] at h
  -- `old`
  · refine ⟨l, .same rfl rfl, ⟨?_, hconnected⟩, rfl, rfl⟩
    grind [ReconnectPoint.Has, NoClient, HasClient]
  · exact ⟨_, (Told.destroy h).1, ⟨(Told.destroy h).2, hconnected⟩, rfl, rfl⟩
  · exact ⟨l, h.free.1, ⟨h.free.2, hconnected⟩, rfl, rfl⟩
  -- `calloc`
  · refine ⟨l, .change h.not_hasClient, ⟨?_, hconnected⟩, rfl, rfl⟩
    obtain ⟨-, rfl⟩ := h
    exact ⟨rfl, rfl, rfl⟩
  · exact absurd rfl (hcalloc rfl)
  · exact ⟨_, (Told.create h).1, ⟨(Told.create h).2, hconnected⟩, rfl, rfl⟩
  · exact ⟨l, .use h, ⟨h, hconnected⟩, rfl, rfl⟩
  -- `loop`
  · refine ⟨l, .same rfl rfl, ⟨?_, hconnected⟩, rfl, rfl⟩
    split
    · exact h
    · exact ⟨h, Bool.eq_false_iff.mpr ‹_›⟩
  -- `connect`
  · refine ⟨l, .use h, ⟨?_, hconnected⟩, rfl, rfl⟩
    split <;> exact h
  · exact ⟨l, .use h, ⟨h, hconnected⟩, rfl, rfl⟩
  · exact ⟨l, .same rfl rfl, h, rfl, rfl⟩
  -- `giveUp`
  · refine ⟨l, .same rfl rfl, ?_, rfl, rfl⟩
    rw [if_pos h.1.1]
    exact ⟨h, hconnected⟩
  · exact ⟨_, (Told.destroy h.1).1, ⟨⟨(Told.destroy h.1).2, h.2⟩, hconnected⟩, rfl, rfl⟩
  · exact ⟨l, h.1.free.1, ⟨h.1.free.2, h.2⟩, rfl, rfl⟩

/-- **A step of the thread.** -/
theorem MqttcPoint.Has.step {p p' : MqttcPoint} (h : p.Has s l)
    (hcalloc : p = .reconnect .calloc → answer ≠ .ok false)
    (hstep : mqttcThread s p answer = some (p', s', ev)) :
    ∃ l', Told s l s' l' ev ∧ p'.Has s' l' ∧ s'.isMqttLoop = s.isMqttLoop ∧ p ≠ .absent ∧
      p ≠ .ended ∧ p' ≠ .absent := by
  revert hstep
  fun_cases mqttcThread s p answer <;> intro hstep
  all_goals
    try simp only [Option.some.injEq, Prod.mk.injEq, reduceCtorEq] at hstep
    try obtain ⟨rfl, rfl, rfl⟩ := hstep
    try simp only [MqttcPoint.Has] at h
  -- `created`
  · exact ⟨l, .same rfl rfl, ⟨h.1, rfl⟩, rfl, by simp⟩
  · refine ⟨l, .same rfl rfl, ?_, rfl, by simp, by simp, by split <;> simp⟩
    split
    · exact h
    · exact ⟨.inr h.1, h.2, Bool.eq_false_iff.mpr ‹_›⟩
  -- `synMessage`
  · refine ⟨l, .use h.1, ?_, rfl, by simp, by simp, by split <;> simp⟩
    split <;> exact h
  · refine ⟨l, .same rfl rfl, ?_, rfl, by simp, by simp, by split <;> simp⟩
    split
    · exact ⟨.inr h.1, h.2, rfl⟩
    · exact ⟨h.1, h.2, rfl⟩
  · exact ⟨l, .use h.1, ⟨h.1, h.2.1⟩, rfl, by simp⟩
  -- `yang_reconnectMqtt`
  · obtain ⟨hhas, hstart, hconnected⟩ := h
    obtain ⟨⟨r, s₁, ev₁⟩, hreconnect, heq⟩ := Option.map_eq_some_iff.mp hstep
    obtain ⟨l', htold, hr, hstart', hloop'⟩ :=
      hhas.step (fun hp => hcalloc (hp ▸ rfl)) hconnected hreconnect
    refine ⟨l', ?_⟩
    cases r with
    | goes p' =>
      simp only [Prod.mk.injEq] at heq
      obtain ⟨rfl, rfl, rfl⟩ := heq
      exact ⟨htold, ⟨hr.1, hstart'.trans hstart, hr.2⟩, hloop', by simp⟩
    | returns ok =>
      cases ok with
      | true =>
        simp only [Prod.mk.injEq] at heq
        obtain ⟨rfl, rfl, rfl⟩ := heq
        exact ⟨htold, ⟨hr, hstart'.trans hstart⟩, hloop', by simp⟩
      | false =>
        simp only [Prod.mk.injEq] at heq
        obtain ⟨rfl, rfl, rfl⟩ := heq
        exact ⟨htold, ⟨.inl hr, hstart'.trans hstart, hr.2⟩, hloop', by simp⟩
  -- `ping`
  · refine ⟨l, ?_, h, rfl, by simp⟩
    split
    · exact .use h.1
    · exact .same rfl rfl
  · refine ⟨l, .same rfl rfl, ?_, rfl, by simp, by simp, by split <;> simp⟩
    obtain ⟨hclient, hstart, hloop⟩ := h
    split
    · exact ⟨hclient.resolve_left fun hnone => by simp_all [NoClient], hstart, hloop⟩
    · exact ⟨(hclient.resolve_right fun hhas => absurd hhas.1 ‹_›).1, hstart, hloop⟩
  · exact ⟨_, (Told.destroy h.1).1, ⟨(Told.destroy h.1).2, h.2⟩, rfl, by simp⟩
  · exact ⟨l, h.1.free.1, ⟨h.1.free.2, h.2⟩, rfl, by simp⟩
  -- `finish`
  · exact ⟨l, .same rfl rfl, ⟨h.1, rfl, h.2.2⟩, rfl, by simp⟩

/-- **A step of the caller** without a thread. -/
theorem CallerPoint.Has.step {p p' : CallerPoint} (h : p.Has s l)
    (hcalloc : p = .reconnect .calloc → answer ≠ .ok false)
    (hidle : p = .idle → s.isMqttLoop = false)
    (hstep : callerThread s p answer = some (p', s', ev)) :
    ∃ l', Told s l s' l' ev ∧ p'.Has s' l' ∧ s'.isMqttStart = s.isMqttStart := by
  revert hstep
  fun_cases callerThread s p answer <;> intro hstep
  all_goals
    try simp only [Option.some.injEq, Prod.mk.injEq, reduceCtorEq] at hstep
    try obtain ⟨rfl, rfl, rfl⟩ := hstep
    try simp only [CallerPoint.Has] at h
  -- `idle`
  · refine ⟨l, .same rfl rfl, ?_, rfl⟩
    split
    · exact h
    · exact .inl ⟨h.1, hidle rfl⟩
  · exact ⟨l, .same rfl rfl, ⟨.inl h.1, h.2⟩, rfl⟩
  -- `yang_reconnectMqtt`
  · obtain ⟨hhas, hconnected⟩ := h
    obtain ⟨⟨r, s₁, ev₁⟩, hreconnect, heq⟩ := Option.map_eq_some_iff.mp hstep
    obtain ⟨l', htold, hr, hstart, -⟩ :=
      hhas.step (fun hp => hcalloc (hp ▸ rfl)) hconnected hreconnect
    refine ⟨l', ?_⟩
    cases r with
    | goes p' =>
      simp only [Prod.mk.injEq] at heq
      obtain ⟨rfl, rfl, rfl⟩ := heq
      exact ⟨htold, hr, hstart⟩
    | returns ok =>
      cases ok with
      | true =>
        simp only [Prod.mk.injEq] at heq
        obtain ⟨rfl, rfl, rfl⟩ := heq
        exact ⟨htold, hr, hstart⟩
      | false =>
        simp only [Prod.mk.injEq] at heq
        obtain ⟨rfl, rfl, rfl⟩ := heq
        exact ⟨htold, .inl hr, hstart⟩
  -- the loop
  · exact ⟨l, .same rfl rfl, h, rfl⟩
  · exact ⟨l, .same rfl rfl, h, rfl⟩
  · exact ⟨l, .same rfl rfl, h, rfl⟩
  · refine ⟨l, .same rfl rfl, ?_, rfl⟩
    split <;> exact h
  · exact ⟨l, .same rfl rfl, .inr h, rfl⟩
  -- `yang_ipcmessage_stop`
  · exact ⟨l, .same rfl rfl, h, rfl⟩
  · exact ⟨l, .same rfl rfl, h.imp_left fun hnone => ⟨hnone.1, rfl⟩, rfl⟩
  · refine ⟨l, .same rfl rfl, ?_, rfl⟩
    split <;> exact h
  -- `test`
  · refine ⟨l, .same rfl rfl, ?_, rfl⟩
    split
    · exact h.resolve_left fun hnone => by simp_all [NoClient]
    · exact (h.resolve_right fun hhas => absurd hhas.1 ‹_›).1
  · exact ⟨_, (Told.destroy h).1, (Told.destroy h).2, rfl⟩
  · exact ⟨l, h.free.1, h.free.2, rfl⟩

/-- The flags go down, and nothing else changes. -/
structure Calmer (s s' : YangIpcMessageSession) : Prop where
  mqtt : s'.mqtt = s.mqtt
  allocated : s'.allocated = s.allocated
  isMqttStart : s'.isMqttStart = s.isMqttStart
  isMqttLoop : s.isMqttLoop = false → s'.isMqttLoop = false
  isConnected : s.isConnected = false → s'.isConnected = false

theorem Calmer.hasClient (h : Calmer s s') : HasClient s' l ↔ HasClient s l := by
  rw [HasClient, HasClient, h.mqtt, h.allocated]

theorem Calmer.noClient (h : Calmer s s') : NoClient s' l ↔ NoClient s l := by
  rw [NoClient, NoClient, h.mqtt, h.allocated]

theorem Calmer.allocated_iff (h : Calmer s s') : Allocated s' l ↔ Allocated s l := by
  rw [Allocated, Allocated, h.mqtt, h.allocated]

theorem Calmer.destroyed (h : Calmer s s') : Destroyed s' l ↔ Destroyed s l := by
  rw [Destroyed, Destroyed, h.mqtt, h.allocated]

theorem Calmer.mayHaveClient (h : Calmer s s') : MayHaveClient s l → MayHaveClient s' l := by
  rintro (⟨hnone, hloop⟩ | hclient)
  · exact .inl ⟨h.noClient.mpr hnone, h.isMqttLoop hloop⟩
  · exact .inr (h.hasClient.mpr hclient)

theorem Calmer.reconnect (h : Calmer s s') {p : ReconnectPoint} (hhas : p.Has s l) :
    p.Has s' l := by
  cases p <;> simp only [ReconnectPoint.Has, h.hasClient, h.noClient, h.allocated_iff,
    h.destroyed] at hhas ⊢ <;> grind [Calmer]

theorem Calmer.thread (h : Calmer s s') {p : MqttcPoint} (hhas : p.Has s l) : p.Has s' l := by
  cases p <;> simp only [MqttcPoint.Has, h.hasClient, h.noClient, h.destroyed,
    h.isMqttStart] at hhas ⊢ <;> grind [Calmer, h.reconnect, h.mayHaveClient]

theorem Calmer.caller (h : Calmer s s') {p : CallerPoint} (hhas : p.Has s l) : p.Has s' l := by
  cases p <;> simp only [CallerPoint.Has, h.hasClient, h.noClient, h.destroyed] at hhas ⊢ <;>
    grind [Calmer, h.reconnect, h.mayHaveClient]

variable {p p' : CallerPoint} {t t' : MqttcPoint} {d : ℕ}

theorem CallerPoint.Working.behind (h : p.Working) : p.Behind := by cases p <;> trivial

/-- A step of the caller beside the thread, or behind it. -/
theorem callerThread_calm (hp : p.Behind) (htest : p = .test → s.mqtt = none)
    (hstep : callerThread s p answer = some (p', s', ev)) :
    ev = [] ∧ Calmer s s' ∧ p'.Behind ∧ p ≠ .threadCreate ∧
      (p.Working → (p = .wait → s.isMqttStart = true) → p'.Working) := by
  revert hstep
  fun_cases callerThread s p answer <;> intro hstep
  all_goals
    try simp only [Option.some.injEq, Prod.mk.injEq, reduceCtorEq] at hstep
    try obtain ⟨rfl, rfl, rfl⟩ := hstep
  all_goals first
    | exact hp.elim
    | grind [Calmer, CallerPoint.Behind, CallerPoint.Working]

theorem yangReconnectMqtt_flags {q : ReconnectPoint} {r : Reconnecting}
    (hstep : yangReconnectMqtt s q answer = some (r, s', ev)) :
    s'.isMqttLoop = s.isMqttLoop ∧ s'.isStart = s.isStart ∧ s'.isMqttStart = s.isMqttStart := by
  revert hstep
  fun_cases yangReconnectMqtt s q answer <;> intro hstep
  all_goals
    simp only [Option.some.injEq, Prod.mk.injEq, reduceCtorEq] at hstep
    try obtain ⟨rfl, rfl, rfl⟩ := hstep
    try exact ⟨rfl, rfl, rfl⟩

theorem mqttcThread_isStart (hstep : mqttcThread s t answer = some (t', s', ev)) :
    s'.isStart = s.isStart := by
  revert hstep
  fun_cases mqttcThread s t answer <;> intro hstep
  all_goals
    try simp only [Option.some.injEq, Prod.mk.injEq, reduceCtorEq] at hstep
    try obtain ⟨rfl, rfl, rfl⟩ := hstep
    try rfl
  obtain ⟨⟨r, s₁, ev₁⟩, hreconnect, heq⟩ := Option.map_eq_some_iff.mp hstep
  have hflags := yangReconnectMqtt_flags hreconnect
  cases r with
  | goes q' => grind
  | returns ok => cases ok <;> grind

/-- What the caller does to its flag, and to that of the thread. -/
theorem callerThread_flags (h : p.Stopped ∨ p = .idle → s.isMqttLoop = false)
    (hrunning : s.isStart = true → p.Running)
    (hstep : callerThread s p answer = some (p', s', ev)) :
    (p'.Stopped ∨ p' = .idle → s'.isMqttLoop = false) ∧ (s'.isStart = true → p'.Running) ∧
      (p'.Early → p.Early) ∧ (¬p.Early → s'.isMqttLoop = true → s.isMqttLoop = true) := by
  revert hstep
  fun_cases callerThread s p answer <;> intro hstep
  all_goals
    try simp only [Option.some.injEq, Prod.mk.injEq, reduceCtorEq] at hstep
    try obtain ⟨rfl, rfl, rfl⟩ := hstep
  case case3 q =>
    obtain ⟨⟨r, s₁, ev₁⟩, hreconnect, heq⟩ := Option.map_eq_some_iff.mp hstep
    have hflags := yangReconnectMqtt_flags hreconnect
    cases r with
    | goes q' => grind [CallerPoint.Stopped, CallerPoint.Early, CallerPoint.Running]
    | returns ok =>
      cases ok <;> grind [CallerPoint.Stopped, CallerPoint.Early, CallerPoint.Running]
  all_goals grind [CallerPoint.Stopped, CallerPoint.Early, CallerPoint.Running]

/-- **The caller goes on.** -/
theorem InCharge.caller (h : InCharge p t s l) (hlawful : p = .wait → t ≠ .created)
    (hcalloc : p = .reconnect .calloc → answer ≠ .ok false)
    (hstep : callerThread s p answer = some (p', s', ev)) :
    ∃ l', Told s l s' l' ev ∧
      InCharge p' (if p = .threadCreate ∧ answer = .ok true then .created else t) s' l' := by
  obtain ⟨hhas, halone, hapart, htogether, hstopped, hrunning⟩ := h
  obtain ⟨hstopped', hrunning', -, -⟩ := callerThread_flags hstopped hrunning hstep
  by_cases ht : t = .absent
  · subst ht
    obtain ⟨l', htold, hhas', hstart⟩ :=
      (halone rfl).step hcalloc (fun hidle => hstopped (.inr hidle)) hstep
    refine ⟨l', htold, ?_⟩
    split
    · rename_i hcreate
      obtain ⟨rfl, rfl⟩ := hcreate
      simp only [callerThread, Option.some.injEq, Prod.mk.injEq] at hstep
      obtain ⟨rfl, rfl, rfl⟩ := hstep
      exact ⟨⟨hhas', hhas⟩, MqttcPoint.noConfusion, MqttcPoint.noConfusion, fun _ _ => trivial,
        hstopped', hrunning'⟩
    · exact ⟨hstart.trans hhas, fun _ => hhas', MqttcPoint.noConfusion, fun hne => absurd rfl hne,
        hstopped', hrunning'⟩
  · have hbehind : p.Behind := by
      by_cases hended : t = .ended
      · exact hapart hended
      · exact (htogether ht hended).behind
    have htest : p = .test → s.mqtt = none := by
      rintro rfl
      by_cases hended : t = .ended
      · subst hended
        exact hhas.1.1
      · exact (htogether ht hended).elim
    obtain ⟨rfl, hcalm, hbehind', hcreate, hworking⟩ := callerThread_calm hbehind htest hstep
    refine ⟨l, .same hcalm.mqtt hcalm.allocated, ?_⟩
    rw [if_neg fun hand => hcreate hand.1]
    refine ⟨hcalm.thread hhas, fun habsent => absurd habsent ht, fun _ => hbehind',
      fun _ hended => hworking (htogether ht hended) fun hwait => ?_, hstopped', hrunning'⟩
    have hcreated := hlawful hwait
    cases t <;> first
      | exact absurd rfl ht
      | exact absurd rfl hended
      | exact absurd rfl hcreated
      | exact hhas.2.1
      | exact hhas.2

/-- **The thread goes on.** -/
theorem InCharge.thread (h : InCharge p t s l)
    (hcalloc : t = .reconnect .calloc → answer ≠ .ok false)
    (hstep : mqttcThread s t answer = some (t', s', ev)) :
    ∃ l', Told s l s' l' ev ∧ InCharge p t' s' l' ∧ s'.isMqttLoop = s.isMqttLoop := by
  obtain ⟨hhas, -, -, htogether, hstopped, hrunning⟩ := h
  obtain ⟨l', htold, hhas', hloop, habsent, hended, habsent'⟩ := hhas.step hcalloc hstep
  have hworking := htogether habsent hended
  refine ⟨l', htold, ⟨hhas', fun h => absurd h habsent', fun _ => hworking.behind,
    fun _ _ => hworking, hloop ▸ hstopped, mqttcThread_isStart hstep ▸ hrunning⟩, hloop⟩

/-- The flags are cleared on another thread. -/
theorem InCharge.calm (h : InCharge p t s l) (hcalm : Calmer s s')
    (hstart : s'.isStart = s.isStart) : InCharge p t s' l :=
  ⟨hcalm.thread h.has, fun habsent => hcalm.caller (h.alone habsent), h.apart, h.together,
    fun hp => hcalm.isMqttLoop (h.stopped hp), hstart ▸ h.running⟩

/-- A session that is connected, and not stopped, has a client. -/
theorem InCharge.connected (h : InCharge p t s l) (hconnected : s.isConnected = true) :
    ¬p.Early ∧ (s.isMqttLoop = true → HasClient s l) := by
  obtain ⟨hhas, halone, hapart, htogether, hstopped, -⟩ := h
  by_cases ht : t = .absent
  · subst ht
    have hcaller := halone rfl
    cases p <;> grind [CallerPoint.Has, CallerPoint.Early, CallerPoint.Stopped, MayHaveClient]
  · have hbehind : p.Behind := by
      by_cases hended : t = .ended
      · exact hapart hended
      · exact (htogether ht hended).behind
    refine ⟨fun hearly => by cases p <;> first | exact hearly.elim | exact hbehind.elim,
      fun hloop => ?_⟩
    cases t <;> grind [MqttcPoint.Has]

/-! ## The invariant is kept -/

variable {q : SendPoint}

/-- The calls that send, when a thread goes on. -/
theorem SendPoint.Fits.told (h : q.Fits p s l d) (htold : Told s l s' l' ev)
    (hearly : p'.Early → p.Early)
    (hloop : ¬p.Early → s'.isMqttLoop = true → s.isMqttLoop = true) :
    q.Fits p' s' l' (d + destroys ev) := by
  cases q with
  | connected | returned => trivial
  | mqtt n | load n =>
    obtain ⟨hp, hle, hclient⟩ := h
    refine ⟨fun hp' => hp (hearly hp'), by omega, fun hrun heq => ?_⟩
    exact (htold.kept (hclient (hloop hp hrun) (by omega)) (by omega)).1
  | call c n =>
    obtain ⟨hp, hle, hclient⟩ := h
    refine ⟨fun hp' => hp (hearly hp'), by omega, fun hrun heq => ?_⟩
    obtain ⟨hhas, rfl⟩ := hclient (hloop hp hrun) (by omega)
    obtain ⟨hhas', hsame⟩ := htold.kept hhas (by omega)
    exact ⟨hhas', hsame.symm⟩

/-- A step that the clients are told of. -/
theorem Kept.told {caller : CallerPoint} {thread : MqttcPoint} (h : Kept w)
    (hstep : ∀ l ∈ ledger w.log, InCharge w.caller w.thread w.session l →
      ∃ l', Told w.session l s' l' ev ∧ InCharge caller thread s' l')
    (hearly : caller.Early → w.caller.Early)
    (hloop : ¬w.caller.Early → s'.isMqttLoop = true → w.session.isMqttLoop = true) :
    Kept ⟨s', caller, thread, w.senders, w.log ++ ev⟩ := by
  obtain ⟨⟨l, hl, hcharge, hsenders⟩, hsends⟩ := h
  obtain ⟨l', htold, hcharge'⟩ := hstep l hl hcharge
  refine ⟨⟨l', ?_, hcharge', fun q hq => ?_⟩, hsends.append htold.quiet⟩
  · have hledger : ledger (w.log ++ ev) = ev.foldl ledgerStep (some l) := by
      rw [← Option.mem_def.mp hl]
      exact observe_append
    exact hledger.trans htold.told
  · show q.Fits caller s' l' (destroys (w.log ++ ev))
    rw [destroys_append]
    exact (hsenders q hq).told htold hearly hloop

theorem Kept.caller (h : Kept w) (hlawful : w.Lawful (.caller answer))
    (hstep : w.callerNext answer = some w') : Kept w' := by
  obtain ⟨⟨p', s', ev⟩, hthread, rfl⟩ := Option.map_eq_some_iff.mp hstep
  obtain ⟨-, -, ⟨-, -, -, -, hstopped, hrunning⟩, -⟩ := h.charge
  obtain ⟨-, -, hearly, hloop⟩ := callerThread_flags hstopped hrunning hthread
  exact h.told (fun l _ hcharge => hcharge.caller hlawful.1 hlawful.2 hthread) hearly hloop

theorem Kept.thread (h : Kept w) (hlawful : w.Lawful (.thread answer))
    (hstep : w.threadNext answer = some w') : Kept w' := by
  obtain ⟨⟨t', s', ev⟩, hthread, rfl⟩ := Option.map_eq_some_iff.mp hstep
  obtain ⟨l, hl, hcharge, -⟩ := h.charge
  obtain ⟨-, -, -, hloop⟩ := hcharge.thread hlawful hthread
  refine h.told (fun l _ hcharge => ?_) id fun _ => hloop ▸ id
  obtain ⟨l', htold, hcharge', -⟩ := hcharge.thread hlawful hthread
  exact ⟨l', htold, hcharge'⟩

/-- The flags are cleared on another thread. -/
theorem Kept.calm (h : Kept w) (hcalm : Calmer w.session s')
    (hstart : s'.isStart = w.session.isStart) : Kept { w with session := s' } := by
  have hkept : Kept ⟨s', w.caller, w.thread, w.senders, w.log ++ []⟩ :=
    h.told (fun l _ hcharge =>
      ⟨l, .same hcalm.mqtt hcalm.allocated, hcharge.calm hcalm hstart⟩) id fun _ hrun => ?_
  · rwa [List.append_nil] at hkept
  · by_contra hoff
    rw [hcalm.isMqttLoop (Bool.eq_false_iff.mpr hoff)] at hrun
    exact Bool.false_ne_true hrun

/-- A call goes on. -/
theorem Kept.set_sender {i : ℕ} (h : Kept w)
    (hq : ∀ l ∈ ledger w.log, InCharge w.caller w.thread w.session l →
      (∀ q ∈ w.senders, q.Fits w.caller w.session l (destroys w.log)) →
        q.Fits w.caller w.session l (destroys w.log)) :
    Kept { w with senders := w.senders.set i q } := by
  obtain ⟨⟨l, hl, hcharge, hsenders⟩, hsends⟩ := h
  refine ⟨⟨l, hl, hcharge, fun q' hq' => ?_⟩, hsends⟩
  rcases List.mem_or_eq_of_mem_set hq' with hq' | rfl
  · exact hsenders q' hq'
  · exact hq l hl hcharge hsenders

/-- Something is sent. -/
theorem Kept.send {c : Option ℕ} {fresh : Bool} (h : Kept w)
    (hfresh : fresh = true → ∃ l ∈ ledger w.log, c.isSome ∧ c = l.live) :
    Kept { w with log := w.log ++ [.send c fresh] } := by
  obtain ⟨⟨l, hl, hcharge, hsenders⟩, hsends⟩ := h
  refine ⟨⟨l, ?_, hcharge, fun q hq => ?_⟩, always_snoc.mpr ⟨hsends, ?_⟩⟩
  · show ledger (w.log ++ [.send c fresh]) = some l
    rw [ledger, observe_snoc, ← ledger, Option.mem_def.mp hl]
    rfl
  · show q.Fits w.caller w.session l (destroys (w.log ++ [.send c fresh]))
    rw [destroys_append]
    exact hsenders q hq
  · cases fresh with
    | true => exact hfresh rfl
    | false => trivial

/-- **A step of a call that sends.** -/
theorem Kept.sender {i : ℕ} {more : Bool} (h : Kept w) (hstep : w.sendNext i more = some w') :
    Kept w' := by
  unfold ClientState.sendNext at hstep
  split at hstep
  · exact absurd hstep (Option.some_ne_none _).symm
  · rename_i q hi
    have hmem := List.mem_of_getElem? hi
    cases q with
    | connected =>
      obtain rfl := Option.some.inj hstep
      refine h.set_sender fun l hl hcharge _ => ?_
      split
      · rename_i hconnected
        obtain ⟨hearly, hclient⟩ := hcharge.connected hconnected
        exact ⟨hearly, Nat.le_refl _, fun hrun _ => hclient hrun⟩
      · trivial
    | mqtt n =>
      obtain rfl := Option.some.inj hstep
      refine h.set_sender fun l hl hcharge hsenders => ?_
      have hmqtt := hsenders _ hmem
      split
      · exact hmqtt
      · trivial
    | load n =>
      obtain rfl := Option.some.inj hstep
      refine h.set_sender fun l hl hcharge hsenders => ?_
      obtain ⟨hearly, hle, hclient⟩ := hsenders _ hmem
      exact ⟨hearly, hle, fun hrun heq => ⟨hclient hrun heq, rfl⟩⟩
    | call c n =>
      obtain rfl := Option.some.inj hstep
      have hcall := h.charge
      obtain ⟨l, hl, -, hsenders⟩ := hcall
      obtain ⟨-, -, hclient⟩ := hsenders _ hmem
      refine (h.send fun hfresh => ?_).set_sender fun l' hl' hcharge' hsenders' => ?_
      · obtain ⟨hrun, heq⟩ := of_decide_eq_true hfresh
        obtain ⟨hhas, rfl⟩ := hclient hrun heq
        exact ⟨l, hl, hhas.1, by rw [hhas.2]⟩
      · obtain ⟨hearly, hle, hclient'⟩ := hsenders' _ hmem
        split
        · exact ⟨hearly, hle, fun hrun heq => (hclient' hrun heq).1⟩
        · trivial
    | returned => exact absurd hstep (Option.some_ne_none _).symm

theorem Kept.step {a : ClientState.Action} (h : Kept w) (hlawful : w.Lawful a)
    (hstep : w.step a w') : Kept w' := by
  cases a with
  | caller answer => exact h.caller hlawful hstep
  | thread answer => exact h.thread hlawful hstep
  | sender i more => exact h.sender hstep
  | send =>
    obtain rfl := Option.some.inj hstep
    obtain ⟨⟨l, hl, hcharge, hsenders⟩, hsends⟩ := h
    refine ⟨⟨l, hl, hcharge, fun q hq => ?_⟩, hsends⟩
    rcases List.mem_append.mp hq with hq | hq
    · exact hsenders q hq
    · obtain rfl := List.mem_singleton.mp hq
      trivial
  | stopLoop =>
    obtain rfl := Option.some.inj hstep
    exact h.calm ⟨rfl, rfl, rfl, id, id⟩ rfl
  | stopMqttLoop =>
    obtain rfl := Option.some.inj hstep
    exact h.calm ⟨rfl, rfl, rfl, fun _ => rfl, id⟩ rfl
  | connectError =>
    obtain rfl := Option.some.inj hstep
    exact h.calm ⟨rfl, rfl, rfl, id, fun _ => rfl⟩ rfl

theorem kept_boot : Kept .boot where
  charge := by
    refine ⟨⟨0, none⟩, rfl, ⟨rfl, fun _ => ⟨⟨rfl, rfl⟩, rfl⟩, MqttcPoint.noConfusion,
      fun h => absurd rfl h, fun _ => rfl, fun h => absurd h Bool.false_ne_true⟩,
      fun q hq => absurd hq List.not_mem_nil⟩
  sends := always_nil

theorem kept_of_reaches (h : Reaches (Guarded ClientState.step ClientState.Lawful) .boot w) :
    Kept w :=
  h.invariant kept_boot fun _ _ _ hw hstep => hw.step hstep.1 hstep.2

/-! ## The flags -/

/-- The caller has not created the thread. -/
def CallerPoint.Before : CallerPoint → Prop
  | idle | start | reconnect _ | threadCreate => True
  | _ => False

/-- What holds of the flags whatever the library and the memory do. -/
structure Flagged (w : ClientState) : Prop where
  before : w.caller.Before → w.thread = .absent
  off : w.thread = .absent ∨ w.thread = .created ∨ w.thread = .ended →
    w.session.isMqttStart = false
  stopped : w.caller.Stopped ∨ w.caller = .idle → w.session.isMqttLoop = false
  running : w.session.isStart = true → w.caller.Running

theorem callerThread_before (hstep : callerThread s p answer = some (p', s', ev)) :
    s'.isMqttStart = s.isMqttStart ∧ (p'.Before → p.Before ∧ p ≠ .threadCreate) := by
  revert hstep
  fun_cases callerThread s p answer <;> intro hstep
  all_goals
    try simp only [Option.some.injEq, Prod.mk.injEq, reduceCtorEq] at hstep
    try obtain ⟨rfl, rfl, rfl⟩ := hstep
  case case3 q =>
    obtain ⟨⟨r, s₁, ev₁⟩, hreconnect, heq⟩ := Option.map_eq_some_iff.mp hstep
    have hflags := yangReconnectMqtt_flags hreconnect
    cases r with
    | goes q' => grind [CallerPoint.Before]
    | returns ok => cases ok <;> grind [CallerPoint.Before]
  all_goals grind [CallerPoint.Before]

/-- What the thread does to its flag. -/
theorem mqttcThread_flags (hstep : mqttcThread s t answer = some (t', s', ev)) :
    s'.isMqttLoop = s.isMqttLoop ∧ t ≠ .absent ∧ t' ≠ .absent ∧ t' ≠ .created ∧
      (t' = .ended → s'.isMqttStart = false) := by
  revert hstep
  fun_cases mqttcThread s t answer <;> intro hstep
  all_goals
    try simp only [Option.some.injEq, Prod.mk.injEq, reduceCtorEq] at hstep
    try obtain ⟨rfl, rfl, rfl⟩ := hstep
  case case6 q =>
    obtain ⟨⟨r, s₁, ev₁⟩, hreconnect, heq⟩ := Option.map_eq_some_iff.mp hstep
    have hflags := yangReconnectMqtt_flags hreconnect
    cases r with
    | goes q' => grind
    | returns ok => cases ok <;> grind
  all_goals grind

/-- Assignments on other threads. -/
theorem Flagged.calm (h : Flagged w) (hcalm : Calmer w.session s')
    (hstart : s'.isStart = w.session.isStart) : Flagged { w with session := s' } :=
  ⟨h.before, fun ht => hcalm.isMqttStart.trans (h.off ht),
    fun hp => hcalm.isMqttLoop (h.stopped hp), hstart ▸ h.running⟩

theorem Flagged.caller (h : Flagged w) (hstep : w.callerNext answer = some w') : Flagged w' := by
  obtain ⟨⟨p', s', ev⟩, hcaller, rfl⟩ := Option.map_eq_some_iff.mp hstep
  obtain ⟨hstopped, hrunning, -, -⟩ := callerThread_flags h.stopped h.running hcaller
  obtain ⟨hstart, hbefore⟩ := callerThread_before hcaller
  refine ⟨fun hp => ?_, fun ht => ?_, hstopped, hrunning⟩
  · obtain ⟨hp, hcreate⟩ := hbefore hp
    show (if w.caller = .threadCreate ∧ _ then _ else _) = _
    rw [if_neg fun hand => hcreate hand.1]
    exact h.before hp
  · refine hstart.trans ?_
    by_cases hcreate : w.caller = .threadCreate
    -- the thread that is created takes the place of none
    · exact h.off (.inl (h.before (by rw [hcreate]; trivial)))
    · refine h.off ?_
      rwa [if_neg fun hand => hcreate hand.1] at ht

theorem Flagged.thread (h : Flagged w) (hstep : w.threadNext answer = some w') : Flagged w' := by
  obtain ⟨⟨t', s', ev⟩, hthread, rfl⟩ := Option.map_eq_some_iff.mp hstep
  obtain ⟨hloop, habsent, habsent', hcreated, hended⟩ := mqttcThread_flags hthread
  refine ⟨fun hp => absurd (h.before hp) habsent, fun ht => ?_, hloop ▸ h.stopped,
    mqttcThread_isStart hthread ▸ h.running⟩
  exact hended ((ht.resolve_left habsent').resolve_left hcreated)

/-- A call that sends goes on, and changes nothing else. -/
theorem sendNext_eq {i : ℕ} {more : Bool} (hstep : w.sendNext i more = some w') :
    w'.caller = w.caller ∧ w'.thread = w.thread ∧ w'.session = w.session := by
  unfold ClientState.sendNext at hstep
  split at hstep
  · exact absurd hstep (Option.some_ne_none _).symm
  · rename_i q _
    cases q <;> first
      | exact absurd hstep (Option.some_ne_none _).symm
      | (obtain rfl := Option.some.inj hstep; exact ⟨rfl, rfl, rfl⟩)

theorem Flagged.step {a : ClientState.Action} (h : Flagged w) (hstep : w.step a w') :
    Flagged w' := by
  cases a with
  | caller answer => exact h.caller hstep
  | thread answer => exact h.thread hstep
  | sender i more =>
    obtain ⟨hcaller, hthread, hsession⟩ := sendNext_eq hstep
    obtain ⟨hbefore, hoff, hstopped, hrunning⟩ := h
    rw [← hcaller, ← hthread] at hbefore
    rw [← hthread, ← hsession] at hoff
    rw [← hcaller, ← hsession] at hstopped hrunning
    exact ⟨hbefore, hoff, hstopped, hrunning⟩
  | send =>
    obtain rfl := Option.some.inj hstep
    exact ⟨h.before, h.off, h.stopped, h.running⟩
  | stopLoop =>
    obtain rfl := Option.some.inj hstep
    exact h.calm ⟨rfl, rfl, rfl, id, id⟩ rfl
  | stopMqttLoop =>
    obtain rfl := Option.some.inj hstep
    exact h.calm ⟨rfl, rfl, rfl, fun _ => rfl, id⟩ rfl
  | connectError =>
    obtain rfl := Option.some.inj hstep
    exact h.calm ⟨rfl, rfl, rfl, id, fun _ => rfl⟩ rfl

theorem flagged_boot : Flagged .boot :=
  ⟨fun _ => rfl, fun _ => rfl, fun _ => rfl, fun h => absurd h Bool.false_ne_true⟩

theorem flagged_of_reaches (h : Reaches ClientState.step .boot w) : Flagged w :=
  h.invariant flagged_boot fun _ _ _ hw hstep => hw.step hstep

/-! ## The end of the thread -/

/-- The steps that `yang_reconnectMqtt` has left, and the thread behind it, when it is stopped. -/
def ReconnectPoint.weight : ReconnectPoint → ℕ
  | freeNew => 5
  | destroyNew => 6
  | giveUp => 7
  | connected => 7
  | loop => 8
  | subscribe => 8
  | connect => 9
  | setReconnectParam => 9
  | create => 10
  | calloc => 11
  | freeOld => 12
  | destroyOld => 13
  | old => 14

/-- The steps that the thread has left when it is stopped. -/
def MqttcPoint.weight : MqttcPoint → ℕ
  | absent | ended => 0
  | finish => 1
  | free => 2
  | destroy => 3
  | exit => 4
  | loop _ => 5
  | ping _ | reconnect2 | created => 6
  | reconnect p => p.weight
  | lost _ => 15
  | synMessage _ => 16

theorem MqttcPoint.weight_le : t.weight ≤ 16 := by
  cases t with
  | reconnect q => cases q <;> decide
  | _ => simp [weight]

/-- When it is stopped, every step of the thread brings it closer to its end. -/
theorem mqttcThread_weight (hstop : s.isMqttLoop = false)
    (hstep : mqttcThread s t answer = some (t', s', ev)) : t'.weight < t.weight := by
  revert hstep
  fun_cases mqttcThread s t answer <;> intro hstep
  all_goals
    try simp only [Option.some.injEq, Prod.mk.injEq, reduceCtorEq] at hstep
    try obtain ⟨rfl, rfl, rfl⟩ := hstep
  case case6 q =>
    obtain ⟨r, hreconnect, heq⟩ := Option.map_eq_some_iff.mp hstep
    revert hreconnect
    fun_cases yangReconnectMqtt s q answer <;> intro hreconnect
    all_goals
      simp only [Option.some.injEq, reduceCtorEq] at hreconnect
      try subst hreconnect
    all_goals grind [MqttcPoint.weight, ReconnectPoint.weight]
  all_goals grind [MqttcPoint.weight, ReconnectPoint.weight]

/-- A thread that has not ended can go on. -/
theorem mqttcThread_goes (habsent : t ≠ .absent) (hended : t ≠ .ended) :
    ∃ answer r, mqttcThread s t answer = some r := by
  cases t with
  | absent => exact absurd rfl habsent
  | ended => exact absurd rfl hended
  | reconnect q =>
    cases q <;> first | exact ⟨.none, _, rfl⟩ | exact ⟨.ok true, _, rfl⟩
  | _ => first | exact ⟨.none, _, rfl⟩ | exact ⟨.ok true, _, rfl⟩

/-- The caller stays behind `yang_ipcmessage_stop`. -/
theorem CallerPoint.Stopped.step (h : p.Stopped)
    (hstep : callerThread s p answer = some (p', s', ev)) : p'.Stopped := by
  revert hstep
  fun_cases callerThread s p answer <;> intro hstep
  all_goals
    try simp only [Option.some.injEq, Prod.mk.injEq, reduceCtorEq] at hstep
    try obtain ⟨rfl, rfl, rfl⟩ := hstep
  all_goals grind [CallerPoint.Stopped]

/-- The steps of the thread. -/
def ClientState.Action.isThread : ClientState.Action → Bool
  | thread _ => true
  | _ => false

/-- Behind `yang_ipcmessage_stop`, only the thread changes where it is, and comes closer to its
end. -/
theorem Flagged.weight {a : ClientState.Action} (h : Flagged w) (hstopped : w.caller.Stopped)
    (hstep : w.step a w') :
    w'.caller.Stopped ∧ w'.thread.weight + a.isThread.toNat ≤ w.thread.weight := by
  cases a with
  | thread answer =>
    obtain ⟨⟨t', s', ev⟩, hthread, rfl⟩ := Option.map_eq_some_iff.mp hstep
    exact ⟨hstopped, mqttcThread_weight (h.stopped (.inl hstopped)) hthread⟩
  | caller answer =>
    obtain ⟨⟨p', s', ev⟩, hcaller, rfl⟩ := Option.map_eq_some_iff.mp hstep
    refine ⟨hstopped.step hcaller, ?_⟩
    have hcreate : w.caller ≠ .threadCreate := fun hcreate => by
      rw [hcreate] at hstopped
      exact hstopped
    exact Nat.le_of_eq (congrArg MqttcPoint.weight (if_neg fun hand => hcreate hand.1))
  | sender i more =>
    obtain ⟨hcaller, hthread, -⟩ := sendNext_eq hstep
    exact ⟨hcaller ▸ hstopped, Nat.le_of_eq (congrArg MqttcPoint.weight hthread)⟩
  | send | stopLoop | stopMqttLoop | connectError =>
    obtain rfl := Option.some.inj hstep
    exact ⟨hstopped, Nat.le_refl _⟩

/-! ## Results -/

/-- **Clients are destroyed once.** Whatever the library answers, whenever the session is stopped
and whoever sends, a client is created only when the one before is destroyed, each is destroyed
once, and the functions that create and destroy them call functions of the one that is not.  When
`yang_destroy_ipcmessage` returns, all are destroyed, and the field is reset. -/
theorem clients_are_destroyed_once (w : ClientState)
    (h : Reaches (Guarded ClientState.step ClientState.Lawful) .boot w) :
    ∃ l, ledger w.log = some l ∧
      (w.caller = .destroyed → l.live = none ∧ w.session.mqtt = none) := by
  obtain ⟨l, hl, ⟨hhas, halone, -, htogether, -, -⟩, -⟩ := (kept_of_reaches h).charge
  refine ⟨l, hl, fun hend => ?_⟩
  have hnone : NoClient w.session l := by
    by_cases habsent : w.thread = .absent
    · have := halone habsent
      rwa [hend] at this
    · by_cases hended : w.thread = .ended
      · rw [hended] at hhas
        exact hhas.1
      · have := htogether habsent hended
        rw [hend] at this
        exact this.elim
  exact ⟨by rw [hnone.2], hnone.1⟩

/-- **Calls that send find their client.** In every such run, a call that sends uses the client
that is created and not destroyed, unless one was destroyed behind its test of `isConnected`, or
the session has been stopped. -/
theorem sends_find_their_client (w : ClientState)
    (h : Reaches (Guarded ClientState.step ClientState.Lawful) .boot w) :
    ∀ l₁ c l₂, w.log = l₁ ++ .send c true :: l₂ →
      ∃ l, ledger l₁ = some l ∧ c.isSome ∧ c = l.live :=
  fun l₁ _ l₂ hlog => (kept_of_reaches h).sends l₁ _ l₂ hlog

/-- **The wait ends.** While `yang_destroy_ipcmessage` waits, the thread takes sixteen steps at
most, whatever the others do, and it can always take the next one unless it has ended; and then the
wait is over. -/
theorem destroy_returns (w w' : ClientState) (n : ℕ) (h : Reaches ClientState.step .boot w)
    (hwait : w.caller = .wait)
    (hrun : Counted ClientState.Action.isThread ClientState.step w n w') :
    n ≤ 16 ∧ (w'.caller = .wait →
      (∃ answer w'', w'.threadNext answer = some w'') ∨
      ∃ w'', w'.callerNext .none = some w'' ∧ w''.caller = .test) := by
  have hstopped : w.caller.Stopped := by
    rw [hwait]
    trivial
  have hbound := hrun.bounded (C := fun w => Flagged w ∧ w.caller.Stopped)
    (m := fun w => w.thread.weight) ⟨flagged_of_reaches h, hstopped⟩
    (fun _ _ _ hw hstep => ⟨hw.1.step hstep, (hw.1.weight hw.2 hstep).1⟩)
    fun _ _ _ hw hstep => (hw.1.weight hw.2 hstep).2
  have hle : w.thread.weight ≤ 16 := MqttcPoint.weight_le
  refine ⟨by omega, fun hwait' => ?_⟩
  have hflagged : Flagged w' := hrun.reaches.invariant (flagged_of_reaches h)
    fun _ _ _ hw hstep => hw.step hstep
  by_cases hended : w'.thread = .absent ∨ w'.thread = .ended
  · right
    have hstart : w'.session.isStart = false := Bool.eq_false_iff.mpr fun hstart => by
      have := hflagged.running hstart
      rw [hwait'] at this
      exact this
    have hmqttStart : w'.session.isMqttStart = false := hflagged.off (hended.imp_right .inr)
    refine ⟨_, Option.map_eq_some_iff.mpr ⟨(.test, w'.session, []), ?_, rfl⟩, rfl⟩
    rw [hwait', callerThread, hstart, hmqttStart]
    rfl
  · left
    obtain ⟨habsent, hended⟩ := not_or.mp hended
    obtain ⟨answer, r, hthread⟩ := mqttcThread_goes (s := w'.session) habsent hended
    exact ⟨answer, _, Option.map_eq_some_iff.mpr ⟨r, hthread, rfl⟩⟩

/-! ## Runs -/

/-- What is assumed, as a test. -/
def ClientState.lawful (w : ClientState) : ClientState.Action → Bool
  | .caller answer => (w.caller ≠ .wait || w.thread ≠ .created) &&
      (w.caller ≠ .reconnect .calloc || answer ≠ .ok false)
  | .thread answer => w.thread ≠ .reconnect .calloc || answer ≠ .ok false
  | _ => true

theorem ClientState.lawful_of_test {a : ClientState.Action} (h : w.lawful a = true) :
    w.Lawful a := by
  cases a with
  | caller answer =>
    simp only [ClientState.lawful, Bool.and_eq_true, Bool.or_eq_true, decide_eq_true_eq] at h
    exact ⟨fun hwait => h.1.resolve_left (not_not.mpr hwait),
      fun hcalloc => h.2.resolve_left (not_not.mpr hcalloc)⟩
  | thread answer =>
    simp only [ClientState.lawful, Bool.or_eq_true, decide_eq_true_eq] at h
    exact fun hcalloc => h.resolve_left (not_not.mpr hcalloc)
  | _ => trivial

/-- The step an action leads to. -/
def ClientState.move (w : ClientState) (a : ClientState.Action) :
    Option (ClientState.Action × ClientState) := (w.next a).map (a, ·)

/-- A call sends; the connection is lost twice while another one is about to send, and the thread
has a new client when it does; the session is stopped, and `yang_destroy_ipcmessage` waits. -/
def lostTwice : List ClientState.Action :=
  [(1, .caller (.ok true)), (2, .caller .none), (1, .caller (.ok true)), (3, .caller .none),
    (2, .caller (.ok true)), (1, .caller .none), (1, .caller (.ok true)), (2, .caller .none),
    (1, .thread .none), (2, .send), (3, .sender 0 true), (1, .sender 0 false),
    (3, .sender 1 true), (1, .thread .none), (1, .thread (.ok false)), (1, .thread .none),
    (1, .thread (.ok true)), (1, .thread .none), (1, .thread (.ok false)), (4, .thread .none),
    (1, .thread (.ok true)), (3, .thread .none), (2, .thread (.ok true)), (1, .thread .none),
    (1, .sender 1 false), (1, .stopLoop), (1, .stopMqttLoop), (5, .caller .none),
    (1, .thread (.ok true)), (1, .thread .none)].flatMap
      fun move : ℕ × ClientState.Action => List.replicate move.1 move.2

/-- What is observed of it. -/
theorem exists_lostTwice :
    ∃ w, Reaches (Guarded ClientState.step ClientState.Lawful) .boot w ∧ w.caller = .wait ∧
      w.thread = .exit ∧ w.log = [.create (some 0), .use (some 0), .use (some 0), .use (some 0)] ++
        .send (some 0) true :: [.use (some 0), .use (some 0), .use (some 0), .destroy (some 0),
          .create (some 1), .use (some 1), .use (some 1), .use (some 1), .send (some 0) false,
          .use (some 1)] := by
  have hplay : (play ClientState.move ClientState.lawful lostTwice .boot).any (fun w =>
      w.caller = .wait ∧ w.thread = .exit ∧ w.log = [.create (some 0), .use (some 0), .use (some 0),
        .use (some 0), .send (some 0) true, .use (some 0), .use (some 0), .use (some 0),
        .destroy (some 0), .create (some 1), .use (some 1), .use (some 1), .use (some 1),
        .send (some 0) false, .use (some 1)]) = true := by decide +kernel
  obtain ⟨w, hrun, hw⟩ := exists_reaches_of_play (fun _ _ _ _ => next_of_labelled) hplay
  exact ⟨w, hrun.weaken fun _ _ => ClientState.lawful_of_test, of_decide_eq_true hw⟩

/-- The second client is destroyed when `yang_destroy_ipcmessage` returns. -/
theorem clients_are_destroyed_once_second : ∃ (w : ClientState) (l : Ledger),
    ledger w.log = some l ∧ w.session.allocated = 2 ∧ l.live = none := by
  have hplay : (play ClientState.move ClientState.lawful
      (lostTwice ++ List.replicate 4 (.thread .none) ++ List.replicate 2 (.caller .none)) .boot).any
      (fun w => w.caller = .destroyed ∧ w.session.allocated = 2) = true := by decide +kernel
  obtain ⟨w, hrun, hw⟩ := exists_reaches_of_play (fun _ _ _ _ => next_of_labelled) hplay
  obtain ⟨hend, hallocated⟩ := of_decide_eq_true hw
  obtain ⟨l, hl, hlive⟩ :=
    clients_are_destroyed_once w (hrun.weaken fun _ _ => ClientState.lawful_of_test)
  exact ⟨w, l, hl, hallocated, (hlive hend).1⟩

/-- The first call finds the first client. -/
theorem sends_find_their_client_first : ∃ (log : List ClientEvent) (l : Ledger),
    ledger log = some l ∧ some 0 = l.live := by
  obtain ⟨w, hrun, -, -, hlog⟩ := exists_lostTwice
  obtain ⟨l, hl, -, hlive⟩ := sends_find_their_client w hrun _ (some 0) _ hlog
  exact ⟨_, l, hl, hlive⟩

/-- `yang_destroy_ipcmessage` waits, and the thread is told for the second time that the connection
is lost. -/
def lostWhileWaiting : List ClientState.Action :=
  [(1, .caller (.ok true)), (2, .caller .none), (1, .caller (.ok true)), (3, .caller .none),
    (2, .caller (.ok true)), (1, .caller .none), (1, .caller (.ok true)), (2, .caller .none),
    (2, .thread .none), (1, .thread (.ok false)), (1, .thread .none), (1, .thread (.ok true)),
    (1, .thread .none), (1, .stopLoop), (4, .caller .none)].flatMap
      fun move : ℕ × ClientState.Action => List.replicate move.1 move.2

/-- The thread replaces the client, gives up, and ends. -/
def threadEnds : List ClientState.Action :=
  [.thread (.ok false), .thread .none, .thread .none, .thread .none, .thread .none,
    .thread (.ok true), .thread .none, .send, .thread .none, .thread .none, .thread .none,
    .thread .none, .thread .none, .thread .none, .thread .none]

/-- The thread takes fourteen steps, and the wait is over. -/
theorem destroy_returns_lost : ∃ (w w' : ClientState), w.caller = .wait ∧
    threadEnds.countP ClientState.Action.isThread = 14 ∧ 14 ≤ 16 ∧
      (w'.thread = .ended ∧ ∃ w'', w'.callerNext .none = some w'' ∧ w''.caller = .test) := by
  have hplay : (play ClientState.move (fun _ _ => true) lostWhileWaiting .boot).any (fun w =>
      w.caller = .wait ∧ (play ClientState.move (fun _ _ => true) threadEnds w).any (fun w' =>
        w'.caller = .wait ∧ w'.thread = .ended)) = true := by decide +kernel
  obtain ⟨w, hrun, hw⟩ := exists_reaches_of_play (fun _ _ _ _ => next_of_labelled) hplay
  obtain ⟨hwait, hrest⟩ := of_decide_eq_true hw
  obtain ⟨w', hplay', hw'⟩ := (Option.any_eq_true _ _).mp hrest
  obtain ⟨hwait', hended⟩ := of_decide_eq_true hw'
  have hcounted : Counted ClientState.Action.isThread _ w 14 w' :=
    counted_of_play (fun _ _ _ => id) hplay'
  obtain ⟨hle, hover⟩ := destroy_returns w w' 14 (hrun.mono fun _ _ _ ha => ha.2) hwait
    (hcounted.mono fun _ _ _ ha => ha.2)
  refine ⟨w, w', hwait, rfl, hle, hended, (hover hwait').resolve_left ?_⟩
  -- a thread that has ended takes no step
  rintro ⟨answer, w'', hstep⟩
  rw [ClientState.threadNext, hended] at hstep
  exact absurd hstep (Option.some_ne_none _).symm

/-- **A call may use a client that is destroyed.** -/
theorem sends_may_be_late : ∃ (w : ClientState) (l₁ l₂ : List ClientEvent),
    Reaches (Guarded ClientState.step ClientState.Lawful) .boot w ∧
    w.log = l₁ ++ .send (some 0) false :: l₂ ∧ (ledger l₁).map Ledger.live = some (some 1) := by
  obtain ⟨w, hrun, -, -, hlog⟩ := exists_lostTwice
  exact ⟨w, [.create (some 0), .use (some 0), .use (some 0), .use (some 0), .send (some 0) true,
    .use (some 0), .use (some 0), .use (some 0), .destroy (some 0), .create (some 1),
    .use (some 1), .use (some 1), .use (some 1)], [.use (some 1)], hrun, hlog, by decide⟩

/-- **A client needs its memory**: without it, the null pointer is followed. -/
theorem memory_is_needed : ∃ w, Reaches ClientState.step .boot w ∧ .use none ∈ w.log := by
  have hplay : (play ClientState.move (fun _ _ => true)
      [.caller (.ok true), .caller .none, .caller .none, .caller (.ok false), .caller .none,
        .caller .none] .boot).any (fun w => .use none ∈ w.log) = true := by decide +kernel
  obtain ⟨w, hrun, hw⟩ := exists_reaches_of_play (fun _ _ _ _ => next_of_labelled) hplay
  exact ⟨w, hrun.mono fun _ _ _ ha => ha.2, of_decide_eq_true hw⟩

/-- **The thread needs its turn**: `yang_destroy_ipcmessage` does not wait for one that has not
begun, and both destroy the client. -/
theorem thread_needs_its_turn : ∃ w, Reaches ClientState.step .boot w ∧ ledger w.log = none := by
  have hplay : (play ClientState.move (fun _ _ => true)
      ([(1, .caller (.ok true)), (2, .caller .none), (1, .caller (.ok true)), (3, .caller .none),
        (2, .caller (.ok true)), (1, .caller .none), (1, .caller (.ok true)), (2, .caller .none),
        (1, .stopLoop), (7, .caller .none), (4, .thread .none)].flatMap
          fun move : ℕ × ClientState.Action => List.replicate move.1 move.2) .boot).any
      (fun w => ledger w.log = none) = true := by decide +kernel
  obtain ⟨w, hrun, hw⟩ := exists_reaches_of_play (fun _ _ _ _ => next_of_labelled) hplay
  exact ⟨w, hrun.mono fun _ _ _ ha => ha.2, of_decide_eq_true hw⟩

end Signalling

end YangIpc
