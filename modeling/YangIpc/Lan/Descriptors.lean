import YangIpc.Lan.Servers
import YangIpc.Library.Run
import YangIpc.Library.Trace

/-!
# The descriptors of the servers

The three servers share the descriptors of the system.  As long as each of them gets its buffer, a
descriptor is closed only by the thread that obtained it, every connection that is lost is reported
once, and nothing is sent to a descriptor that is not a client of the same server, unless the
client was lost meanwhile.

The image and the audio server share a word.  A store of the one may undo what the other has stored
since the word was loaded, which then leaves its loop with the client open.  No client is left so
if the word is loaded by one thread at a time.

## Main definitions

* `Owners`, `owners`: a monitor of the descriptors in use
* `LinkPhase`, `link`: a monitor of the connections of a server
* `LanState.Lawful`: what is assumed of the answers
* `LanState.Apart`: the word is loaded by one thread at a time
* `Served`, `Steady`: the invariants, of all runs and of those whose steps are apart

## Main results

* `descriptors_are_closed_once`: the descriptors
* `connections_are_reported`: the connections
* `clients_get_what_is_sent`: the calls that send
-/

namespace YangIpc

namespace Lan

open YangIpc.Core Transition Trace

/-! ## Monitors -/

/-- What a descriptor is for. -/
inductive Role
  | listener
  | client
deriving DecidableEq, Repr

/-- The descriptors in use, with their servers. -/
abbrev Owners := ℤ → Option (Server × Role)

/-- What an event does to the descriptors in use; `none` if one is closed that is not the
server's. -/
def ownersStep : Option Owners → LanEvent → Option Owners
  | none, _ => none
  | some u, .socket k d => some (Function.update u d (some (k, .listener)))
  | some u, .accept k d => some (Function.update u d (some (k, .client)))
  | some u, .close k d =>
    if u d = some (k, .listener) ∨ u d = some (k, .client) then some (Function.update u d none)
    else none
  | some u, .ended _ _ | some u, .left _ _ | some u, .sendMsg _ _ | some u, .send _ _ _ => some u

/-- The descriptors in use behind a trace. -/
def owners (log : List LanEvent) : Option Owners := observe ownersStep (some fun _ => none) log

@[simp] theorem owners_snoc {log : List LanEvent} {e : LanEvent} :
    owners (log ++ [e]) = ownersStep (owners log) e := observe_snoc

/-- The connections of a server. -/
inductive LinkPhase
  | idle
  /-- accepted, and not announced -/
  | accepted (fd : ℤ)
  | up (fd : ℤ)
  | ended (fd : ℤ) (notConn : Bool)
  /-- closed, and not reported -/
  | closed (notConn : Bool)
deriving DecidableEq, Repr

/-- What an event of a server means for its connections; `none` if it must not occur.  The command
server announces a client before anything else, and a loss is reported behind the close.  A client
that is left open is not looked at again. -/
def LinkPhase.next (k : Server) : LinkPhase → LanEvent → Option LinkPhase
  | idle, .accept _ d => some (if k = .cmd then accepted d else up d)
  | accepted d, .sendMsg _ e => if e = .remoteDeviceConnected then some (up d) else none
  | up d, .ended _ notConn => some (ended d notConn)
  | up d, .left _ d' => if d' = d then some idle else none
  | ended d notConn, .close _ d' =>
    if d' = d then some (if k = .aud then idle else closed notConn) else none
  | closed notConn, .sendMsg _ e => if e = lossEvent notConn k then some idle else none
  -- the listener is opened and closed, and the start reported, without a connection
  | idle, .socket _ _ | idle, .close _ _ => some idle
  | idle, .sendMsg _ e => if e = .lanTcpServiceStartResponse then some idle else none
  | p, .send _ _ _ => some p
  | _, _ => none

/-- A server follows the events of its own. -/
def linkStep (k : Server) (p : Option LinkPhase) (e : LanEvent) : Option LinkPhase :=
  if e.server = k then p.bind fun p => p.next k e else p

/-- The connections of a server behind a trace. -/
def link (k : Server) (log : List LanEvent) : Option LinkPhase :=
  observe (linkStep k) (some .idle) log

@[simp] theorem link_snoc {k : Server} {log : List LanEvent} {e : LanEvent} :
    link k (log ++ [e]) = linkStep k (link k log) e := observe_snoc

/-- Every server gets its buffer, and a new descriptor is not in use. -/
def LanState.Lawful (w : LanState) : LanState.Action → Prop
  | .server k answer => (w.point k = .malloc → answer ≠ .ok false) ∧
      ∀ d, answer = .fd (some d) → ∀ u ∈ owners w.log, u d = none
  | _ => True

/-- A thread does not load the word while its partner is about to store it. -/
def LanState.Apart (w : LanState) : LanState.Action → Prop
  | .server k _ => w.point k = .setStatus ∨ w.point k = .clearStatus →
      (w.point k.partner).stored = none
  | _ => True

/-! ## The invariant -/

/-- The descriptor that a server has for this use. -/
def ServerPoint.holds (info : ServerInfo) : ServerPoint → Role → Option ℤ
  | response, _ | malloc, _ | socket, _ | resetServer, _ | clearStatus, _ | storeCleared _, _
  | clearThread, _ | ended, _ => none
  | out, .listener => if info.serverFd = -1 then none else some info.serverFd
  | bind, .listener | listen, .listener | select, .listener | accept, .listener
  | announce, .listener | connected, .listener | setStatus, .listener | storeStatus _, .listener
  | test, .listener | recv, .listener | close _, .listener | reset _, .listener
  | report _, .listener | lost _, .listener | closeServer, .listener => some info.serverFd
  | announce, .client | connected, .client | setStatus, .client | storeStatus _, .client
  | test, .client | recv, .client | close _, .client => some info.fd
  | _, .client => none

/-- What the connections of a server are where it is. -/
def ServerPoint.phase (k : Server) (info : ServerInfo) : ServerPoint → LinkPhase
  | announce | connected => .accepted info.fd
  | setStatus | storeStatus _ | test | recv => .up info.fd
  | close notConn => .ended info.fd notConn
  | reset notConn => if k = .aud then .idle else .closed notConn
  | report notConn | lost notConn => .closed notConn
  | _ => .idle

/-- The server is behind the test of its status, or has set it. -/
def ServerPoint.Inner : ServerPoint → Prop
  | connected | test | recv | close _ | reset _ | report _ => True
  | _ => False

/-- The field of the client is a connection, or was one until now. -/
def ServerPoint.Linked : ServerPoint → Prop
  | announce | connected | setStatus | storeStatus _ | test | recv | close _ | reset _ => True
  | _ => False

/-- The field of the client has been set. -/
def Begun (k : Server) (p : ServerPoint) (info : ServerInfo) (log : List LanEvent) : Prop :=
  info.fd < 0 ∨ p.Linked ∨ .left k info.fd ∈ log

/-- What is known of a server from its own fields. -/
structure ServerPoint.Fits (k : Server) (p : ServerPoint) (info : ServerInfo)
    (log : List LanEvent) : Prop where
  announce : p = .announce → k = .cmd
  inner : k = .cmd → p.Inner → info.status = true
  outer : k = .cmd → ¬p.Inner → info.status = false
  begun : info.status = true → Begun k p info log
  listener : p.holds info .listener ≠ some (-1)

/-- What is known of a call that sends. -/
def SendPoint.Fits (k : Server) (p : ServerPoint) (info : ServerInfo) (resets : ℕ)
    (log : List LanEvent) : SendPoint → Prop
  | status | returned => True
  | guard | check | load => Begun k p info log
  | call fd n => Begun k p info log ∧ n ≤ resets ∧
      (n = resets → fd < 0 ∨ .left k fd ∈ log ∨ fd = info.fd ∧ p.Linked)

/-- A descriptor that is used in time is that of a client. -/
def SendOk (log : List LanEvent) : LanEvent → Prop
  | .send k d true => ∃ u ∈ owners log, u d = some (k, .client)
  | _ => True

/-- Nobody else has the descriptors that the servers have. -/
def Owned (u : Owners) (holds : Server × Role → ℤ → Prop) : Prop :=
  ∀ x d, u d = some x ↔ holds x d

/-- The descriptors that the servers have, with the clients that were left open. -/
def LanState.holds (w : LanState) (x : Server × Role) (d : ℤ) : Prop :=
  (w.point x.1).holds (w.info x.1) x.2 = some d ∨ x.2 = .client ∧ .left x.1 d ∈ w.log

/-- The invariant. -/
structure Served (w : LanState) : Prop where
  owned : ∃ u ∈ owners w.log, Owned u w.holds
  -- the client of the field is not one that was left open
  once : ∀ k d, (w.point k).holds (w.info k) .client = some d → .left k d ∉ w.log
  linked : ∀ k, link k w.log = some ((w.point k).phase k (w.info k))
  fits : ∀ k, (w.point k).Fits k (w.info k) w.log
  -- a status that is about to be stored was set with a connection in the field
  copies : ∀ k, (w.point k).stored = some true →
    Begun k.partner (w.point k.partner) (w.info k.partner) w.log
  cmd : ∀ d, .left .cmd d ∉ w.log
  senders : ∀ x ∈ w.senders, x.2.Fits x.1 (w.point x.1) (w.info x.1) (w.resets x.1) w.log
  sends : Always SendOk w.log

variable {u : Owners} {holds : Server × Role → ℤ → Prop} {x : Server × Role} {d : ℤ}

/-- A new descriptor. -/
theorem Owned.take (h : Owned u holds) (hd : u d = none) :
    Owned (Function.update u d (some x)) fun y e => holds y e ∨ y = x ∧ e = d := by
  intro y e
  have hy := h y e
  by_cases he : e = d
  · subst he
    rw [hd] at hy
    have hnone : ¬holds y e := fun hh => Option.some_ne_none y (hy.mpr hh).symm
    simp [hnone, eq_comm]
  · simp [hy, he]

/-- A descriptor is given back. -/
theorem Owned.give (h : Owned u holds) :
    Owned (Function.update u d none) fun y e => holds y e ∧ e ≠ d := by
  intro y e
  by_cases he : e = d
  · simp [he]
  · simp [h y e, he]

theorem Owned.congr {holds' : Server × Role → ℤ → Prop} (h : Owned u holds)
    (hiff : ∀ x d, holds' x d ↔ holds x d) : Owned u holds' :=
  fun x d => (h x d).trans (hiff x d).symm

/-! ## The steps of a server -/

variable {k : Server} {p p' : ServerPoint} {info info' : ServerInfo} {answer : Answer}
  {other : Bool} {l log : List LanEvent} {n : ℕ} {w w' : LanState}

/-- The status is set where a client is served, and cleared elsewhere by the server of the
commands, which alone announces itself. -/
theorem status_step (h : p.Fits k info log)
    (hstep : serverThread k info other p answer = some (p', info', l)) :
    (p' = .announce → k = .cmd) ∧ (k = .cmd → p'.Inner → info'.status = true) ∧
      (k = .cmd → ¬p'.Inner → info'.status = false) := by
  obtain ⟨hannounce, hinner, houter, -, -⟩ := h
  revert hstep
  fun_cases serverThread k info other p answer <;> intro hstep
  all_goals
    try simp only [Option.some.injEq, Prod.mk.injEq, reduceCtorEq] at hstep
    try obtain ⟨rfl, rfl, rfl⟩ := hstep
  all_goals
    grind [ServerPoint.Inner, afterAccept, afterReset]

/-- The field of the client stays set. -/
theorem Begun.step (h : Begun k p info log)
    (hstep : serverThread k info other p answer = some (p', info', l)) :
    Begun k p' info' (log ++ l) := by
  revert hstep
  fun_cases serverThread k info other p answer <;> intro hstep
  all_goals
    try simp only [Option.some.injEq, Prod.mk.injEq, reduceCtorEq] at hstep
    try obtain ⟨rfl, rfl, rfl⟩ := hstep
  all_goals
    grind [Begun, ServerPoint.Linked, afterAccept, afterReset]

/-- The status is set with a connection in the field. -/
theorem begun_step (h : p.Fits k info log)
    (hstep : serverThread k info other p answer = some (p', info', l))
    (hstatus : info'.status = true) : Begun k p' info' (log ++ l) := by
  by_cases hset : info.status = true
  · exact (h.begun hset).step hstep
  · revert hstep
    -- the two steps that set the status are made by a server with a client
    fun_cases serverThread k info other p answer <;> intro hstep
    all_goals
      try simp only [Option.some.injEq, Prod.mk.injEq, reduceCtorEq] at hstep
      try obtain ⟨rfl, rfl, rfl⟩ := hstep
    all_goals
      grind [Begun, ServerPoint.Linked]

/-- The listener is never that of a failed `socket`. -/
theorem listener_step (h : p.Fits k info log)
    (hstep : serverThread k info other p answer = some (p', info', l)) :
    p'.holds info' .listener ≠ some (-1) := by
  obtain ⟨-, -, -, -, hlistener⟩ := h
  revert hstep
  fun_cases serverThread k info other p answer <;> intro hstep
  all_goals
    try simp only [Option.some.injEq, Prod.mk.injEq, reduceCtorEq] at hstep
    try obtain ⟨rfl, rfl, rfl⟩ := hstep
  all_goals
    grind [afterAccept, afterReset, ServerPoint.holds]

/-- The fields are as they have to be where the server goes. -/
theorem ServerPoint.Fits.step (h : p.Fits k info log)
    (hstep : serverThread k info other p answer = some (p', info', l)) :
    p'.Fits k info' (log ++ l) := by
  obtain ⟨hannounce, hinner, houter⟩ := status_step h hstep
  exact ⟨hannounce, hinner, houter, begun_step h hstep, listener_step h hstep⟩

/-- The events of a step are those that may occur next. -/
theorem phase_step (h : p.Fits k info log)
    (hstep : serverThread k info other p answer = some (p', info', l)) :
    l.foldl (linkStep k) (some (p.phase k info)) = some (p'.phase k info') := by
  obtain ⟨hannounce, hinner, houter, hbegun, hlistener⟩ := h
  revert hstep
  fun_cases serverThread k info other p answer <;> intro hstep
  all_goals
    try simp only [Option.some.injEq, Prod.mk.injEq, reduceCtorEq] at hstep
    try obtain ⟨rfl, rfl, rfl⟩ := hstep
  all_goals
    grind [ServerPoint.Inner, afterAccept, afterReset, ServerPoint.phase, linkStep,
      LinkPhase.next, LanEvent.server]

/-- A connection stays in the field until that is reset, or is left open. -/
theorem linked_step (hstep : serverThread k info other p answer = some (p', info', l))
    (h : p.Linked) (hreset : p.isReset = false) :
    .left k info.fd ∈ l ∨ p'.Linked ∧ info'.fd = info.fd := by
  revert hstep
  fun_cases serverThread k info other p answer <;> intro hstep
  all_goals
    try simp only [Option.some.injEq, Prod.mk.injEq, reduceCtorEq] at hstep
    try obtain ⟨rfl, rfl, rfl⟩ := hstep
  all_goals
    grind [ServerPoint.isReset, ServerPoint.Linked, afterAccept, afterReset]

/-- A word that is about to be stored was loaded before. -/
theorem stored_step (hstep : serverThread k info other p answer = some (p', info', l))
    {b : Bool} (h : p'.stored = some b) : b = other ∧ (p = .setStatus ∨ p = .clearStatus) := by
  revert hstep
  fun_cases serverThread k info other p answer <;> intro hstep
  all_goals
    try simp only [Option.some.injEq, Prod.mk.injEq, reduceCtorEq] at hstep
    try obtain ⟨rfl, rfl, rfl⟩ := hstep
  all_goals
    grind [ServerPoint.stored, afterAccept, afterReset]

/-- What a step of a server does with its descriptors. -/
inductive Handover (k : Server) (answer : Answer) (old new : Role → Option ℤ)
    (l : List LanEvent) : Prop
  | keep (same : new = old) (quiet : ∀ u, l.foldl ownersStep (some u) = some u)
      (none_left : ∀ d, .left k d ∉ l)
  | take (r : Role) (d : ℕ) (got : answer = .fd (some d)) (free : old r = none)
      (taken : new = Function.update old r (some (d : ℤ)))
      (told : ∀ u, l.foldl ownersStep (some u) = some (Function.update u (d : ℤ) (some (k, r))))
      (none_left : ∀ d, .left k d ∉ l)
  | give (r : Role) (d : ℤ) (had : old r = some d) (given : new = Function.update old r none)
      (told : l = [.close k d])
  | leave (d : ℤ) (had : old .client = some d) (given : new = Function.update old .client none)
      (told : l = [.left k d])

/-- **A step takes a descriptor, gives one back, leaves one open, or does neither.** -/
theorem handover (hfits : p.Fits k info log)
    (hstep : serverThread k info other p answer = some (p', info', l))
    (hmalloc : p = .malloc → answer ≠ .ok false) :
    Handover k answer (p.holds info) (p'.holds info') l := by
  obtain ⟨-, hinner, -, -, hlistener⟩ := hfits
  revert hstep
  fun_cases serverThread k info other p answer <;> intro hstep
  all_goals
    try simp only [Option.some.injEq, Prod.mk.injEq, reduceCtorEq] at hstep
    try obtain ⟨rfl, rfl, rfl⟩ := hstep
  all_goals
    -- most branches touch no descriptor; the five that do are left
    try
      refine .keep ?_ (fun u => rfl) fun d => by simp
      funext r
      cases r <;> grind [ServerPoint.Inner, ServerPoint.holds, afterReset]
  -- `socket`
  · refine .take .listener _ rfl rfl ?_ (fun u => rfl) fun d => by simp
    funext r
    cases r <;> rfl
  -- `accept`
  · refine .take .client _ rfl rfl ?_ (fun u => rfl) fun d => by simp
    funext r
    cases r <;> grind [ServerPoint.holds, afterAccept]
  -- the loop is left
  · refine .leave _ rfl ?_ rfl
    funext r
    cases r <;> rfl
  -- the client is closed
  · refine .give .client _ rfl ?_ rfl
    funext r
    cases r <;> rfl
  -- the listener is closed
  · refine .give .listener _ rfl ?_ rfl
    funext r
    cases r <;> rfl

/-- Events of a thread are no calls that send. -/
theorem sendOk_step (hstep : serverThread k info other p answer = some (p', info', l)) :
    ∀ e ∈ l, e.server = k ∧ ∀ log, SendOk log e := by
  revert hstep
  fun_cases serverThread k info other p answer <;> intro hstep
  all_goals
    try simp only [Option.some.injEq, Prod.mk.injEq, reduceCtorEq] at hstep
    try obtain ⟨rfl, rfl, rfl⟩ := hstep
  all_goals simp [LanEvent.server, SendOk]

/-- A client is left open where the status is tested and cleared. -/
theorem left_step (hstep : serverThread k info other p answer = some (p', info', l))
    (h : .left k d ∈ l) : p = .test ∧ info.status = false := by
  revert hstep
  fun_cases serverThread k info other p answer <;> intro hstep
  all_goals
    try simp only [Option.some.injEq, Prod.mk.injEq, reduceCtorEq] at hstep
    try obtain ⟨rfl, rfl, rfl⟩ := hstep
  all_goals grind

/-! ## The invariant is kept -/

/-- What a step of a server does to the state. -/
structure ServerStep (w : LanState) (k : Server) (answer : Answer) (l : List LanEvent)
    (w' : LanState) : Prop where
  thread : serverThread k (w.info k) (w.info k.partner).status (w.point k) answer =
    some (w'.point k, w'.info k, l)
  log : w'.log = w.log ++ l
  senders : w'.senders = w.senders
  resets : w'.resets k = w.resets k + (w.point k).isReset.toNat
  point_others : ∀ k' ≠ k, w'.point k' = w.point k'
  resets_others : ∀ k' ≠ k, w'.resets k' = w.resets k'
  fd_others : ∀ k' ≠ k, (w'.info k').fd = (w.info k').fd
  serverFd_others : ∀ k' ≠ k, (w'.info k').serverFd = (w.info k').serverFd
  -- the partner may get its status back
  status_others : ∀ k' ≠ k, (w'.info k').status = (w.info k').status ∨
    k' = k.partner ∧ (w.point k).stored = some (w'.info k').status

theorem serverStep_of_next (hstep : w.serverNext k answer = some w') :
    ∃ l, ServerStep w k answer l w' := by
  obtain ⟨⟨p', info', l⟩, hthread, rfl⟩ := Option.map_eq_some_iff.mp hstep
  refine ⟨l, by simpa using hthread, rfl, rfl, by simp, fun k' hk => by simp [hk],
    fun k' hk => by simp [hk], fun k' hk => ?_, fun k' hk => ?_, fun k' hk => ?_⟩
  all_goals
    simp only [Function.update_of_ne hk, LanState.storeOther]
    by_cases hpartner : k' = k.partner
    · subst hpartner
      simp only [Function.update_self]
      try cases (w.point k).stored <;> simp
    · simp [Function.update_of_ne hpartner]

theorem partner_ne_cmd (hk : k.partner ≠ k) : k.partner ≠ .cmd := by
  cases k with
  | cmd => exact absurd rfl hk
  | img | aud => exact Server.noConfusion

theorem holds_congr (hfd : info'.fd = info.fd) (hserver : info'.serverFd = info.serverFd) :
    p.holds info' = p.holds info := by
  funext r
  cases p <;> cases r <;> simp [ServerPoint.holds, hfd, hserver]

theorem phase_congr (hfd : info'.fd = info.fd) : p.phase k info' = p.phase k info := by
  cases p <;> simp [ServerPoint.phase, hfd]

theorem Begun.congr (h : Begun k p info log) (hfd : info'.fd = info.fd) :
    Begun k p info' (log ++ l) := by
  rw [Begun, hfd]
  exact h.imp_right (Or.imp_right fun hleft => List.mem_append_left _ hleft)

/-- A store of the partner does not matter if what it stores was set with a connection in the
field. -/
theorem ServerPoint.Fits.others (h : p.Fits k info log) (hfd : info'.fd = info.fd)
    (hserver : info'.serverFd = info.serverFd)
    (hstatus : info'.status = info.status ∨
      k ≠ .cmd ∧ (info'.status = true → Begun k p info log)) :
    p.Fits k info' (log ++ l) := by
  refine ⟨h.announce, fun hk => ?_, fun hk => ?_, fun hset => ?_, ?_⟩
  · rcases hstatus with hstatus | hstatus
    · exact hstatus ▸ h.inner hk
    · exact absurd hk hstatus.1
  · rcases hstatus with hstatus | hstatus
    · exact hstatus ▸ h.outer hk
    · exact absurd hk hstatus.1
  · rcases hstatus with hstatus | hstatus
    · exact (h.begun (hstatus ▸ hset)).congr hfd
    · exact (hstatus.2 hset).congr hfd
  · rw [holds_congr hfd hserver]
    exact h.listener

theorem SendPoint.Fits.others {q : SendPoint} (h : q.Fits k p info n log)
    (hfd : info'.fd = info.fd) : q.Fits k p info' n (log ++ l) := by
  cases q with
  | status | returned => trivial
  | guard | check | load => exact Begun.congr h hfd
  | call fd m =>
    obtain ⟨hbegun, hle, hcurrent⟩ := h
    refine ⟨hbegun.congr hfd, hle, fun heq => ?_⟩
    rw [hfd]
    exact (hcurrent heq).imp_right (Or.imp_left fun hleft => List.mem_append_left _ hleft)

theorem SendPoint.Fits.step {q : SendPoint} (h : q.Fits k p info n log)
    (hstep : serverThread k info other p answer = some (p', info', l)) :
    q.Fits k p' info' (n + p.isReset.toNat) (log ++ l) := by
  cases q with
  | status | returned => trivial
  | guard | check | load => exact Begun.step h hstep
  | call fd m =>
    obtain ⟨hbegun, hle, hcurrent⟩ := h
    refine ⟨hbegun.step hstep, by omega, fun heq => ?_⟩
    cases hreset : p.isReset with
    | true =>
      -- a reset behind the read of the descriptor: the call is not in time any more
      rw [hreset, Bool.toNat_true] at heq
      omega
    | false =>
      rw [hreset, Bool.toNat_false, Nat.add_zero] at heq
      rcases hcurrent heq with hnone | hleft | ⟨rfl, hlinked⟩
      · exact .inl hnone
      · exact .inr (.inl (List.mem_append_left _ hleft))
      · rcases linked_step hstep hlinked hreset with hleft | ⟨hlinked', hfd⟩
        · exact .inr (.inl (List.mem_append_right _ hleft))
        · exact .inr (.inr ⟨hfd.symm, hlinked'⟩)

/-- The other servers do not see what a server does. -/
theorem link_others {k' : Server} (hk : k' ≠ k) (hl : ∀ e ∈ l, e.server = k) :
    link k' (log ++ l) = link k' log :=
  observe_neutral fun e he => if_neg fun heq => hk (heq.symm.trans (hl e he))

theorem ServerStep.events (hstep : ServerStep w k answer l w') : ∀ e ∈ l, e.server = k :=
  fun e he => (sendOk_step hstep.thread e he).1

/-- Another server leaves no client open. -/
theorem ServerStep.left_others (hstep : ServerStep w k answer l w') {k' : Server} (hk : k' ≠ k) :
    .left k' d ∈ w'.log ↔ .left k' d ∈ w.log := by
  rw [hstep.log, List.mem_append]
  exact or_iff_left fun hleft => hk (hstep.events _ hleft)

/-- The other servers have what they had. -/
theorem ServerStep.holds_others (hstep : ServerStep w k answer l w') (hx : x.1 ≠ k) :
    w'.holds x d ↔ w.holds x d := by
  rw [LanState.holds, LanState.holds, hstep.point_others _ hx,
    holds_congr (hstep.fd_others _ hx) (hstep.serverFd_others _ hx), hstep.left_others hx]

/-- What a server has itself is what its step makes of it. -/
theorem ServerStep.holds_self (hstep : ServerStep w k answer l w') {r : Role} :
    w'.holds (k, r) d ↔ (w'.point k).holds (w'.info k) r = some d ∨
      r = .client ∧ (.left k d ∈ w.log ∨ .left k d ∈ l) := by
  rw [LanState.holds, hstep.log, List.mem_append]

/-- The client that a server has behind its step is none that it has left open. -/
theorem Served.once_step (h : Served w) (hlawful : w.Lawful (.server k answer))
    (hstep : ServerStep w k answer l w')
    (hd : (w'.point k).holds (w'.info k) .client = some d) : .left k d ∉ w'.log := by
  obtain ⟨u, hu, howned⟩ := h.owned
  have honce := h.once k
  rw [hstep.log]
  cases handover (h.fits k) hstep.thread hlawful.1 with
  | keep same _ none_left =>
    rw [List.mem_append, not_or]
    exact ⟨honce d (same ▸ hd), none_left d⟩
  | take r e got free taken told none_left =>
    rw [List.mem_append, not_or]
    refine ⟨fun hleft => ?_, none_left d⟩
    rw [taken] at hd
    by_cases hr : r = .client
    -- the library gives out a descriptor that nobody has
    · subst hr
      obtain rfl : (e : ℤ) = d := by simpa using hd
      have hheld := (howned (k, .client) e).mpr (.inr ⟨rfl, hleft⟩)
      rw [hlawful.2 e got u hu] at hheld
      exact Option.some_ne_none _ hheld.symm
    · rw [Function.update_of_ne (Ne.symm hr)] at hd
      exact honce d hd hleft
  | give r e had given told =>
    rw [told]
    rw [given] at hd
    by_cases hr : r = .client
    · subst hr
      simp at hd
    · rw [Function.update_of_ne (Ne.symm hr)] at hd
      simpa using honce d hd
  | leave e had given told =>
    rw [given] at hd
    simp at hd

/-- The descriptors behind a step of a server. -/
theorem Served.owned_step (h : Served w) (hlawful : w.Lawful (.server k answer))
    (hstep : ServerStep w k answer l w') : ∃ u ∈ owners w'.log, Owned u w'.holds := by
  obtain ⟨u, hu, howned⟩ := h.owned
  have hlog : owners w'.log = l.foldl ownersStep (some u) := by
    rw [hstep.log, ← Option.mem_def.mp hu]
    exact observe_append
  rw [hlog]
  cases handover (h.fits k) hstep.thread hlawful.1 with
  | keep same quiet none_left =>
    refine ⟨u, quiet u, howned.congr fun x d => ?_⟩
    by_cases hx : x.1 = k
    · obtain ⟨k', r⟩ := x
      obtain rfl : k' = k := hx
      rw [hstep.holds_self, same, LanState.holds]
      simp [none_left d]
    · exact hstep.holds_others hx
  | take r d got free taken told none_left =>
    -- the library gives out a descriptor that nobody has
    have hfree : u d = none := hlawful.2 d got u hu
    refine ⟨_, told u, (howned.take hfree).congr fun x e => ?_⟩
    by_cases hx : x.1 = k
    · obtain ⟨k', r'⟩ := x
      obtain rfl : k' = k := hx
      rw [hstep.holds_self, taken, LanState.holds]
      by_cases hr : r' = r
      · subst hr
        simp [free, none_left e, or_comm, eq_comm]
      · simp [hr, none_left e]
    · have hne : ¬(x = (k, r) ∧ e = d) := fun heq => hx (congrArg Prod.fst heq.1)
      rw [hstep.holds_others hx, or_iff_left hne]
  | give r d had given told =>
    have hheld : u d = some (k, r) := (howned (k, r) d).mpr (.inl had)
    have hhas {x : Server × Role} (hh : w.holds x d) : x = (k, r) :=
      Option.some.inj (((howned x d).mpr hh).symm.trans hheld)
    -- `ownersStep` accepts a close by the server that has the descriptor
    have hmine : u d = some (k, .listener) ∨ u d = some (k, .client) := by
      cases r with
      | listener => exact .inl hheld
      | client => exact .inr hheld
    rw [told]
    refine ⟨_, if_pos hmine, howned.give.congr fun x e => ?_⟩
    by_cases hx : x.1 = k
    · obtain ⟨k', r'⟩ := x
      obtain rfl : k' = k := hx
      rw [hstep.holds_self, given, told, LanState.holds]
      by_cases hr : r' = r
      · subst hr
        have hnot : r' = .client → .left k' d ∉ w.log := fun hr => h.once k' d (hr ▸ had)
        grind
      · have hne : ¬w.holds (k', r') d := fun hh => hr (Prod.mk.inj (hhas hh)).2
        rw [LanState.holds] at hne
        rw [Function.update_of_ne hr]
        grind
    · have hne : w.holds x e → e ≠ d := by
        rintro hh rfl
        exact hx (congrArg Prod.fst (hhas hh))
      rw [hstep.holds_others hx]
      exact ⟨fun hh => ⟨hh, hne hh⟩, And.left⟩
  | leave d had given told =>
    rw [told]
    refine ⟨u, rfl, howned.congr fun x e => ?_⟩
    by_cases hx : x.1 = k
    · obtain ⟨k', r⟩ := x
      obtain rfl : k' = k := hx
      rw [hstep.holds_self, given, told, LanState.holds]
      cases r with
      | listener => simp
      | client => simp [had, or_comm, eq_comm]
    · exact hstep.holds_others hx

/-- **A step of a server.** -/
theorem Served.server (h : Served w) (hlawful : w.Lawful (.server k answer))
    (hstep : ServerStep w k answer l w') : Served w' := by
  refine ⟨h.owned_step hlawful hstep, fun k' d hd => ?_, fun k' => ?_, fun k' => ?_, fun k' hk' => ?_,
    fun d hleft => ?_, fun x hx => ?_, ?_⟩
  · by_cases hk : k' = k
    · subst hk
      exact h.once_step hlawful hstep hd
    · rw [hstep.point_others _ hk, holds_congr (hstep.fd_others _ hk) (hstep.serverFd_others _ hk)]
        at hd
      rw [hstep.left_others hk]
      exact h.once k' d hd
  · rw [hstep.log]
    by_cases hk : k' = k
    · subst hk
      rw [← phase_step (h.fits k') hstep.thread, ← h.linked k']
      exact observe_append
    · rw [link_others hk hstep.events, hstep.point_others _ hk, phase_congr (hstep.fd_others _ hk)]
      exact h.linked k'
  · rw [hstep.log]
    by_cases hk : k' = k
    · subst hk
      exact (h.fits k').step hstep.thread
    · rw [hstep.point_others _ hk]
      refine (h.fits k').others (hstep.fd_others _ hk) (hstep.serverFd_others _ hk) ?_
      refine (hstep.status_others _ hk).imp_right ?_
      rintro ⟨rfl, hstored⟩
      exact ⟨partner_ne_cmd hk, fun hset => h.copies k (hset ▸ hstored)⟩
  · -- a copy that was loaded before, or has just been loaded
    have hcopy : Begun k'.partner (w.point k'.partner) (w.info k'.partner) w.log := by
      by_cases hk : k' = k
      · subst hk
        exact (h.fits k'.partner).begun (stored_step hstep.thread hk').1.symm
      · rw [hstep.point_others _ hk] at hk'
        exact h.copies k' hk'
    rw [hstep.log]
    by_cases hk : k'.partner = k
    · rw [hk] at hcopy ⊢
      exact hcopy.step hstep.thread
    · rw [hstep.point_others _ hk]
      exact hcopy.congr (hstep.fd_others _ hk)
  · rw [hstep.log, List.mem_append] at hleft
    rcases hleft with hleft | hleft
    · exact h.cmd d hleft
    · obtain rfl : .cmd = k := hstep.events _ hleft
      obtain ⟨hpoint, hstatus⟩ := left_step hstep.thread hleft
      have hinner := (h.fits .cmd).inner rfl (hpoint ▸ trivial)
      exact Bool.false_ne_true (hstatus.symm.trans hinner)
  · rw [hstep.senders] at hx
    rw [hstep.log]
    by_cases hk : x.1 = k
    · subst hk
      rw [hstep.resets]
      exact SendPoint.Fits.step (h.senders x hx) hstep.thread
    · rw [hstep.point_others _ hk, hstep.resets_others _ hk]
      exact SendPoint.Fits.others (h.senders x hx) (hstep.fd_others _ hk)
  · rw [hstep.log]
    exact h.sends.append fun e he => (sendOk_step hstep.thread e he).2

/-- A descriptor that is read and used before the field is reset is that of a client. -/
theorem Served.client_of_fresh (h : Served w) {i : ℕ} (hi : w.senders[i]? = some (k, .call d n))
    (hnonneg : 0 ≤ d) (hresets : n = w.resets k) (hclosed : (w.point k).isReset = false) :
    ∃ u ∈ owners w.log, u d = some (k, .client) := by
  obtain ⟨u, hu, howned⟩ := h.owned
  obtain ⟨-, -, hcurrent⟩ := h.senders _ (List.mem_of_getElem? hi)
  refine ⟨u, hu, (howned (k, .client) d).mpr ?_⟩
  -- not reset since it was read, the field still has it, if it was not left open
  rcases hcurrent hresets with hnegative | hleft | ⟨hd, hlinked⟩
  · omega
  · exact .inr ⟨rfl, hleft⟩
  · left
    have hd' : d = (w.info k).fd := hd
    show (w.point k).holds (w.info k) .client = some d
    rw [hd']
    generalize w.point k = p at hlinked hclosed
    cases p <;> first | rfl | exact hlinked.elim | exact Bool.noConfusion hclosed

/-- A call goes on. -/
theorem Served.set_sender {i : ℕ} {q : SendPoint} (h : Served w)
    (hq : q.Fits k (w.point k) (w.info k) (w.resets k) w.log) :
    Served { w with senders := w.senders.set i (k, q) } := by
  refine ⟨h.owned, h.once, h.linked, h.fits, h.copies, h.cmd, fun x hx => ?_, h.sends⟩
  rcases List.mem_or_eq_of_mem_set hx with hx | rfl
  · exact h.senders x hx
  · exact hq

/-- Something is sent. -/
theorem Served.send {fresh : Bool} (h : Served w)
    (hfresh : fresh = true → ∃ u ∈ owners w.log, u d = some (k, .client)) :
    Served { w with log := w.log ++ [.send k d fresh] } := by
  obtain ⟨u, hu, howned⟩ := h.owned
  have hleft (k' : Server) (e : ℤ) :
      .left k' e ∈ w.log ++ [.send k d fresh] ↔ .left k' e ∈ w.log := by simp
  refine ⟨⟨u, ?_, howned.congr fun x e => ?_⟩, fun k' e => ?_, fun k' => ?_, fun k' => ?_,
    fun k' hk' => (h.copies k' hk').congr rfl, fun e => ?_, fun x hx => ?_,
    always_snoc.mpr ⟨h.sends, ?_⟩⟩
  · rw [owners_snoc, Option.mem_def.mp hu]
    rfl
  · rw [LanState.holds, LanState.holds, hleft]
  · rw [hleft]
    exact h.once k' e
  · rw [link_snoc, h.linked k', linkStep]
    split
    · rw [Option.bind_some]
      cases (w.point k').phase k' (w.info k') <;> rfl
    · rfl
  · exact (h.fits k').others rfl rfl (.inl rfl)
  · rw [hleft]
    exact h.cmd e
  · exact SendPoint.Fits.others (h.senders x hx) rfl
  · cases fresh with
    | true => exact hfresh rfl
    | false => trivial

/-- **A step of a call that sends.** -/
theorem Served.sender {i : ℕ} {more : Bool} (h : Served w) (hstep : w.sendNext i more = some w') :
    Served w' := by
  unfold LanState.sendNext at hstep
  split at hstep
  · exact absurd hstep (Option.some_ne_none _).symm
  · rename_i k q hi
    have hq := h.senders _ (List.mem_of_getElem? hi)
    cases q with
    | status =>
      obtain rfl := Option.some.inj hstep
      refine h.set_sender ?_
      split
      · rename_i hstatus
        -- where the status is set, the field of the client has been set before
        split <;> exact (h.fits k).begun hstatus
      · trivial
    | guard | check =>
      obtain rfl := Option.some.inj hstep
      refine h.set_sender ?_
      split
      · trivial
      · exact hq
    | load =>
      obtain rfl := Option.some.inj hstep
      refine h.set_sender ⟨hq, Nat.le_refl _, fun _ => ?_⟩
      rcases hq with hnegative | hlinked | hleft
      · exact .inl hnegative
      · exact .inr (.inr ⟨rfl, hlinked⟩)
      · exact .inr (.inl hleft)
    | call d n =>
      obtain rfl := Option.some.inj hstep
      refine (h.send fun hfresh => ?_).set_sender ?_
      · obtain ⟨hnonneg, hresets, hclosed⟩ := of_decide_eq_true hfresh
        exact h.client_of_fresh hi hnonneg hresets (by simpa using hclosed)
      · split
        · exact hq.1.congr rfl
        · trivial
    | returned => exact absurd hstep (Option.some_ne_none _).symm

theorem Served.step {a : LanState.Action} (h : Served w) (hlawful : w.Lawful a)
    (hstep : w.step a w') : Served w' := by
  cases a with
  | server k answer =>
    obtain ⟨l, hserver⟩ := serverStep_of_next hstep
    exact h.server hlawful hserver
  | sender i more => exact h.sender hstep
  | send k =>
    obtain rfl := Option.some.inj hstep
    refine ⟨h.owned, h.once, h.linked, h.fits, h.copies, h.cmd, fun x hx => ?_, h.sends⟩
    rcases List.mem_append.mp hx with hx | hx
    · exact h.senders x hx
    · obtain rfl := List.mem_singleton.mp hx
      trivial

theorem served_boot : Served .boot where
  owned := by
    refine ⟨fun _ => none, rfl, fun x d => iff_of_false (Option.some_ne_none x).symm ?_⟩
    rintro (hheld | ⟨-, hleft⟩)
    · obtain ⟨k, r⟩ := x
      cases k <;> exact Option.some_ne_none d hheld.symm
    · exact absurd hleft List.not_mem_nil
  once _ _ _ := List.not_mem_nil
  linked k := by cases k <;> rfl
  fits k := by
    cases k <;> exact ⟨ServerPoint.noConfusion, fun _ => False.elim, fun _ _ => rfl,
      fun h => absurd h Bool.false_ne_true, (Option.some_ne_none _).symm⟩
  copies k h := by cases k <;> exact absurd h (Option.some_ne_none _).symm
  cmd _ := List.not_mem_nil
  senders x hx := absurd hx List.not_mem_nil
  sends := always_nil

theorem served_of_reaches (h : Reaches (Guarded LanState.step LanState.Lawful) .boot w) :
    Served w :=
  h.invariant served_boot fun _ _ _ hw hstep => hw.step hstep.1 hstep.2

/-! ## The word of the statuses -/

/-- The invariant of the runs in which the word is loaded by one thread at a time. -/
structure Steady (w : LanState) : Prop where
  sole : ∀ k ≠ .cmd, (w.point k).stored ≠ none → (w.point k.partner).stored = none
  current : ∀ k ≠ .cmd, ∀ b, (w.point k).stored = some b → (w.info k.partner).status = b
  inner : ∀ k, (w.point k).Inner → (w.info k).status = true
  stays : ∀ k d, .left k d ∉ w.log

theorem partner_partner : k.partner.partner = k := by cases k <;> rfl

theorem ne_cmd_of_partner (hk : k.partner ≠ .cmd) : k ≠ .cmd := by
  rintro rfl
  exact hk rfl

theorem partner_ne_self (hk : k ≠ .cmd) : k.partner ≠ k := by
  cases k with
  | cmd => exact absurd rfl hk
  | img | aud => exact Server.noConfusion

/-- A thread that loads or stores the word serves no client yet, or none any more. -/
theorem inner_step (hstep : serverThread k info other p answer = some (p', info', l))
    (h : p.Inner → info.status = true) (hp' : p'.Inner) : info'.status = true := by
  revert hstep
  fun_cases serverThread k info other p answer <;> intro hstep
  all_goals
    try simp only [Option.some.injEq, Prod.mk.injEq, reduceCtorEq] at hstep
    try obtain ⟨rfl, rfl, rfl⟩ := hstep
  all_goals
    grind [ServerPoint.Inner, afterAccept, afterReset]

/-- A server changes its status where it stores the word, or is the command server. -/
theorem status_kept (hk : k ≠ .cmd) (hfits : p.Fits k info log)
    (hstep : serverThread k info other p answer = some (p', info', l)) (hp : p.stored = none) :
    info'.status = info.status := by
  obtain ⟨hannounce, -, -, -, -⟩ := hfits
  revert hstep
  fun_cases serverThread k info other p answer <;> intro hstep
  all_goals
    try simp only [Option.some.injEq, Prod.mk.injEq, reduceCtorEq] at hstep
    try obtain ⟨rfl, rfl, rfl⟩ := hstep
  all_goals
    grind [ServerPoint.stored]

/-- Nothing is undone by a store. -/
theorem Steady.status_others (h : Steady w) (hstep : ServerStep w k answer l w') {k' : Server}
    (hk : k' ≠ k) : (w'.info k').status = (w.info k').status := by
  rcases hstep.status_others k' hk with hsame | ⟨rfl, hstored⟩
  · exact hsame
  · exact (h.current k (ne_cmd_of_partner (partner_ne_cmd hk)) _ hstored).symm

theorem Steady.server (h : Steady w) (hw : Served w) (hapart : w.Apart (.server k answer))
    (hstep : ServerStep w k answer l w') : Steady w' := by
  refine ⟨fun k' hcmd hk' => ?_, fun k' hcmd b hb => ?_, fun k' hk' => ?_, fun k' d hleft => ?_⟩
  · -- the word is loaded only if the partner does not have it
    by_cases hk : k' = k
    · subst hk
      obtain ⟨b, hb⟩ := Option.ne_none_iff_exists'.mp hk'
      rw [hstep.point_others _ (partner_ne_self hcmd)]
      exact hapart (stored_step hstep.thread hb).2
    · rw [hstep.point_others _ hk] at hk'
      by_cases hpartner : k'.partner = k
      · rw [hpartner]
        by_contra hother
        obtain ⟨b, hb⟩ := Option.ne_none_iff_exists'.mp hother
        refine hk' ?_
        rw [← partner_partner (k := k'), hpartner]
        exact hapart (stored_step hstep.thread hb).2
      · rw [hstep.point_others _ hpartner]
        exact h.sole k' hcmd hk'
  · by_cases hk : k' = k
    · subst hk
      obtain ⟨rfl, -⟩ := stored_step hstep.thread hb
      exact h.status_others hstep (partner_ne_self hcmd)
    · rw [hstep.point_others _ hk] at hb
      rw [← h.current k' hcmd b hb]
      by_cases hpartner : k'.partner = k
      · -- the server whose status was loaded does not store its own meanwhile
        have hnone : (w.point k).stored = none :=
          hpartner ▸ h.sole k' hcmd (hb ▸ Option.some_ne_none b)
        have hne : k ≠ .cmd := hpartner ▸ partner_ne_cmd (partner_ne_self hcmd)
        rw [hpartner]
        exact status_kept hne (hw.fits k) hstep.thread hnone
      · exact h.status_others hstep hpartner
  · by_cases hk : k' = k
    · subst hk
      exact inner_step hstep.thread (h.inner k') hk'
    · rw [hstep.point_others _ hk] at hk'
      rw [h.status_others hstep hk]
      exact h.inner k' hk'
  · rw [hstep.log, List.mem_append] at hleft
    rcases hleft with hleft | hleft
    · exact h.stays k' d hleft
    · obtain rfl : k' = k := hstep.events _ hleft
      obtain ⟨hpoint, hstatus⟩ := left_step hstep.thread hleft
      exact Bool.false_ne_true (hstatus.symm.trans (h.inner k' (hpoint ▸ trivial)))

/-- A call that sends writes no status. -/
theorem sender_keeps {i : ℕ} {more : Bool} (hstep : w.sendNext i more = some w') :
    w'.point = w.point ∧ w'.info = w.info ∧
      ∀ k d, .left k d ∈ w'.log ↔ .left k d ∈ w.log := by
  unfold LanState.sendNext at hstep
  split at hstep
  · exact absurd hstep (Option.some_ne_none _).symm
  · rename_i k q hi
    cases q with
    | status | guard | check | load =>
      obtain rfl := Option.some.inj hstep
      exact ⟨rfl, rfl, fun _ _ => Iff.rfl⟩
    | call d n =>
      obtain rfl := Option.some.inj hstep
      exact ⟨rfl, rfl, fun k' e => by simp⟩
    | returned => exact absurd hstep (Option.some_ne_none _).symm

theorem Steady.step {a : LanState.Action} (h : Steady w) (hw : Served w) (hapart : w.Apart a)
    (hstep : w.step a w') : Steady w' := by
  cases a with
  | server k answer =>
    obtain ⟨l, hserver⟩ := serverStep_of_next hstep
    exact h.server hw hapart hserver
  | sender i more =>
    obtain ⟨hpoint, hinfo, hleft⟩ := sender_keeps hstep
    exact ⟨hpoint ▸ h.sole, hpoint ▸ hinfo ▸ h.current, hpoint ▸ hinfo ▸ h.inner,
      fun k d hd => h.stays k d ((hleft k d).mp hd)⟩
  | send k =>
    obtain rfl := Option.some.inj hstep
    exact ⟨h.sole, h.current, h.inner, h.stays⟩

theorem steady_boot : Steady .boot where
  sole k hk h := by cases k <;> exact absurd rfl h
  current k hk b h := by cases k <;> exact absurd h (Option.some_ne_none b).symm
  inner k h := by cases k <;> exact h.elim
  stays _ _ := List.not_mem_nil

/-- Nobody is left open where the word is loaded by one thread at a time. -/
theorem steady_of_reaches
    (h : Reaches (Guarded LanState.step fun w a => w.Lawful a ∧ w.Apart a) .boot w) :
    Steady w :=
  (h.invariant (P := fun w => Served w ∧ Steady w) ⟨served_boot, steady_boot⟩
    fun _ _ _ hw hstep => ⟨hw.1.step hstep.1.1 hstep.2, hw.2.step hw.1 hstep.1.2 hstep.2⟩).2

/-! ## Results -/

/-- **Descriptors are closed once.** Whatever the sockets answer and whatever the order of the
steps, a server closes only what it has obtained and not closed yet.  A server that waits for a
connection has its listener, one that has ended has nothing, but for the clients that were left
open; the command server leaves none, and nobody does if the word of the statuses is loaded by one
thread at a time. -/
theorem descriptors_are_closed_once (w : LanState)
    (h : Reaches (Guarded LanState.step LanState.Lawful) .boot w) :
    (∃ u, owners w.log = some u ∧ ∀ k r d,
      (w.point k = .select → (u d = some (k, r) ↔
        r = .listener ∧ d = (w.info k).serverFd ∨ r = .client ∧ .left k d ∈ w.log)) ∧
      (w.point k = .ended → (u d = some (k, r) ↔ r = .client ∧ .left k d ∈ w.log))) ∧
    (∀ d, .left .cmd d ∉ w.log) ∧
    (Reaches (Guarded LanState.step fun w a => w.Lawful a ∧ w.Apart a) .boot w →
      ∀ k d, .left k d ∉ w.log) := by
  have hserved := served_of_reaches h
  obtain ⟨u, hu, howned⟩ := hserved.owned
  refine ⟨⟨u, hu, fun k r d => ⟨fun hpoint => (howned (k, r) d).trans ?_,
    fun hpoint => (howned (k, r) d).trans ?_⟩⟩, hserved.cmd,
    fun hapart => (steady_of_reaches hapart).stays⟩
  · rw [LanState.holds, hpoint]
    cases r with
    | listener => simp [ServerPoint.holds, eq_comm]
    | client => simp [ServerPoint.holds]
  · rw [LanState.holds, hpoint]
    simp [ServerPoint.holds]

/-- **Connections are reported.** In every such run the events of a server follow the course of its
connections: each is accepted, announced by the command server, ended, closed, and then reported
once by the command and the image server, by the event that belongs to the error.  No connection
that ends is left unreported when the server waits for the next one, or has ended.  A client of
the image or of the audio server that is left open has not ended, and is not looked at again; there
is none if the word of the statuses is loaded by one thread at a time. -/
theorem connections_are_reported (w : LanState)
    (h : Reaches (Guarded LanState.step LanState.Lawful) .boot w) (k : Server) :
    (∃ phase, link k w.log = some phase ∧
      (w.point k = .select ∨ w.point k = .ended → phase = .idle)) ∧
    (∀ d, .left .cmd d ∉ w.log) ∧
    (Reaches (Guarded LanState.step fun w a => w.Lawful a ∧ w.Apart a) .boot w →
      ∀ d, .left k d ∉ w.log) := by
  have hserved := served_of_reaches h
  refine ⟨⟨_, hserved.linked k, fun hpoint => ?_⟩, hserved.cmd,
    fun hapart => (steady_of_reaches hapart).stays k⟩
  rcases hpoint with hpoint | hpoint <;> rw [hpoint] <;> rfl

/-- **Clients get what is sent.** In every run with such answers, what is sent goes to an open
client of the same server, unless the field was reset behind the read of the descriptor, or its
connection is closed at the call and the field not reset yet. -/
theorem clients_get_what_is_sent (w : LanState)
    (h : Reaches (Guarded LanState.step LanState.Lawful) .boot w) :
    ∀ l₁ k d l₂, w.log = l₁ ++ .send k d true :: l₂ →
      ∃ u, owners l₁ = some u ∧ u d = some (k, .client) :=
  fun l₁ _ _ l₂ hlog => (served_of_reaches h).sends l₁ _ l₂ hlog

/-! ## Runs -/

/-- A test of what is assumed. -/
def LanState.lawful (w : LanState) : LanState.Action → Bool
  | .server k (.ok ok) => w.point k ≠ .malloc || ok
  | .server _ (.fd (some d)) => (owners w.log).all fun u => (u d).isNone
  | _ => true

/-- A test of the word being loaded by one thread. -/
def LanState.apart (w : LanState) : LanState.Action → Bool
  | .server k _ => (w.point k ≠ .setStatus && w.point k ≠ .clearStatus) ||
      (w.point k.partner).stored = none
  | _ => true

theorem LanState.lawful_of_test {a : LanState.Action} (h : w.lawful a = true) : w.Lawful a := by
  cases a with
  | send k | sender i more => trivial
  | server k answer =>
    cases answer with
    | ok ok =>
      refine ⟨fun hpoint heq => ?_, fun d hd => Answer.noConfusion hd⟩
      obtain rfl := Answer.ok.inj heq
      simp [LanState.lawful, hpoint] at h
    | fd fd =>
      refine ⟨fun _ => Answer.noConfusion, fun d hd u hu => ?_⟩
      obtain rfl := Answer.fd.inj hd
      simpa [LanState.lawful, Option.mem_def.mp hu] using h
    | none | data | ended notConn =>
      exact ⟨fun _ => Answer.noConfusion, fun d => Answer.noConfusion⟩

theorem LanState.apart_of_test {a : LanState.Action} (h : w.apart a = true) : w.Apart a := by
  cases a with
  | send k | sender i more => trivial
  | server k answer =>
    intro hpoint
    rcases hpoint with hpoint | hpoint <;> simpa [LanState.apart, hpoint] using h

/-- The step an action leads to. -/
def LanState.move (w : LanState) (a : LanState.Action) : Option (LanState.Action × LanState) :=
  (w.next a).map (a, ·)

/-- The two other servers get a client each. -/
def opening : List (ℕ × LanState.Action) :=
  [(1, .server .img .none), (1, .server .cmd (.ok true)), (1, .server .cmd (.fd (some 3))),
    (3, .server .cmd (.ok true)), (1, .server .cmd (.fd (some 5))), (3, .server .cmd .none),
    (1, .server .img (.ok true)), (1, .server .img (.fd (some 4))), (3, .server .img (.ok true)),
    (1, .server .img (.fd (some 6)))]

/-- Each action is repeated. -/
def repeated (moves : List (ℕ × LanState.Action)) : List LanState.Action :=
  moves.flatMap fun move => List.replicate move.1 move.2

/-- A packet for the image client is about to be sent when that client is lost, and the next
command client gets the descriptor. -/
def crossing : List LanState.Action :=
  repeated <| opening ++
    [(3, .server .img .none), (1, .send .img), (3, .sender 0 true), (1, .server .img (.ended true)),
      (2, .server .img .none), (1, .server .cmd (.ended false)), (4, .server .cmd .none),
      (1, .server .cmd (.ok true)), (1, .server .cmd (.fd (some 6))), (3, .server .cmd .none),
      (1, .sender 0 false), (1, .send .cmd), (4, .sender 1 true), (1, .sender 1 false),
      (2, .server .img .none), (1, .server .img (.ok true)), (1, .server .img (.fd none)),
      (6, .server .img .none)]

/-- What is observed of it. -/
theorem exists_crossing :
    ∃ w, Reaches (Guarded LanState.step fun w a => w.Lawful a ∧ w.Apart a) .boot w ∧
      w.point .img = .ended ∧
      w.log = [.sendMsg .img .lanTcpServiceStartResponse, .socket .cmd 3, .accept .cmd 5,
        .sendMsg .cmd .remoteDeviceConnected, .socket .img 4, .accept .img 6, .ended .img true,
        .close .img 6, .ended .cmd false, .close .cmd 5, .sendMsg .cmd .remoteDeviceDisconnected,
        .accept .cmd 6, .sendMsg .cmd .remoteDeviceConnected] ++ .send .img 6 false ::
        [.send .cmd 6 true, .sendMsg .img .imageTcpServiceDisconnected, .close .img 4] := by
  have hplay : (play LanState.move (fun w a => w.lawful a && w.apart a) crossing .boot).any
      (fun w => w.point .img = .ended ∧ w.log = [.sendMsg .img .lanTcpServiceStartResponse,
        .socket .cmd 3, .accept .cmd 5, .sendMsg .cmd .remoteDeviceConnected, .socket .img 4,
        .accept .img 6, .ended .img true, .close .img 6, .ended .cmd false, .close .cmd 5,
        .sendMsg .cmd .remoteDeviceDisconnected, .accept .cmd 6,
        .sendMsg .cmd .remoteDeviceConnected, .send .img 6 false, .send .cmd 6 true,
        .sendMsg .img .imageTcpServiceDisconnected, .close .img 4]) = true := by decide +kernel
  obtain ⟨w, hrun, hw⟩ := exists_reaches_of_play (fun _ _ _ _ => next_of_labelled) hplay
  refine ⟨w, hrun.weaken fun _ _ ha => ?_, of_decide_eq_true hw⟩
  have ha := (Bool.and_eq_true _ _).mp ha
  exact ⟨LanState.lawful_of_test ha.1, LanState.apart_of_test ha.2⟩

/-- The image server, which has ended, has no descriptor left. -/
theorem descriptors_are_closed_once_img : ∃ (w : LanState) (u : Owners), owners w.log = some u ∧
    w.point .img = .ended ∧ ∀ r d, u d ≠ some (.img, r) := by
  obtain ⟨w, hrun, hended, -⟩ := exists_crossing
  obtain ⟨⟨u, hu, hdescriptors⟩, -, hstays⟩ :=
    descriptors_are_closed_once w (hrun.weaken fun _ _ => And.left)
  refine ⟨w, u, hu, hended, fun r d hd => ?_⟩
  exact hstays hrun .img d (((hdescriptors .img r d).2 hended).mp hd).2

/-- It has reported its only client. -/
theorem connections_are_reported_img : ∃ w : LanState, .accept .img 6 ∈ w.log ∧
    link .img w.log = some .idle ∧ ∀ d, .left .img d ∉ w.log := by
  obtain ⟨w, hrun, hended, hlog⟩ := exists_crossing
  obtain ⟨⟨phase, hlink, hidle⟩, -, hstays⟩ :=
    connections_are_reported w (hrun.weaken fun _ _ => And.left) .img
  exact ⟨w, by simp [hlog], hlink.trans (congrArg some (hidle (.inr hended))), hstays hrun⟩

/-- The second command client gets its packet. -/
theorem clients_get_what_is_sent_cmd : ∃ (l : List LanEvent) (u : Owners), owners l = some u ∧
    u 6 = some (.cmd, .client) := by
  obtain ⟨w, hrun, -, hlog⟩ := exists_crossing
  rw [List.append_cons] at hlog
  exact ⟨_, clients_get_what_is_sent w (hrun.weaken fun _ _ => And.left) _ .cmd 6 _ hlog⟩

/-- **A packet may go to a client of another server**: the image packet is sent to the command
client. -/
theorem sends_may_cross :
    ∃ (w : LanState) (l₁ l₂ : List LanEvent),
      Reaches (Guarded LanState.step LanState.Lawful) .boot w ∧
      w.log = l₁ ++ .send .img 6 false :: l₂ ∧
      (owners l₁).bind (· 6) = some (.cmd, .client) := by
  obtain ⟨w, hrun, -, hlog⟩ := exists_crossing
  exact ⟨w, _, _, hrun.weaken fun _ _ => And.left, hlog, by decide +kernel⟩

/-- **A client may be left open**: the image server sets its status between the load and the store
of the audio server, and waits for the next client. -/
theorem clients_may_be_left :
    ∃ w, Reaches (Guarded LanState.step LanState.Lawful) .boot w ∧ w.point .img = .select ∧
      .left .img 6 ∈ w.log ∧ (owners w.log).bind (· 6) = some (.img, .client) := by
  have hplay : (play LanState.move LanState.lawful (repeated <| opening ++
      [(1, .server .aud (.ok true)), (1, .server .aud (.fd (some 7))),
        (3, .server .aud (.ok true)), (1, .server .aud (.fd (some 8))), (1, .server .aud .none),
        (3, .server .img .none), (1, .server .img .data), (1, .server .aud .none),
        (1, .server .img .none)]) .boot).any
      (fun w => w.point .img = .select ∧ .left .img 6 ∈ w.log ∧
        (owners w.log).bind (· 6) = some (.img, .client)) = true := by decide +kernel
  obtain ⟨w, hrun, hw⟩ := exists_reaches_of_play (fun _ _ _ _ => next_of_labelled) hplay
  exact ⟨w, hrun.weaken fun _ _ => LanState.lawful_of_test, of_decide_eq_true hw⟩

/-- **A server needs its buffer**: without one, it closes a descriptor that it has not obtained. -/
theorem buffer_is_needed : ∃ w, Reaches LanState.step .boot w ∧ owners w.log = none := by
  have hplay : (play LanState.move (fun _ _ => true)
      [.server .cmd (.ok false), .server .cmd .none, .server .cmd .none] .boot).any
      (fun w => (owners w.log).isNone) = true := by decide +kernel
  obtain ⟨w, hrun, hw⟩ := exists_reaches_of_play (fun _ _ _ _ => next_of_labelled) hplay
  exact ⟨w, hrun.mono fun _ _ _ ha => ha.2, Option.isNone_iff_eq_none.mp hw⟩

end Lan

end YangIpc
