import YangIpc.Signalling.Server

/-!
# One client at a time

The server keeps the client id of the last login.  Requests of other clients are refused, requests
without a session are ignored, and every login closes the session before it and gets a new uid.

## Main definitions

* `lastLogin`, `logins`, `installed`: what a run tells about logins and the uids assigned
* `Tracks`: the session is the one of the last login
* `Isolated`: what a call may do

## Main results

* `Tracks.run`: the session follows the logins
* `single_client_isolation`: every call of every run is isolated
-/

namespace YangIpc

namespace Signalling

open Bytes (CString)

variable {handle : YangIpcHandle} {around : Surroundings} {session : ServerSession}
  {mss : YangIpcRequest} {last : Option Cid} {n : ℕ} {uids : List Int32}

/-! ## What is observed of logins -/

/-- The client id of the most recent login, after `last`. -/
def lastLoginFrom : Option Cid → List ServerInput → Option Cid
  | last, [] => last
  | last, .message _ mss :: rest =>
    lastLoginFrom (if mss.requestType = .login then some mss.cid else last) rest
  | last, .tick _ :: rest => lastLoginFrom last rest

/-- The client id of the most recent login. -/
def lastLogin (inputs : List ServerInput) : Option Cid := lastLoginFrom none inputs

/-- The number of logins. -/
def logins : List ServerInput → ℕ
  | [] => 0
  | .message _ mss :: rest => (if mss.requestType = .login then 1 else 0) + logins rest
  | .tick _ :: rest => logins rest

/-- The uid the event assigns. -/
def ServerEvent.installed : ServerEvent → Option Int32
  | .install connCid => some connCid.uid
  | _ => none

/-- The uids assigned, in order. -/
def installed (events : List ServerEvent) : List Int32 := events.filterMap ServerEvent.installed

/-- The event is one of the callbacks of a session. -/
def ServerEvent.isCallback : ServerEvent → Bool
  | .addPeer .. => true
  | .addPeer2 .. => true
  | .setLocalDescription .. => true
  | .setRemoteDescription .. => true
  | .addCandidate .. => true
  | .receiveMsg .. => true
  | _ => false

/-- The request was read by the parser, which copies at most twelve characters of the id. -/
def ServerInput.Parsed : ServerInput → Prop
  | .message _ mss => ∃ text, mss.cid = Cid.ofText text
  | .tick _ => True

/-! ## One call -/

theorem installed_append (l l' : List ServerEvent) :
    installed (l ++ l') = installed l ++ installed l' := List.filterMap_append

/-- Messages assign no uid and are no callbacks. -/
theorem sendmsg_publishes {topic : CString} {request : YangIpcRequest} {e : ServerEvent}
    (h : e ∈ (yangIpcmessageSendmsg around topic request).1) : ∃ t r, e = .publish t r := by
  unfold yangIpcmessageSendmsg at h
  split at h
  · exact ⟨_, _, List.mem_singleton.mp h⟩
  · exact absurd h List.not_mem_nil

theorem installed_sendmsg {topic : CString} {request : YangIpcRequest} :
    installed (yangIpcmessageSendmsg around topic request).1 = [] := by
  refine List.filterMap_eq_nil_iff.mpr fun e he => ?_
  obtain ⟨t, r, rfl⟩ := sendmsg_publishes he
  rfl

/-- What a request of the session's client does: the uid, the client id and the connection stay,
and no uid is assigned. -/
structure Served (session : ServerSession) (r : ServerSession × List ServerEvent) : Prop where
  session : ∃ ts, r.1 = { session with connCid := { session.connCid with ts := ts } }
  installed : installed r.2 = []

theorem Served.same {events : List ServerEvent} (h : Signalling.installed events = []) :
    Served session (session, events) := ⟨⟨session.connCid.ts, rfl⟩, h⟩

theorem served_p2p : Served session (yangIpcmessageHandleMessageP2p handle around session mss) := by
  unfold yangIpcmessageHandleMessageP2p
  split
  · apply Served.same
    unfold yangIpcmessageConnect
    split
    · cases around.sdp with
      | none => rfl
      | some sdp => exact installed_sendmsg
    · rfl
  split
  · apply Served.same
    unfold yangIpcmessageAnswer
    split
    · cases mss.data with
      | none => rfl
      | some sdp =>
        simp only [List.cons_append]
        show installed (_ ++ _) = []
        rw [installed_append, installed_sendmsg]
        split <;> rfl
    · rfl
  split
  · apply Served.same
    unfold yangIpcmessageResponse
    split <;> rfl
  split
  · apply Served.same
    unfold yangIpcmessageCandidate
    split <;> rfl
  split
  · unfold yangIpcmessageHandleMessagePing
    split
    · exact ⟨⟨around.time, rfl⟩, rfl⟩
    · exact .same rfl
  · exact .same rfl

/-- A request of the session's client. -/
theorem handleMessage_own (h : mss.requestType ≠ .login)
    (hconnected : session.connCid.isConnected = true)
    (hcid : session.connCid.cid.compared = mss.cid.compared) :
    yangIpcmessageHandleMessage handle around session mss =
      if mss.connectType = .user then (session, yangIpcmessageHandleMessageUser around mss)
      else if mss.requestType = .close then (session, yangIpcmessageHandleMessageClose handle mss)
      else if mss.connectType = .p2p then
        yangIpcmessageHandleMessageP2p handle around session mss
      else if mss.connectType = .datachannel then
        (session, yangIpcmessageHandleMessageData handle mss)
      else (session, []) := by
  rw [yangIpcmessageHandleMessage, if_neg h, yangIpcmessageHandleMessageVerify, if_pos hconnected,
    if_pos hcid]

variable (handle around session) in
/-- **A request without a login in it.** It is ignored when there is no session, refused when it
has another client id, and served otherwise. -/
theorem handleMessage_cases (h : mss.requestType ≠ .login) :
    (session.connCid.isConnected = false ∧
      yangIpcmessageHandleMessage handle around session mss = (session, [])) ∨
    (session.connCid.isConnected = true ∧ session.connCid.cid.compared ≠ mss.cid.compared ∧
      yangIpcmessageHandleMessage handle around session mss =
        (session, (yangIpcmessageSendmsg around mss.cid.topic
          (reply mss mss.connectType .notLogin mss.uid none)).1)) ∨
    (session.connCid.isConnected = true ∧ session.connCid.cid.compared = mss.cid.compared ∧
      Served session (yangIpcmessageHandleMessage handle around session mss)) := by
  by_cases hdead : session.connCid.isConnected = false
  · refine .inl ⟨hdead, ?_⟩
    rw [yangIpcmessageHandleMessage, if_neg h, yangIpcmessageHandleMessageVerify,
      if_neg (by simp [hdead])]
  have hconnected := eq_true_of_ne_false hdead
  by_cases hforeign : session.connCid.cid.compared ≠ mss.cid.compared
  · refine .inr (.inl ⟨hconnected, hforeign, ?_⟩)
    rw [yangIpcmessageHandleMessage, if_neg h, yangIpcmessageHandleMessageVerify,
      if_pos hconnected, if_neg hforeign]
  have hcid := not_not.mp hforeign
  refine .inr (.inr ⟨hconnected, hcid, ?_⟩)
  rw [handleMessage_own h hconnected hcid]
  split
  · exact .same installed_sendmsg
  split
  · apply Served.same
    unfold yangIpcmessageHandleMessageClose
    split <;> rfl
  split
  · exact served_p2p
  split
  · apply Served.same
    unfold yangIpcmessageHandleMessageData
    cases mss.data with
    | none => rfl
    | some data =>
      simp only
      split <;> rfl
  · exact .same rfl

/-- A login. -/
theorem handleMessage_login (h : mss.requestType = .login) :
    yangIpcmessageHandleMessage handle around session mss =
      yangIpcmessageHandleMessageLogin handle around session mss := if_pos h

theorem installed_login :
    installed (yangIpcmessageHandleMessageLogin handle around session mss).2 =
      [session.uidSeq.toInt32] := by
  unfold yangIpcmessageHandleMessageLogin
  rw [installed_append]
  split <;> exact congrArg (_ :: ·) installed_sendmsg

theorem checkLive_cases (handle : YangIpcHandle) (session : ServerSession) (time : UInt64) :
    yangCheckLive handle session time = (session, []) ∨
      (session.connCid.isConnected = true ∧
        secondsSincePing session time > yangLiveTimeSecond ∧
        yangCheckLive handle session time =
          ({ session with connCid := { session.connCid with isConnected := false } },
            if handle.close then [.close session.connCid.uid] else [])) := by
  unfold yangCheckLive
  split
  · rename_i hconnected
    split
    · rename_i hold
      exact .inr ⟨hconnected, hold, rfl⟩
    · exact .inl rfl
  · exact .inl rfl

/-! ## Runs -/

/-- The uid assigned by the login with this number. -/
def uidOf (i : ℕ) : Int32 := (10 + UInt32.ofNat i).toInt32

/-- Uids are distinct until the counter wraps. -/
theorem uidOf_inj {i j : ℕ} (hi : i < UInt32.size) (hj : j < UInt32.size)
    (h : uidOf i = uidOf j) : i = j := by
  have h32 : (10 : UInt32) + UInt32.ofNat i = 10 + UInt32.ofNat j := congrArg Int32.toUInt32 h
  have hnat := congrArg UInt32.toNat ((UInt32.add_right_inj _).mp h32)
  rwa [UInt32.toNat_ofNat_of_lt' hi, UInt32.toNat_ofNat_of_lt' hj] at hnat

/-- The session is the one of the last of `n` logins, which were assigned `uids`. -/
structure Tracks (session : ServerSession) (last : Option Cid) (n : ℕ) (uids : List Int32) :
    Prop where
  client : session.connCid.isConnected = true → last = some session.connCid.cid
  terminated : session.connCid.cid.last = 0
  counter : session.uidSeq = 10 + UInt32.ofNat n
  assigned : uids = (List.range n).map uidOf
  stored : session.connCid.uid = uids.getLast?.getD 0

theorem tracks_start : Tracks .start none 0 [] :=
  ⟨fun h => absurd h (by decide), by decide, rfl, rfl, rfl⟩

/-- A call that serves the session keeps track of it. -/
theorem Tracks.served {r : ServerSession × List ServerEvent} (h : Tracks session last n uids)
    (hr : Served session r) : Tracks r.1 last n (uids ++ installed r.2) := by
  obtain ⟨⟨ts, hsession⟩, hinstalled⟩ := hr
  rw [hsession, hinstalled, List.append_nil]
  exact ⟨h.client, h.terminated, h.counter, h.assigned, h.stored⟩

theorem Tracks.login (h : Tracks session last n uids) (hlast : mss.cid.last = 0) :
    Tracks (yangIpcmessageHandleMessageLogin handle around session mss).1 (some mss.cid) (n + 1)
      (uids ++ installed (yangIpcmessageHandleMessageLogin handle around session mss).2) := by
  have huid : session.uidSeq.toInt32 = uidOf n := by rw [h.counter, uidOf]
  rw [installed_login]
  refine ⟨fun _ => rfl, hlast, ?_, ?_, ?_⟩
  · show session.uidSeq + 1 = _
    rw [h.counter, UInt32.ofNat_add]
    exact UInt32.add_assoc _ _ _
  · rw [h.assigned, huid, List.range_succ, List.map_append]
    rfl
  · rw [List.getLast?_concat]
    rfl

/-- **One call.** -/
theorem Tracks.step {input : ServerInput} (h : Tracks session last n uids)
    (hparsed : input.Parsed) :
    Tracks (session.step handle input).1 (lastLoginFrom last [input]) (n + logins [input])
      (uids ++ installed (session.step handle input).2) := by
  cases input with
  | tick time =>
    show Tracks (yangCheckLive handle session time).1 last n
      (uids ++ installed (yangCheckLive handle session time).2)
    rcases checkLive_cases handle session time with he | ⟨-, -, he⟩
    · rw [he]
      exact h.served (.same rfl)
    · have hnone : installed (if handle.close then [.close session.connCid.uid] else []) = [] := by
        split <;> rfl
      rw [he, hnone, List.append_nil]
      exact ⟨fun hc => absurd hc (by simp), h.terminated, h.counter, h.assigned, h.stored⟩
  | message around mss =>
    obtain ⟨text, htext⟩ := hparsed
    simp only [ServerSession.step, lastLoginFrom, logins]
    by_cases hlogin : mss.requestType = .login
    · rw [if_pos hlogin, if_pos hlogin, handleMessage_login hlogin]
      exact h.login (by rw [htext, Cid.last_ofText])
    · rw [if_neg hlogin, if_neg hlogin]
      rcases handleMessage_cases handle around session hlogin with
        ⟨-, he⟩ | ⟨-, -, he⟩ | ⟨-, -, hserved⟩
      · rw [he]
        exact h.served (.same rfl)
      · rw [he]
        exact h.served (.same installed_sendmsg)
      · exact h.served hserved

variable (handle) in
/-- **The session follows the logins.** -/
theorem Tracks.run : ∀ (inputs : List ServerInput) (session : ServerSession) (last : Option Cid)
    (n : ℕ) (uids : List Int32), Tracks session last n uids →
    (∀ input ∈ inputs, input.Parsed) →
    Tracks (session.run handle inputs).1 (lastLoginFrom last inputs) (n + logins inputs)
      (uids ++ installed (session.run handle inputs).2) := by
  intro inputs
  induction inputs with
  | nil =>
    intro session last n uids h _
    show Tracks session last n (uids ++ [])
    rwa [List.append_nil]
  | cons input rest ih =>
    intro session last n uids h hparsed
    have hstep : Tracks (session.step handle input).1 _ _ _ :=
      h.step (hparsed input List.mem_cons_self)
    have hnext := ih _ _ _ _ hstep fun x hx => hparsed x (List.mem_cons_of_mem _ hx)
    rw [List.append_assoc, ← installed_append, Nat.add_assoc] at hnext
    cases input with
    | tick time => exact (Nat.zero_add (logins rest)).symm ▸ hnext
    | message around mss => exact hnext

/-! ## Isolation -/

/-- What a call may do, when `last` is the client id of the most recent login and `uids` are those
assigned by the `n` logins so far. -/
structure Isolated (handle : YangIpcHandle) (session : ServerSession) (last : Option Cid) (n : ℕ)
    (uids : List Int32) (input : ServerInput) : Prop where
  /-- Callbacks are made for requests of the last client that logged in, while it is connected. -/
  callback : ∀ e ∈ (session.step handle input).2, e.isCallback = true →
    ∃ around mss, input = .message around mss ∧ session.connCid.isConnected = true ∧
      last = some mss.cid
  /-- So are the closes that a request asks for. -/
  close : ∀ around mss uid, input = .message around mss → mss.requestType ≠ .login →
    .close uid ∈ (session.step handle input).2 →
      session.connCid.isConnected = true ∧ last = some mss.cid
  /-- Other clients get a refusal, and nothing happens. -/
  foreign : ∀ around mss, input = .message around mss → mss.requestType ≠ .login →
    session.connCid.isConnected = true → last ≠ some mss.cid →
      session.step handle input = (session, (yangIpcmessageSendmsg around mss.cid.topic
        (reply mss mss.connectType .notLogin mss.uid none)).1)
  /-- Without a session, nothing happens at all. -/
  ignored : ∀ around mss, input = .message around mss → mss.requestType ≠ .login →
    session.connCid.isConnected = false → session.step handle input = (session, [])
  /-- A login closes the previous session, and then begins a new one with a new uid. -/
  login : ∀ around mss, input = .message around mss → mss.requestType = .login →
    ∃ connCid : YangConnCid, connCid.isConnected = true ∧ connCid.cid = mss.cid ∧
      (session.step handle input).1.connCid = connCid ∧
      (session.step handle input).2 =
        (if handle.close then [.close (uids.getLast?.getD 0)] else []) ++ .install connCid ::
          (yangIpcmessageSendmsg around mss.cid.topic
            (reply mss mss.connectType .loginResponse connCid.uid none)).1 ∧
      (n < UInt32.size → connCid.uid ∉ uids)

theorem sendmsg_no_callback {topic : CString} {request : YangIpcRequest} {e : ServerEvent}
    (h : e ∈ (yangIpcmessageSendmsg around topic request).1) :
    e.isCallback = false ∧ ∀ uid, e ≠ .close uid := by
  obtain ⟨t, r, rfl⟩ := sendmsg_publishes h
  exact ⟨rfl, fun uid => by simp⟩

theorem login_no_callback {e : ServerEvent}
    (h : e ∈ (yangIpcmessageHandleMessageLogin handle around session mss).2) :
    e.isCallback = false := by
  unfold yangIpcmessageHandleMessageLogin at h
  rcases List.mem_append.mp h with h | h
  · split at h
    · obtain rfl := List.mem_singleton.mp h
      rfl
    · exact absurd h List.not_mem_nil
  · rcases List.mem_cons.mp h with rfl | h
    · rfl
    · exact (sendmsg_no_callback h).1

theorem checkLive_no_callback {time : UInt64} {e : ServerEvent}
    (h : e ∈ (yangCheckLive handle session time).2) : e.isCallback = false := by
  rcases checkLive_cases handle session time with he | ⟨-, -, he⟩ <;> rw [he] at h
  · exact absurd h List.not_mem_nil
  · simp only at h
    split at h
    · obtain rfl := List.mem_singleton.mp h
      rfl
    · exact absurd h List.not_mem_nil

/-- Client ids are compared as they should be. -/
theorem Tracks.compared (h : Tracks session last n uids)
    (hconnected : session.connCid.isConnected = true) {text : CString}
    (htext : mss.cid = Cid.ofText text) :
    session.connCid.cid.compared = mss.cid.compared ↔ last = some mss.cid := by
  rw [Cid.compared_inj h.terminated (by rw [htext, Cid.last_ofText]), h.client hconnected,
    Option.some.injEq]

theorem Tracks.isolated {input : ServerInput} (h : Tracks session last n uids)
    (hparsed : input.Parsed) : Isolated handle session last n uids input := by
  -- whatever is not a publication comes from a request that was verified
  have hverified : ∀ around mss, input = .message around mss → mss.requestType ≠ .login →
      (∃ e ∈ (session.step handle input).2, e.isCallback = true ∨ ∃ uid, e = .close uid) →
      session.connCid.isConnected = true ∧ last = some mss.cid := by
    rintro around mss rfl hlogin ⟨e, he, hkind⟩
    obtain ⟨text, htext⟩ := hparsed
    simp only [ServerSession.step] at he
    rcases handleMessage_cases handle around session hlogin with
      ⟨-, heq⟩ | ⟨-, -, heq⟩ | ⟨hconnected, hcid, -⟩
    · rw [heq] at he
      exact absurd he List.not_mem_nil
    · rw [heq] at he
      obtain ⟨hcallback, hclose⟩ := sendmsg_no_callback he
      rcases hkind with hkind | ⟨uid, rfl⟩
      · exact Bool.noConfusion (hkind.symm.trans hcallback)
      · exact absurd rfl (hclose uid)
    · exact ⟨hconnected, (h.compared hconnected htext).mp hcid⟩
  constructor
  · intro e he hcallback
    cases input with
    | tick time =>
      exact Bool.noConfusion (hcallback.symm.trans (checkLive_no_callback he))
    | message around mss =>
      by_cases hlogin : mss.requestType = .login
      · simp only [ServerSession.step, handleMessage_login hlogin] at he
        exact Bool.noConfusion (hcallback.symm.trans (login_no_callback he))
      · exact ⟨around, mss, rfl, hverified around mss rfl hlogin ⟨e, he, .inl hcallback⟩⟩
  · intro around mss uid hinput hlogin hclose
    exact hverified around mss hinput hlogin ⟨_, hclose, .inr ⟨uid, rfl⟩⟩
  · rintro around mss rfl hlogin hconnected hforeign
    obtain ⟨text, htext⟩ := hparsed
    rcases handleMessage_cases handle around session hlogin with
      ⟨hdead, -⟩ | ⟨-, -, heq⟩ | ⟨-, hcid, -⟩
    · exact Bool.noConfusion (hconnected.symm.trans hdead)
    · exact heq
    · exact absurd ((h.compared hconnected htext).mp hcid) hforeign
  · rintro around mss rfl hlogin hdead
    rcases handleMessage_cases handle around session hlogin with
      ⟨-, heq⟩ | ⟨hconnected, -⟩ | ⟨hconnected, -⟩
    · exact heq
    · exact Bool.noConfusion (hconnected.symm.trans hdead)
    · exact Bool.noConfusion (hconnected.symm.trans hdead)
  · rintro around mss rfl hlogin
    refine ⟨loginConnCid around session mss, rfl, rfl, ?_, ?_, fun hn hmem => ?_⟩
    · simp only [ServerSession.step, handleMessage_login hlogin]
      rfl
    · simp only [ServerSession.step, handleMessage_login hlogin]
      rw [← h.stored]
      rfl
    · -- a uid assigned before has a smaller number
      rw [h.assigned] at hmem
      obtain ⟨i, hi, huid⟩ := List.mem_map.mp hmem
      have hlt := List.mem_range.mp hi
      have huidn : uidOf i = uidOf n := by
        rw [huid, loginConnCid, h.counter, uidOf]
      exact absurd (uidOf_inj (by omega) hn huidn) (by omega)

/-- **Single-client isolation.** In every run of parsed requests and ticks, every call is
isolated. -/
theorem single_client_isolation (handle : YangIpcHandle) (inputs : List ServerInput)
    (input : ServerInput) (hparsed : ∀ x ∈ inputs ++ [input], x.Parsed) :
    Isolated handle (ServerSession.run handle .start inputs).1 (lastLogin inputs) (logins inputs)
      (installed (ServerSession.run handle .start inputs).2) input := by
  have htracks := Tracks.run handle inputs _ _ _ _ tracks_start fun x hx =>
    hparsed x (List.mem_append_left _ hx)
  rw [Nat.zero_add, List.nil_append] at htracks
  exact htracks.isolated (hparsed input (List.mem_append_right _ List.mem_cons_self))

/-! ## A run -/

/-- All callbacks are set. -/
def allSet : YangIpcHandle := ⟨true, true, true, true, true, true, true⟩

/-- A call at the second `second`, the broker being connected. -/
def aroundAt (second : UInt64) : Surroundings :=
  ⟨second * 1000000, true, none, ⟨[97], by decide⟩, some ⟨[111], by decide⟩⟩

/-- The ids of two clients. -/
def clientA : CString := ⟨ascii "a", by decide⟩

def clientB : CString := ⟨ascii "b", by decide⟩

/-- A request without data. -/
def plainRequest (requestType : YangIpcRequestType) (uid : Int32) (client : CString) :
    YangIpcRequest := ⟨.p2p, requestType, uid, 0, .ofText client, none, none⟩

/-- One client logs in, and another one asks for a connection. -/
theorem single_client_isolation_foreign :
    ((ServerSession.run allSet .start
      [.message (aroundAt 1) (plainRequest .login 0 clientA)]).1.step
      allSet (.message (aroundAt 2) (plainRequest .connect 10 clientB))).2 =
        [.publish clientB (plainRequest .notLogin 10 clientB)] := by
  have hparsed : ∀ x ∈ [ServerInput.message (aroundAt 1) (plainRequest .login 0 clientA),
      .message (aroundAt 2) (plainRequest .connect 10 clientB)], x.Parsed := by
    simp only [List.forall_mem_cons]
    exact ⟨⟨clientA, rfl⟩, ⟨clientB, rfl⟩, by simp⟩
  have hforeign := (single_client_isolation allSet
    [.message (aroundAt 1) (plainRequest .login 0 clientA)] _ hparsed).foreign _ _ rfl (by decide)
      (by decide) (by decide)
  rw [hforeign]
  decide

end Signalling

end YangIpc
