import YangIpc.Library.Run
import YangIpc.Signalling.Isolation
import YangIpc.Signalling.Parser

/-!
# Requests without data

What is published to the device is a JSON object in which any member may be missing or have
another type.  A member that is not a string leaves the data of the request absent.  The data
channel looks whether there is data; the three requests that carry a description or a candidate
do not.

## Main definitions

* `Delivery`, `ServerSession.deliver`: what reaches the server, and its handling
* `ServerEvent.lacksData`: absent data is measured, or handed to a callback
* `NeedsData`: the requests that cannot do without
* `Supplied`: such a request has data

## Main results

* `lacksData_handleMessage_iff`: which requests go wrong, in every state
* `missing_data_iff`: which runs go well
-/

namespace YangIpc

namespace Signalling

open Bytes (CString)
open Transition

variable {Item : Type} (lib : JsonLibrary Item)

/-! ## What reaches the server -/

/-- A text that is published to the device, a candidate of the device itself, or the timer. -/
inductive Delivery
  | text (around : Surroundings) (msg : CString)
  | candidate (around : Surroundings) (uid : Int32) (cid : Cid) (candidate : CString)
  | tick (time : UInt64)

/-- A delivery is handled.  A text that cannot be read is dropped. -/
def ServerSession.deliver (handle : YangIpcHandle) (session : ServerSession) :
    Delivery → ServerSession × List ServerEvent
  | .text around msg =>
    match yangIpcmsgParse lib msg .cleared with
    | some mss => yangIpcmessageHandleMessage handle around session mss
    | none => (session, [])
  | .candidate around uid cid candidate =>
    yangIpcmessageHandleMessage handle around session
      ⟨.user, .candidate, uid, 0, cid, some candidate, none⟩
  | .tick time => yangCheckLive handle session time

/-- Absent data is measured, or handed to a callback as a string. -/
def ServerEvent.lacksData : ServerEvent → Bool
  | .strlenOfNull => true
  | .setRemoteDescription none _ => true
  | .addCandidate _ none => true
  | _ => false

/-- The requests that need data: they are the session's, and their callback is set. -/
def NeedsData (handle : YangIpcHandle) (session : ServerSession) (connectType : YangIpcConnectType)
    (requestType : YangIpcRequestType) (cid : Cid) : Prop :=
  session.connCid.isConnected = true ∧ session.connCid.cid.compared = cid.compared ∧
    connectType = .p2p ∧
      (requestType = .connectSdp ∧ handle.addPeer = true ∨
        requestType = .answer ∧ handle.setRemoteDescription = true ∨
          requestType = .candidate ∧ handle.addCandidate = true)

instance (handle : YangIpcHandle) (session : ServerSession) (connectType : YangIpcConnectType)
    (requestType : YangIpcRequestType) (cid : Cid) :
    Decidable (NeedsData handle session connectType requestType cid) := by
  unfold NeedsData
  infer_instance

/-- The number of a member of an object as the value of a field, or zero. -/
def numberOf {α : Type} [OfNat α 0] (convert : Int32 → α) (o : Item) (name : String) : α :=
  readNumber lib convert (lib.getObjectItemCaseSensitive o name) 0

/-- The client id of an object, cleared if it has none. -/
def cidOf (o : Item) : Cid :=
  match readString lib (lib.getObjectItemCaseSensitive o "cid") with
  | some s => .ofText s
  | none => .replicate yangCidLength 0

/-- The request of an object. -/
def requestOf (o : Item) : YangIpcRequest where
  connectType := numberOf lib .ofNumber o "connectType"
  requestType := numberOf lib .ofNumber o "requestType"
  uid := numberOf lib id o "uid"
  isHttps := if lib.isTrue (lib.getObjectItemCaseSensitive o "isHttps") then 1 else 0
  cid := cidOf lib o
  data := readString lib (lib.getObjectItemCaseSensitive o "data")
  url := readString lib (lib.getObjectItemCaseSensitive o "url")

/-- A request that needs data is an object whose member `data` is a string.  Only the lowest bytes
of its numbers count. -/
def Supplied (handle : YangIpcHandle) (session : ServerSession) : Delivery → Prop
  | .text _ msg => ∀ o, lib.createJsonReader msg = some o →
    NeedsData handle session (numberOf lib .ofNumber o "connectType")
      (numberOf lib .ofNumber o "requestType") (cidOf lib o) → ∃ s, lib.Shows o "data" (.string s)
  | _ => True

/-- No string is missing where a delivery is handled. -/
def HandledWhole (handle : YangIpcHandle) (session : ServerSession) (d : Delivery) : Prop :=
  ∀ e ∈ (session.deliver lib handle d).2, e.lacksData = false

/-! ## Requests -/

section Requests

variable {lib} {handle : YangIpcHandle} {around : Surroundings} {session : ServerSession}
  {mss : YangIpcRequest} {e : ServerEvent}

/-- Something goes wrong with absent data. -/
def SomeLacksData (events : List ServerEvent) : Prop := ∃ e ∈ events, e.lacksData = true

theorem not_someLacksData_nil : ¬SomeLacksData [] := by
  rintro ⟨e, he, -⟩
  exact List.not_mem_nil he

theorem someLacksData_cons {l : List ServerEvent} :
    SomeLacksData (e :: l) ↔ e.lacksData = true ∨ SomeLacksData l := List.exists_mem_cons_iff ..

theorem someLacksData_append {l l' : List ServerEvent} :
    SomeLacksData (l ++ l') ↔ SomeLacksData l ∨ SomeLacksData l' := by
  simp only [SomeLacksData, List.mem_append, or_and_right, exists_or]

/-- An event alone, if a condition holds. -/
theorem someLacksData_ite {b : Bool} :
    SomeLacksData (if b then [e] else []) ↔ e.lacksData = true ∧ b = true := by
  cases b with
  | false => exact iff_of_false not_someLacksData_nil fun h => Bool.false_ne_true h.2
  | true => simp [someLacksData_cons, not_someLacksData_nil]

theorem not_someLacksData_sendmsg {topic : CString} {request : YangIpcRequest} :
    ¬SomeLacksData (yangIpcmessageSendmsg around topic request).1 := by
  rintro ⟨e, he, hlacks⟩
  obtain ⟨t, r, rfl⟩ := sendmsg_publishes he
  exact Bool.false_ne_true hlacks

theorem someLacksData_answer_iff :
    SomeLacksData (yangIpcmessageAnswer handle around mss) ↔
      mss.data = none ∧ handle.addPeer = true := by
  unfold yangIpcmessageAnswer
  split
  case isTrue hset =>
    rw [and_iff_left hset]
    cases mss.data with
    | none => exact iff_of_true (someLacksData_cons.mpr (.inl rfl)) rfl
    | some sdp =>
      refine iff_of_false (fun h => ?_) (Option.some_ne_none sdp)
      rcases someLacksData_append.mp h with h | h
      · rcases someLacksData_cons.mp h with h | h
        · exact Bool.false_ne_true h
        · exact not_someLacksData_sendmsg h
      · exact Bool.false_ne_true (someLacksData_ite.mp h).1
  case isFalse hset => exact iff_of_false not_someLacksData_nil fun h => hset h.2

theorem someLacksData_response_iff :
    SomeLacksData (yangIpcmessageResponse handle mss) ↔
      mss.data = none ∧ handle.setRemoteDescription = true := by
  rw [yangIpcmessageResponse, someLacksData_ite]
  cases mss.data <;> simp [ServerEvent.lacksData]

theorem someLacksData_candidate_iff :
    SomeLacksData (yangIpcmessageCandidate handle mss) ↔
      mss.data = none ∧ handle.addCandidate = true := by
  rw [yangIpcmessageCandidate, someLacksData_ite]
  cases mss.data <;> simp [ServerEvent.lacksData]

theorem not_someLacksData_connect :
    ¬SomeLacksData (yangIpcmessageConnect handle around mss) := by
  unfold yangIpcmessageConnect
  split
  case isTrue =>
    intro h
    rcases someLacksData_cons.mp h with h | h
    · exact Bool.false_ne_true h
    · cases hsdp : around.sdp with
      | none =>
        rw [hsdp] at h
        exact not_someLacksData_nil h
      | some sdp =>
        rw [hsdp] at h
        exact not_someLacksData_sendmsg h
  case isFalse => exact not_someLacksData_nil

/-- The requests of a peer connection. -/
theorem someLacksData_p2p_iff :
    SomeLacksData (yangIpcmessageHandleMessageP2p handle around session mss).2 ↔
      mss.data = none ∧
        (mss.requestType = .connectSdp ∧ handle.addPeer = true ∨
          mss.requestType = .answer ∧ handle.setRemoteDescription = true ∨
            mss.requestType = .candidate ∧ handle.addCandidate = true) := by
  have hsdp : YangIpcRequestType.connectSdp ≠ .answer := by decide
  have hsdp' : YangIpcRequestType.connectSdp ≠ .candidate := by decide
  have hanswer : YangIpcRequestType.answer ≠ .candidate := by decide
  unfold yangIpcmessageHandleMessageP2p
  split
  case isTrue h =>
    rw [h]
    refine iff_of_false not_someLacksData_connect ?_
    rintro ⟨-, ⟨h, -⟩ | ⟨h, -⟩ | ⟨h, -⟩⟩ <;> exact absurd h (by decide)
  split
  case isTrue h => simpa [h, hsdp, hsdp'] using someLacksData_answer_iff
  split
  case isTrue h => simpa [h, hsdp.symm, hanswer] using someLacksData_response_iff
  split
  case isTrue h => simpa [h, hsdp'.symm, hanswer.symm] using someLacksData_candidate_iff
  case isFalse hsdp hanswer hcandidate =>
    refine iff_of_false ?_ ?_
    · split <;> exact not_someLacksData_nil
    · rintro ⟨-, ⟨h, -⟩ | ⟨h, -⟩ | ⟨h, -⟩⟩
      · exact hsdp h
      · exact hanswer h
      · exact hcandidate h

/-- The data channel looks whether there is data. -/
theorem not_someLacksData_data : ¬SomeLacksData (yangIpcmessageHandleMessageData handle mss) := by
  unfold yangIpcmessageHandleMessageData
  cases mss.data with
  | none => exact not_someLacksData_nil
  | some data => exact fun h => Bool.false_ne_true (someLacksData_ite.mp h).1

theorem not_someLacksData_login :
    ¬SomeLacksData (yangIpcmessageHandleMessageLogin handle around session mss).2 := by
  intro h
  rcases someLacksData_append.mp h with h | h
  · exact Bool.false_ne_true (someLacksData_ite.mp h).1
  · rcases someLacksData_cons.mp h with h | h
    · exact Bool.false_ne_true h
    · exact not_someLacksData_sendmsg h

/-- The requests that need data are no logins. -/
theorem NeedsData.requestType_ne_login
    (h : NeedsData handle session mss.connectType mss.requestType mss.cid) :
    mss.requestType ≠ .login := by
  obtain ⟨-, -, -, ⟨h, -⟩ | ⟨h, -⟩ | ⟨h, -⟩⟩ := h <;> rw [h] <;> decide

/-- **One request** goes wrong if and only if it needs data and has none. -/
theorem lacksData_handleMessage_iff :
    SomeLacksData (yangIpcmessageHandleMessage handle around session mss).2 ↔
      NeedsData handle session mss.connectType mss.requestType mss.cid ∧ mss.data = none := by
  by_cases hlogin : mss.requestType = .login
  · rw [handleMessage_login hlogin]
    exact iff_of_false not_someLacksData_login fun h => h.1.requestType_ne_login hlogin
  rcases handleMessage_cases handle around session hlogin with
    ⟨hdead, heq⟩ | ⟨-, hforeign, heq⟩ | ⟨hconnected, hcid, -⟩
  · rw [heq]
    exact iff_of_false not_someLacksData_nil
      fun h => Bool.false_ne_true (hdead.symm.trans h.1.1)
  · rw [heq]
    exact iff_of_false not_someLacksData_sendmsg fun h => hforeign h.1.2.1
  · rw [handleMessage_own hlogin hconnected hcid]
    split
    case isTrue huser =>
      refine iff_of_false not_someLacksData_sendmsg ?_
      rintro ⟨⟨-, -, hp2p, -⟩, -⟩
      exact absurd (huser.symm.trans hp2p) (by decide)
    split
    case isTrue hclose =>
      constructor
      · intro h
        exact absurd (someLacksData_ite.mp h).1 Bool.false_ne_true
      · rintro ⟨⟨-, -, -, ⟨h, -⟩ | ⟨h, -⟩ | ⟨h, -⟩⟩, -⟩ <;>
          exact absurd (hclose.symm.trans h) (by decide)
    split
    case isTrue hp2p =>
      rw [someLacksData_p2p_iff, and_comm]
      exact and_congr_left' ⟨fun h => ⟨hconnected, hcid, hp2p, h⟩, fun h => h.2.2.2⟩
    case isFalse hp2p =>
      refine iff_of_false ?_ fun h => hp2p h.1.2.2.1
      split
      · exact not_someLacksData_data
      · exact not_someLacksData_nil

end Requests

/-! ## Runs -/

section Runs

variable {lib} {handle : YangIpcHandle} {session : ServerSession} {d : Delivery}

theorem handledWhole_iff :
    HandledWhole lib handle session d ↔ ¬SomeLacksData (session.deliver lib handle d).2 := by
  simp only [HandledWhole, SomeLacksData, not_exists, not_and, Bool.not_eq_true]

/-- A string that is read is a member of the object. -/
theorem readString_ne_none_iff (hlib : lib.Lawful) {o : Item} {name : String} :
    readString lib (lib.getObjectItemCaseSensitive o name) ≠ none ↔
      ∃ s, lib.Shows o name (.string s) := by
  constructor
  · intro h
    obtain ⟨s, hs⟩ := Option.ne_none_iff_exists'.mp h
    cases hitem : lib.getObjectItemCaseSensitive o name with
    | none =>
      rw [hitem] at hs
      exact absurd hs.symm (Option.some_ne_none s)
    | some i =>
      rw [hitem] at hs
      simp only [readString] at hs
      split at hs
      case isTrue hstring =>
        obtain ⟨j, hj, htype⟩ := (hlib.isString_iff _).mp hstring
        obtain rfl := Option.some.inj hj
        exact ⟨s, i, hitem, htype, hs⟩
      case isFalse => exact absurd hs.symm (Option.some_ne_none s)
  · rintro ⟨s, hshows⟩
    rw [readString_shows hlib (s := some s) hshows]
    exact Option.some_ne_none s

/-- What is read of an object. -/
theorem parse_cleared (lib : JsonLibrary Item) (msg : CString) :
    yangIpcmsgParse lib msg .cleared = (lib.createJsonReader msg).map (requestOf lib) := by
  refine congrArg (Option.map · (lib.createJsonReader msg)) (funext fun o => ?_)
  simp only [requestOf, numberOf, cidOf, YangIpcRequest.cleared, Option.or_none,
    YangIpcRequest.mk.injEq, true_and, and_true]
  cases readString lib (lib.getObjectItemCaseSensitive o "cid") with
  | none => rfl
  | some s => exact receive_cleared s

/-- **One delivery**, in any state. -/
theorem handledWhole_iff_supplied (hlib : lib.Lawful) :
    HandledWhole lib handle session d ↔ Supplied lib handle session d := by
  rw [handledWhole_iff]
  cases d with
  | tick time =>
    refine iff_of_true ?_ trivial
    show ¬SomeLacksData (yangCheckLive handle session time).2
    rcases checkLive_cases handle session time with heq | ⟨-, -, heq⟩ <;> rw [heq]
    · exact not_someLacksData_nil
    · exact fun h => Bool.false_ne_true (someLacksData_ite.mp h).1
  | candidate around uid cid candidate =>
    refine iff_of_true (fun h => ?_) trivial
    exact Option.some_ne_none _ (lacksData_handleMessage_iff.mp h).2
  | text around msg =>
    simp only [ServerSession.deliver, Supplied, parse_cleared]
    cases lib.createJsonReader msg with
    | none =>
      exact iff_of_true not_someLacksData_nil fun o ho => absurd ho.symm (Option.some_ne_none o)
    | some o =>
      simp only [Option.map_some, Option.some.injEq, forall_eq', lacksData_handleMessage_iff]
      rw [not_and, ← readString_ne_none_iff hlib]
      exact Iff.rfl

/-- **Every run** of deliveries goes well if and only if each object in it that needs data has
it. -/
theorem missing_data_iff (hlib : lib.Lawful) (handle : YangIpcHandle) (deliveries : List Delivery) :
    Along (fun session d => (session.deliver lib handle d).1) (HandledWhole lib handle) .start
        deliveries ↔
      Along (fun session d => (session.deliver lib handle d).1) (Supplied lib handle) .start
        deliveries :=
  along_congr (B := fun _ => True) (fun _ _ _ _ => handledWhole_iff_supplied hlib)
    (fun _ _ _ _ _ => trivial) _ trivial

end Runs

/-- A number that does not fit counts as the request of its lowest byte. -/
example : YangIpcRequestType.ofNumber 259 = .connectSdp := by decide

/-! ## A run -/

/-- An object without members, which is a login. -/
def emptyText : CString := ⟨ascii "\x7b\x7d", by decide⟩

/-- A request that comes with a description, but without the description. -/
def connectSdpText : CString := ⟨ascii "\x7b\"requestType\":3\x7d", by decide⟩

/-- A library that reads these two texts. -/
def twoTextLibrary : JsonLibrary FlatJson :=
  { FlatJson.library (.object []) with
    createJsonReader := fun msg =>
      if msg = emptyText then some (.object [])
      else if msg = connectSdpText then some (.object [("requestType", .inl 3)])
      else none }

theorem lawful_twoTextLibrary : twoTextLibrary.Lawful :=
  { FlatJson.lawful (.object []) with }

/-- A login, and a description that is missing. -/
def missingSdp : List Delivery :=
  [.text (aroundAt 1) emptyText, .text (aroundAt 2) connectSdpText]

/-- **The length of an absent string** is taken. -/
theorem not_handledWhole_missingSdp :
    ¬∀ (Item : Type) (lib : JsonLibrary Item), lib.Lawful →
      ∀ (handle : YangIpcHandle) (deliveries : List Delivery),
        Along (fun session d => (session.deliver lib handle d).1) (HandledWhole lib handle) .start
          deliveries := by
  intro h
  have hrun := h FlatJson twoTextLibrary lawful_twoTextLibrary allSet missingSdp
  have hlast := hrun.2.1 .strlenOfNull (by decide)
  exact Bool.false_ne_true hlast.symm

/-- A login, and the timer. -/
theorem missing_data_iff_login :
    Along (fun session d => (session.deliver twoTextLibrary allSet d).1)
      (HandledWhole twoTextLibrary allSet) .start [.text (aroundAt 1) emptyText, .tick 0] := by
  refine (missing_data_iff lawful_twoTextLibrary allSet _).mpr ⟨?_, trivial, trivial⟩
  intro o ho hneeds
  exact absurd hneeds.1 (by decide)

end Signalling

end YangIpc
