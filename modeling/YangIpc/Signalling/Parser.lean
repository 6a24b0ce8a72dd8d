import Mathlib.Data.List.GetD
import YangIpc.Signalling.Messages

/-!
# Requests as JSON texts

`YangIpcMessageParser.c` writes a request as a JSON object, and reads one.  The JSON library is
outside of the repository: its functions are a parameter, and what it documents of them are
hypotheses.

## Main definitions

* `JsonLibrary`, `JsonLibrary.Lawful`, `JsonLibrary.ReadsBack`: the library, and its documentation
* `yangIpcmsgSend`, `yangIpcmsgParse`: the functions
* `YangIpcRequest.Same`: two requests with the same fields

## Main results

* `parse_send`: what is read of a request that was written
* `request_may_change`: a request that is not read back
* `parse_send_same_iff`: the requests that are
-/

namespace YangIpc

namespace Signalling

open Bytes (CString)

/-! ## The library -/

/-- The types of JSON values. -/
inductive JsonType
  | null
  | falseLiteral
  | trueLiteral
  | number
  | string
  | array
  | object
deriving DecidableEq, Repr

/-- `YangJsonReader` and `YangJsonWriter`; the type `Item` is that of `YangJson`, and `none` a
null pointer. -/
structure JsonLibrary (Item : Type) where
  type : Item → JsonType
  valueint : Item → Int32
  valuestring : Item → Option CString
  /-- `yang_create_jsonReader`, or `none` if it fails. -/
  createJsonReader : CString → Option Item
  getObjectItemCaseSensitive : Item → String → Option Item
  isNumber : Option Item → Bool
  isString : Option Item → Bool
  isTrue : Option Item → Bool
  /-- The object of a new writer. -/
  createJsonWriter : Item
  /-- All numbers that are written have 32 bits. -/
  addNumberToObject : Item → String → Int32 → Item
  addStringToObject : Item → String → Option CString → Item
  printUnformatted : Item → CString

/-- A member of an object, as far as writers add them. -/
inductive JsonMember
  | absent
  | number (n : Int32)
  | string (s : CString)

namespace JsonLibrary

variable {Item : Type} (lib : JsonLibrary Item)

/-- The object has this member under the name. -/
def Shows (o : Item) (name : String) : JsonMember → Prop
  | .absent => lib.getObjectItemCaseSensitive o name = none
  | .number n => ∃ i, lib.getObjectItemCaseSensitive o name = some i ∧ lib.type i = .number ∧
      lib.valueint i = n
  | .string s => ∃ i, lib.getObjectItemCaseSensitive o name = some i ∧ lib.type i = .string ∧
      lib.valuestring i = some s

variable {lib} in
/-- A member is shown by what is found. -/
theorem Shows.congr {o o' : Item} {name : String} {m : JsonMember} (h : lib.Shows o name m)
    (heq : lib.getObjectItemCaseSensitive o' name = lib.getObjectItemCaseSensitive o name) :
    lib.Shows o' name m := by
  cases m with
  | absent => exact heq.trans h
  | number n =>
    obtain ⟨i, hi, htype, hn⟩ := h
    exact ⟨i, heq.trans hi, htype, hn⟩
  | string s =>
    obtain ⟨i, hi, htype, hs⟩ := h
    exact ⟨i, heq.trans hi, htype, hs⟩

/-- What the library documents: the tests look at the type of a value, and what is added to an
object is found there under its name. -/
structure Lawful : Prop where
  isNumber_iff : ∀ item, lib.isNumber item = true ↔ ∃ i, item = some i ∧ lib.type i = .number
  isString_iff : ∀ item, lib.isString item = true ↔ ∃ i, item = some i ∧ lib.type i = .string
  isTrue_iff : ∀ item, lib.isTrue item = true ↔ ∃ i, item = some i ∧ lib.type i = .trueLiteral
  type_writer : lib.type lib.createJsonWriter = .object
  type_addNumber : ∀ o name n, lib.type o = .object →
    lib.type (lib.addNumberToObject o name n) = .object
  type_addString : ∀ o name s, lib.type o = .object →
    lib.type (lib.addStringToObject o name s) = .object
  shows_writer : ∀ name, lib.Shows lib.createJsonWriter name .absent
  shows_addNumber : ∀ o name n, lib.type o = .object → lib.Shows o name .absent →
    lib.Shows (lib.addNumberToObject o name n) name (.number n)
  shows_addNumber_ne : ∀ o name name' n m, lib.type o = .object → name' ≠ name →
    lib.Shows o name' m → lib.Shows (lib.addNumberToObject o name n) name' m
  shows_addString : ∀ o name s, lib.type o = .object → lib.Shows o name .absent →
    lib.Shows (lib.addStringToObject o name (some s)) name (.string s)
  shows_addString_ne : ∀ o name name' s m, lib.type o = .object → name' ≠ name →
    lib.Shows o name' m → lib.Shows (lib.addStringToObject o name s) name' m
  /-- A null string adds no member. -/
  addString_null : ∀ o name, lib.addStringToObject o name none = o

/-- Printing the object and parsing the text gives an object with the same members. -/
def ReadsBack (o : Item) : Prop :=
  ∃ o', lib.createJsonReader (lib.printUnformatted o) = some o' ∧
    ∀ name m, lib.Shows o name m → lib.Shows o' name m

end JsonLibrary

variable {Item : Type} (lib : JsonLibrary Item)

/-! ## Writing -/

/-- The object of a request. -/
def requestObject (request : YangIpcRequest) : Item :=
  let o := lib.createJsonWriter
  let o := lib.addNumberToObject o "uid" request.uid
  let o := lib.addStringToObject o "cid" (some request.cid.text)
  let o := lib.addNumberToObject o "requestType" request.requestType.number
  let o := lib.addNumberToObject o "connectType" request.connectType.number
  let o := lib.addStringToObject o "url" request.url
  let o := lib.addNumberToObject o "isHttps" request.isHttps.toUInt32.toInt32
  lib.addStringToObject o "data" request.data

/-- `yang_ipcmsg_send`: the text it publishes. -/
def yangIpcmsgSend (request : YangIpcRequest) : CString :=
  lib.printUnformatted (requestObject lib request)

/-! ## Reading -/

/-- The number of a member, if it is one, converted to the type of a field, instead of `old`. -/
def readNumber {α : Type} (convert : Int32 → α) (item : Option Item) (old : α) : α :=
  match item with
  | some i => if lib.isNumber item then convert (lib.valueint i) else old
  | none => old

/-- The string of a member, if it is one. -/
def readString (item : Option Item) : Option CString :=
  match item with
  | some i => if lib.isString item then lib.valuestring i else none
  | none => none

/-- At most twelve bytes are copied into the array. -/
def Cid.receive (cid : Cid) (s : CString) : Cid :=
  Vector.ofFn fun i =>
    if i.val < min (yangCidLength - 1) s.bytes.length then s.bytes.getD i 0 else cid.get i

/-- `yang_ipcmsg_parse`: the request filled in, or `none` if the text is not read. -/
def yangIpcmsgParse (msg : CString) (request : YangIpcRequest) : Option YangIpcRequest :=
  (lib.createJsonReader msg).map fun o =>
    let item := lib.getObjectItemCaseSensitive o
    { connectType := readNumber lib .ofNumber (item "connectType") request.connectType
      requestType := readNumber lib .ofNumber (item "requestType") request.requestType
      uid := readNumber lib id (item "uid") request.uid
      isHttps := if lib.isTrue (item "isHttps") then 1 else 0
      cid :=
        match readString lib (item "cid") with
        | some s => request.cid.receive s
        | none => request.cid
      data := (readString lib (item "data")).or request.data
      url := (readString lib (item "url")).or request.url }

/-- The request that `yang_ipcmessage_mqtt_receive` allocates. -/
def YangIpcRequest.cleared : YangIpcRequest :=
  ⟨0, 0, 0, 0, .replicate yangCidLength 0, none, none⟩

/-- The fields of both requests are equal, the client ids as strings. -/
structure YangIpcRequest.Same (a b : YangIpcRequest) : Prop where
  connectType : a.connectType = b.connectType
  requestType : a.requestType = b.requestType
  uid : a.uid = b.uid
  isHttps : a.isHttps = b.isHttps
  cid : a.cid.text = b.cid.text
  data : a.data = b.data
  url : a.url = b.url

/-! ## What is written -/

section

variable {lib : JsonLibrary Item} {o : Item} {f : String → JsonMember} {request : YangIpcRequest}

/-- The members of an object, after one was added. -/
def withMember (f : String → JsonMember) (name : String) (m : JsonMember) : String → JsonMember :=
  fun name' => if name' = name then m else f name'

/-- The object has the members `f`. -/
structure HasMembers (lib : JsonLibrary Item) (o : Item) (f : String → JsonMember) : Prop where
  type : lib.type o = .object
  shows : ∀ name, lib.Shows o name (f name)

theorem HasMembers.addNumber (hlib : lib.Lawful) (h : HasMembers lib o f) {name : String}
    (n : Int32) (hname : f name = .absent) :
    HasMembers lib (lib.addNumberToObject o name n) (withMember f name (.number n)) where
  type := hlib.type_addNumber o name n h.type
  shows name' := by
    by_cases heq : name' = name
    · subst heq
      rw [withMember, if_pos rfl]
      exact hlib.shows_addNumber o name' n h.type (hname ▸ h.shows name')
    · rw [withMember, if_neg heq]
      exact hlib.shows_addNumber_ne o name name' n _ h.type heq (h.shows name')

/-- The member for a string that may be absent. -/
def stringMember : Option CString → JsonMember
  | some s => .string s
  | none => .absent

theorem HasMembers.addString (hlib : lib.Lawful) (h : HasMembers lib o f) {name : String}
    (s : Option CString) (hname : f name = .absent) :
    HasMembers lib (lib.addStringToObject o name s) (withMember f name (stringMember s)) where
  type := hlib.type_addString o name s h.type
  shows name' := by
    by_cases heq : name' = name
    · subst heq
      rw [withMember, if_pos rfl]
      cases s with
      | some s => exact hlib.shows_addString o name' s h.type (hname ▸ h.shows name')
      | none =>
        rw [hlib.addString_null, stringMember, ← hname]
        exact h.shows name'
    · rw [withMember, if_neg heq]
      exact hlib.shows_addString_ne o name name' s _ h.type heq (h.shows name')

/-- The members of a request. -/
def requestMembers (request : YangIpcRequest) : String → JsonMember :=
  let f := withMember (fun _ => .absent) "uid" (.number request.uid)
  let f := withMember f "cid" (.string request.cid.text)
  let f := withMember f "requestType" (.number request.requestType.number)
  let f := withMember f "connectType" (.number request.connectType.number)
  let f := withMember f "url" (stringMember request.url)
  let f := withMember f "isHttps" (.number request.isHttps.toUInt32.toInt32)
  withMember f "data" (stringMember request.data)

/-- **The object of a request** has the members of the request. -/
theorem hasMembers_requestObject (hlib : lib.Lawful) (request : YangIpcRequest) :
    HasMembers lib (requestObject lib request) (requestMembers request) := by
  apply HasMembers.addString hlib _ _ (by simp [withMember])
  apply HasMembers.addNumber hlib _ _ (by simp [withMember])
  apply HasMembers.addString hlib _ _ (by simp [withMember])
  apply HasMembers.addNumber hlib _ _ (by simp [withMember])
  apply HasMembers.addNumber hlib _ _ (by simp [withMember])
  refine HasMembers.addString hlib ?_ (some request.cid.text) (by simp [withMember])
  apply HasMembers.addNumber hlib _ _ rfl
  exact ⟨hlib.type_writer, hlib.shows_writer⟩

/-! ## What is read -/

theorem readNumber_shows {α : Type} {convert : Int32 → α} (hlib : lib.Lawful) {name : String}
    {n : Int32} {old : α} (h : lib.Shows o name (.number n)) :
    readNumber lib convert (lib.getObjectItemCaseSensitive o name) old = convert n := by
  obtain ⟨i, hi, htype, hn⟩ := h
  have hnumber : lib.isNumber (some i) = true := (hlib.isNumber_iff _).mpr ⟨i, rfl, htype⟩
  rw [hi, readNumber, if_pos hnumber, hn]

theorem readString_shows (hlib : lib.Lawful) {name : String} {s : Option CString}
    (h : lib.Shows o name (stringMember s)) :
    readString lib (lib.getObjectItemCaseSensitive o name) = s := by
  cases s with
  | none =>
    have hnone : lib.getObjectItemCaseSensitive o name = none := h
    rw [hnone, readString]
  | some s =>
    obtain ⟨i, hi, htype, hs⟩ := h
    have hstring : lib.isString (some i) = true := (hlib.isString_iff _).mpr ⟨i, rfl, htype⟩
    rw [hi, readString, if_pos hstring, hs]

/-- A number is not the literal that is tested for. -/
theorem isTrue_shows (hlib : lib.Lawful) {name : String} {n : Int32}
    (h : lib.Shows o name (.number n)) :
    lib.isTrue (lib.getObjectItemCaseSensitive o name) = false := by
  obtain ⟨i, hi, htype, -⟩ := h
  rw [← Bool.not_eq_true, hlib.isTrue_iff]
  rintro ⟨j, hj, hliteral⟩
  obtain rfl : i = j := Option.some.inj (hi.symm.trans hj)
  exact absurd (htype.symm.trans hliteral) (by decide)

/-- A copy into a cleared array. -/
theorem receive_cleared (s : CString) :
    Cid.receive (.replicate yangCidLength 0) s = Cid.ofText s := by
  have hzero (i : Fin yangCidLength) :
      (Vector.replicate yangCidLength (0 : UInt8)).get i = 0 := Vector.getElem_replicate i.isLt
  apply Vector.ext
  intro i hi
  simp only [Cid.receive, Cid.ofText, Vector.getElem_ofFn, Nat.lt_min, hzero]
  by_cases hshort : i < s.bytes.length
  · simp only [hshort, and_true]
  · -- nothing is copied behind the end of the string
    rw [if_neg fun h => hshort h.2, List.getD_eq_default _ _ (Nat.not_lt.mp hshort), ite_self]

/-- **What is read of a request that was written**: everything but the flag. -/
theorem parse_send (hlib : lib.Lawful) (hread : lib.ReadsBack (requestObject lib request)) :
    yangIpcmsgParse lib (yangIpcmsgSend lib request) .cleared =
      some { request with isHttps := 0, cid := .ofText request.cid.text } := by
  obtain ⟨o, ho, hshows⟩ := hread
  have hmember (name : String) : lib.Shows o name (requestMembers request name) :=
    hshows name _ ((hasMembers_requestObject hlib request).shows name)
  have huid : lib.Shows o "uid" (.number request.uid) := hmember "uid"
  have hcid : lib.Shows o "cid" (stringMember (some request.cid.text)) := hmember "cid"
  have hrequest : lib.Shows o "requestType" (.number request.requestType.number) :=
    hmember "requestType"
  have hconnect : lib.Shows o "connectType" (.number request.connectType.number) :=
    hmember "connectType"
  have hurl : lib.Shows o "url" (stringMember request.url) := hmember "url"
  have hhttps : lib.Shows o "isHttps" (.number request.isHttps.toUInt32.toInt32) :=
    hmember "isHttps"
  have hdata : lib.Shows o "data" (stringMember request.data) := hmember "data"
  rw [yangIpcmsgParse, yangIpcmsgSend, ho, Option.map_some]
  simp only [readNumber_shows hlib huid, readString_shows hlib hcid, readNumber_shows hlib hrequest,
    readNumber_shows hlib hconnect, readString_shows hlib hurl, isTrue_shows hlib hhttps,
    readString_shows hlib hdata]
  simp only [YangIpcRequest.cleared, receive_cleared, Option.or_none,
    YangIpcConnectType.ofNumber_number, YangIpcRequestType.ofNumber_number]
  rfl

end

/-! ## A library -/

/-- Numbers, strings, and objects of these. -/
inductive FlatJson
  | number (n : Int32)
  | string (s : CString)
  | object (members : List (String × (Int32 ⊕ CString)))
deriving DecidableEq

namespace FlatJson

/-- A member, by its value. -/
def ofMember : Int32 ⊕ CString → FlatJson
  | .inl n => .number n
  | .inr s => .string s

/-- The text of a member; no character of the strings has to be escaped. -/
def memberText (m : String × (Int32 ⊕ CString)) : List UInt8 :=
  34 :: ascii m.1 ++ [34, 58] ++
    match m.2 with
    | .inl n => ascii (toString n.toInt)
    | .inr s => 34 :: s.bytes ++ [34]

/-- The text of an object. -/
def text : FlatJson → CString
  | object members =>
    .ofBytes (123 :: ((members.map memberText).intersperse [44]).flatten ++ [125])
  | _ => .ofBytes []

def jsonType : FlatJson → JsonType
  | number _ => .number
  | string _ => .string
  | object _ => .object

/-- The object with one more member. -/
def add (name : String) (value : Int32 ⊕ CString) : FlatJson → FlatJson
  | object members => object (members ++ [(name, value)])
  | item => item

/-- The member of an object. -/
def get (name : String) : FlatJson → Option FlatJson
  | object members => (members.lookup name).map ofMember
  | _ => none

/-- A library that reads back the text of `o`. -/
def library (o : FlatJson) : JsonLibrary FlatJson where
  type := jsonType
  valueint
    | number n => n
    | _ => 0
  valuestring
    | string s => some s
    | _ => none
  createJsonReader msg := if msg = o.text then some o else none
  getObjectItemCaseSensitive item name := item.get name
  isNumber item := item.any fun i => i.jsonType = .number
  isString item := item.any fun i => i.jsonType = .string
  isTrue item := item.any fun i => i.jsonType = .trueLiteral
  createJsonWriter := object []
  addNumberToObject item name n := item.add name (.inl n)
  addStringToObject item name s :=
    match s with
    | some s => item.add name (.inr s)
    | none => item
  printUnformatted := text

theorem get_add {o : FlatJson} {name : String} (value : Int32 ⊕ CString)
    (ho : o.jsonType = .object) (h : o.get name = none) :
    (o.add name value).get name = some (ofMember value) := by
  cases o with
  | object members =>
    have hnone : members.lookup name = none := Option.map_eq_none_iff.mp h
    simp [add, get, List.lookup_append, hnone]
  | number n => exact absurd ho (by simp [jsonType])
  | string s => exact absurd ho (by simp [jsonType])

theorem get_add_ne {o : FlatJson} {name name' : String} (value : Int32 ⊕ CString)
    (h : name' ≠ name) : (o.add name value).get name' = o.get name' := by
  cases o with
  | object members =>
    have hbeq : (name' == name) = false := beq_false_of_ne h
    simp [add, get, List.lookup_append, List.lookup_cons, hbeq]
  | number n => rfl
  | string s => rfl

theorem jsonType_add (o : FlatJson) (name : String) (value : Int32 ⊕ CString) :
    (o.add name value).jsonType = o.jsonType := by
  cases o <;> rfl

theorem lawful (o : FlatJson) : (library o).Lawful where
  isNumber_iff item := by cases item <;> simp [library]
  isString_iff item := by cases item <;> simp [library]
  isTrue_iff item := by cases item <;> simp [library]
  type_writer := rfl
  type_addNumber item name n h := (jsonType_add item name _).trans h
  type_addString item name s h := by
    cases s with
    | some s => exact (jsonType_add item name _).trans h
    | none => exact h
  shows_writer name := rfl
  shows_addNumber item name n ho h := ⟨_, get_add _ ho h, rfl, rfl⟩
  shows_addNumber_ne item name name' n m ho hne h := h.congr (get_add_ne _ hne)
  shows_addString item name s ho h := ⟨_, get_add _ ho h, rfl, rfl⟩
  shows_addString_ne item name name' s m ho hne h := by
    cases s with
    | some s => exact h.congr (get_add_ne _ hne)
    | none => exact h
  addString_null item name := rfl

theorem readsBack (o : FlatJson) : (library o).ReadsBack o :=
  ⟨o, if_pos rfl, fun _ _ h => h⟩

end FlatJson

/-! ## Requests that are read back -/

/-- A login with the flag `isHttps`. -/
def loginRequest (isHttps : UInt8) : YangIpcRequest :=
  ⟨.p2p, .login, 10, isHttps, .ofText ⟨ascii "owner", by decide⟩, none, none⟩

/-- The library that reads its text. -/
def loginLibrary (isHttps : UInt8) : JsonLibrary FlatJson :=
  FlatJson.library (requestObject (FlatJson.library (.object [])) (loginRequest isHttps))

theorem readsBack_login (isHttps : UInt8) :
    (loginLibrary isHttps).ReadsBack
      (requestObject (loginLibrary isHttps) (loginRequest isHttps)) := FlatJson.readsBack _

/-- **A request may change.** The flag is written as a number, and read as a literal. -/
theorem request_may_change :
    ¬∀ (Item : Type) (lib : JsonLibrary Item) (request : YangIpcRequest), lib.Lawful →
      request.cid.text.bytes.length < yangCidLength →
      request.isHttps = 0 ∨ request.isHttps = 1 →
      lib.ReadsBack (requestObject lib request) →
        ∃ parsed, yangIpcmsgParse lib (yangIpcmsgSend lib request) .cleared = some parsed ∧
          parsed.Same request := by
  intro h
  have hlaw : (loginLibrary 1).Lawful := FlatJson.lawful _
  obtain ⟨parsed, hparsed, hsame⟩ :=
    h FlatJson (loginLibrary 1) (loginRequest 1) hlaw (by decide) (.inr rfl) (readsBack_login 1)
  rw [parse_send hlaw (readsBack_login 1)] at hparsed
  obtain rfl := Option.some.inj hparsed
  exact absurd hsame.isHttps (by decide)

/-- **A request is read back if and only if `isHttps` is not set.** -/
theorem parse_send_same_iff (lib : JsonLibrary Item) (hlib : lib.Lawful) (request : YangIpcRequest)
    (hcid : request.cid.text.bytes.length < yangCidLength)
    (hread : lib.ReadsBack (requestObject lib request)) :
    (∃ parsed, yangIpcmsgParse lib (yangIpcmsgSend lib request) .cleared = some parsed ∧
      parsed.Same request) ↔ request.isHttps = 0 := by
  rw [parse_send hlib hread]
  constructor
  · rintro ⟨parsed, hparsed, hsame⟩
    obtain rfl := Option.some.inj hparsed
    exact hsame.isHttps.symm
  · intro h
    exact ⟨_, rfl, rfl, rfl, rfl, h.symm, Cid.text_ofText hcid, rfl, rfl⟩

/-- A login without the flag. -/
theorem parse_send_same_iff_login :
    ∃ parsed, yangIpcmsgParse (loginLibrary 0) (yangIpcmsgSend (loginLibrary 0) (loginRequest 0))
        .cleared = some parsed ∧ parsed.Same (loginRequest 0) :=
  (parse_send_same_iff (loginLibrary 0) (FlatJson.lawful _) (loginRequest 0) (by decide)
    (readsBack_login 0)).mpr rfl

end Signalling

end YangIpc
