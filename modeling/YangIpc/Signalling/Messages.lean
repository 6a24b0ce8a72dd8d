import YangIpc.Library.Bytes

/-!
# Signalling messages

The requests of `YangIpcMessageDef.h`.  The client id is an array of `Yang_Cid_Length` bytes, of
which a parsed request fills at most twelve; data and url are strings or absent.  Connect type and
request type are enumerations, which the compiler keeps in one byte, the request type with a sign.
A message may carry any number for them, of which the lowest byte is stored.

## Main definitions

* `Cid`, `YangIpcConnectType`, `YangIpcRequestType`, `YangIpcRequest`: requests and their fields
* `Cid.ofText`: the client id of a parsed request

## Main results

* `Cid.text_ofText`: a short text is read back
* `Cid.compared_inj`: the comparison of twelve bytes decides equality of parsed client ids
-/

namespace YangIpc

namespace Signalling

open Bytes (CString)

/-- The bytes of a name of the source. -/
def ascii (s : String) : List UInt8 := s.toList.map fun c => UInt8.ofNat c.toNat

/-- `Yang_Topic_Client`. -/
def yangTopicClient : CString := ⟨ascii "metaIpc/client", by decide⟩

/-- `Yang_Cid_Length`. -/
def yangCidLength : ℕ := 13

/-- `char cid[Yang_Cid_Length]`. -/
abbrev Cid := Vector UInt8 yangCidLength

namespace Cid

/-- The string in the array. -/
def text (cid : Cid) : CString := .ofBytes cid.toList

/-- The array of a parsed request: at most twelve bytes are copied into cleared memory. -/
def ofText (s : CString) : Cid :=
  Vector.ofFn fun i => if i.val < yangCidLength - 1 then s.bytes.getD i 0 else 0

/-- `cid[0] == 0`. -/
def isEmpty (cid : Cid) : Bool := cid[0] == 0

/-- The bytes that `yang_memcmp` compares. -/
def compared (cid : Cid) : List UInt8 := cid.toList.take (yangCidLength - 1)

/-- The last byte, a terminator in every parsed request. -/
def last (cid : Cid) : UInt8 := cid.get ⟨yangCidLength - 1, by decide⟩

theorem last_ofText (s : CString) : (ofText s).last = 0 := by
  show (Vector.ofFn _)[yangCidLength - 1] = 0
  rw [Vector.getElem_ofFn, if_neg (Nat.lt_irrefl _)]

/-- **Twelve bytes decide.** Client ids that end with a terminator are equal if and only if
`yang_memcmp` finds no difference. -/
theorem compared_inj {a b : Cid} (ha : a.last = 0) (hb : b.last = 0) :
    a.compared = b.compared ↔ a = b := by
  constructor
  · intro h
    apply Vector.ext
    intro i hi
    by_cases hlast : i = yangCidLength - 1
    · subst hlast
      exact ha.trans hb.symm
    · have hget := congrArg (·[i]?) h
      simpa [compared, List.getElem?_take, show i < yangCidLength - 1 by omega, hi] using hget
  · exact congrArg compared

/-- A text of at most twelve bytes is read back. -/
theorem text_ofText {s : CString} (h : s.bytes.length < yangCidLength) : (ofText s).text = s := by
  obtain ⟨bytes, hnul⟩ := s
  -- the array is the text and terminators behind it
  have hlist : (ofText ⟨bytes, hnul⟩).toList =
      bytes ++ List.replicate (yangCidLength - bytes.length) 0 := by
    apply List.ext_getElem
    · simp at h ⊢
      omega
    · intro i hi _
      simp only [Vector.length_toList] at hi
      simp only [ofText, Vector.getElem_toList, Vector.getElem_ofFn, List.getElem_append]
      split_ifs with hlast hlt hlt
      · simp [hlt]
      · simp [Nat.not_lt.mp hlt]
      · simp only at h
        omega
      · simp
  simp only [text, CString.ofBytes, hlist, CString.mk.injEq]
  rw [List.takeWhile_append_of_pos fun b hb => by simpa using ne_of_mem_of_not_mem hb hnul]
  obtain ⟨k, hk⟩ : ∃ k, yangCidLength - bytes.length = k + 1 :=
    ⟨_, (Nat.succ_pred_eq_of_pos (by simp only at h; omega)).symm⟩
  rw [hk, List.replicate_succ, List.takeWhile_cons_of_neg (by simp), List.append_nil]

end Cid

/-- `YangIpcConnectType`. -/
abbrev YangIpcConnectType := UInt8

namespace YangIpcConnectType

/-- The conversion of an `int`. -/
def ofNumber (n : Int32) : YangIpcConnectType := n.toUInt32.toUInt8

/-- The conversion to an `int`. -/
def number (t : YangIpcConnectType) : Int32 := t.toUInt32.toInt32

@[simp] theorem ofNumber_number (t : YangIpcConnectType) : ofNumber t.number = t := by
  simp [ofNumber, number]

def p2p : YangIpcConnectType := 0

def datachannel : YangIpcConnectType := 2

def user : YangIpcConnectType := 3

end YangIpcConnectType

/-- `YangIpcRequestType`. -/
abbrev YangIpcRequestType := Int8

namespace YangIpcRequestType

/-- The conversion of an `int`. -/
def ofNumber (n : Int32) : YangIpcRequestType := n.toInt8

/-- The conversion to an `int`. -/
def number (t : YangIpcRequestType) : Int32 := t.toInt32

@[simp] theorem ofNumber_number (t : YangIpcRequestType) : ofNumber t.number = t := by
  simp [ofNumber, number]

def notLogin : YangIpcRequestType := -2

def login : YangIpcRequestType := 0

def loginResponse : YangIpcRequestType := 1

def connect : YangIpcRequestType := 2

def connectSdp : YangIpcRequestType := 3

def answer : YangIpcRequestType := 4

def candidate : YangIpcRequestType := 5

def close : YangIpcRequestType := 8

def ping : YangIpcRequestType := 10

end YangIpcRequestType

/-- `YangIpcRequest`. -/
structure YangIpcRequest where
  connectType : YangIpcConnectType
  requestType : YangIpcRequestType
  uid : Int32
  isHttps : UInt8
  cid : Cid
  data : Option CString
  url : Option CString
deriving DecidableEq

end Signalling

end YangIpc
