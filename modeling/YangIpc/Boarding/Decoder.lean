import YangIpc.Boarding.Encoder
import YangIpc.Core.Message

/-!
# Boarding messages of the application processor

`bk_smart_config.c` takes the opcode and the length from a customer event, and
`yangipc_boarding.c` carries the operation out.  Every read of the event may fail, because the
sender has not written the byte; so may every use of a string of the credentials, because it runs
out of their record.  Allocations succeed, as the code expects.  The functions are those of a
processor without the Bluetooth host (`CONFIG_BLUETOOTH_HOST_ONLY`), to which the other one
forwards.

## Main definitions

* `Fault`: why a call may not go on
* `P2pCs2Key`, `KeyField`: the record of the credentials, and its strings
* `yangipcBoardingOperationHandle`, `bkRxHandleCustomerEvent`: the functions
-/

namespace YangIpc

namespace Boarding

open Bytes YangIpc.Core

/-- What a call may run into. -/
inductive Fault
  /-- it reads a byte of the event that has not been written -/
  | unwritten
  /-- it reads or writes behind the record -/
  | outside
  /-- it writes to the address zero -/
  | null
deriving DecidableEq, Repr

/-- A read of the event. -/
def reading {α : Type} : Option α → Except Fault α
  | some x => .ok x
  | none => .error .unwritten

/-! ## Credentials -/

/-- The strings of `p2p_cs2_key_t` that operations write. -/
inductive KeyField
  | did
  | apilicense
  | initstring
  | key
deriving DecidableEq, Repr

/-- `SIZE_DID`, `SIZE_APILICENSE`, `SIZE_INITSTRING` and `SIZE_ARMINO_KEY`. -/
def KeyField.size : KeyField → ℕ
  | did => 64
  | apilicense => 24
  | initstring => 256
  | key => 17

/-- Where the string is in the record. -/
def KeyField.offset : KeyField → ℕ
  | did => 0
  | apilicense => 64
  | initstring => 88
  | key => 344

/-- `cs2_started`, behind the strings and the array `pwakeupkey` of 17 bytes. -/
def cs2StartedOffset : ℕ := 378

/-- `sizeof(p2p_cs2_key_t)`. -/
def p2pCs2KeySize : ℕ := 379

/-- `p2p_cs2_key_t`, by its bytes. -/
abbrev P2pCs2Key := Memory

namespace P2pCs2Key

/-- A record that has just been allocated. -/
def cleared : P2pCs2Key := fun _ => 0

/-- The distance to the next terminator. -/
def strlen (key : P2pCs2Key) (a : ℕ) : Except Fault ℕ :=
  match (List.range (p2pCs2KeySize - a)).find? (fun i => key (a + i) = 0) with
  | some n => .ok n
  | none => .error .outside

/-- A string is appended to the one at an address. -/
def strcat (key : P2pCs2Key) (a : ℕ) (s : List UInt8) : Except Fault P2pCs2Key := do
  let n ← key.strlen a
  if a + n + s.length < p2pCs2KeySize then .ok (store key (a + n) (s ++ [0]))
  else .error .outside

/-- The string at an address. -/
def string (key : P2pCs2Key) (a : ℕ) : Except Fault (List UInt8) := do
  let n ← key.strlen a
  return load key a n

/-- A colon and the key are appended to a string. -/
def appendKey (key : P2pCs2Key) (field : KeyField) : Except Fault P2pCs2Key := do
  let key ← key.strcat field.offset [58]
  let s ← key.string KeyField.key.offset
  key.strcat field.offset s

end P2pCs2Key

/-! ## Operations -/

/-- What is observed of an operation. -/
inductive BoardingAction
  | wifiStaConnect (ssid key : CString)
  | sendMsg (msg : YangipcMsg)
deriving DecidableEq

variable (ssidMaxLen passwordMaxLen : ℕ) (keyAddress : UInt32)

/-- The message of `yangipc_boarding_event_message`, with the status `BK_OK`. -/
def yangipcBoardingEventMessage (opcode : BoardingOp) : BoardingAction :=
  .sendMsg ⟨.startBoardingEvent, opcode.toUInt32⟩

/-- A string with a 16-bit length before it: it is copied into a block of its own and terminated
if it is shorter than `maxLen`, and replaced by the empty one otherwise. -/
def boardingString (maxLen : ℕ) (data : Region) (start : ℕ) : Except Fault (ℕ × CString) := do
  let len ← reading (data.number16 start)
  if len.toNat < maxLen then
    let bytes ← reading (data.bytes (start + 2) len.toNat)
    return (len.toNat, .ofBytes bytes)
  else return (len.toNat, .ofBytes [])

/-- `BOARDING_OP_STATION_START`. -/
def stationStart (data : Region) : Except Fault BoardingAction := do
  let (ssidLen, ssid) ← boardingString ssidMaxLen data 0
  let (_, password) ← boardingString passwordMaxLen data (2 + ssidLen)
  return .wifiStaConnect ssid password

/-- The operations that set a string of the credentials, once and if it is not too long. -/
def setKeyField (field : KeyField) (key : Option P2pCs2Key) (opcode : BoardingOp) (length : UInt16)
    (data : Region) : Except Fault (Option P2pCs2Key × List BoardingAction) := do
  let key := key.getD .cleared
  let len ← key.strlen field.offset
  if len ≠ 0 then return (some key, [])
  else if length.toNat > field.size then return (some key, [])
  else
    let bytes ← reading (data.bytes 0 length.toNat)
    return (some (store key field.offset bytes), [yangipcBoardingEventMessage opcode])

/-- `BOARDING_OP_SRRVICE_CS2_START`. -/
def srrviceCs2Start (key : Option P2pCs2Key) :
    Except Fault (Option P2pCs2Key × List BoardingAction) :=
  match key with
  | none => .ok (none, [])
  | some key =>
    if key cs2StartedOffset ≠ 0 then .ok (some key, [])
    else do
      let key ← key.appendKey .apilicense
      let key ← key.appendKey .initstring
      return (some (store key cs2StartedOffset [1]),
        [.sendMsg ⟨.p2pCs2ServiceStartRequest, keyAddress⟩])

/-- `yangipc_boarding_operation_handle`: the credentials after the call, and what it does. -/
def yangipcBoardingOperationHandle (key : Option P2pCs2Key) (opcode : BoardingOp)
    (length : UInt16) (data : Region) : Except Fault (Option P2pCs2Key × List BoardingAction) :=
  if opcode = .stationStart then do
    let action ← stationStart ssidMaxLen passwordMaxLen data
    return (key, [action])
  else if opcode = .softApStart then
    -- the boarding state is not allocated on this processor
    .ok (key, [.sendMsg ⟨.wifiSoftApTurningOn, 0⟩])
  else if opcode = .serviceUdpStart then .ok (key, [.sendMsg ⟨.lanUdpServiceStartRequest, 0⟩])
  else if opcode = .serviceTcpStart then .ok (key, [.sendMsg ⟨.lanTcpServiceStartRequest, 0⟩])
  else if opcode = .setCs2Did then setKeyField .did key opcode length data
  else if opcode = .setCs2Apilicense then setKeyField .apilicense key opcode length data
  else if opcode = .setCs2Key then setKeyField .key key opcode length data
  else if opcode = .setCs2InitString then setKeyField .initstring key opcode length data
  else if opcode = .srrviceCs2Start then srrviceCs2Start keyAddress key
  else if opcode = .bleDisable then .ok (key, [.sendMsg ⟨.bleDisable, 0⟩])
  else if opcode = .setWifiChannel then do
    let _ ← reading (data.number16 0)
    .error .null
  else .ok (key, [])

/-- The opcode, the length and the data that `bk_rx_handle_customer_event` passes on. -/
def customerData (event : CifdCustData) : Except Fault (BoardingOp × UInt16 × Region) := do
  let opcode ← reading (event.data.number16 0)
  let length ← reading (event.data.number16 2)
  return (opcode, length, event.data.drop 4)

/-- `bk_rx_handle_customer_event`. -/
def bkRxHandleCustomerEvent (key : Option P2pCs2Key) (event : CifdCustData) :
    Except Fault (Option P2pCs2Key × List BoardingAction) :=
  if event.header.cid = cifdEventBleDataToUser then do
    let (opcode, length, data) ← customerData event
    yangipcBoardingOperationHandle ssidMaxLen passwordMaxLen keyAddress key opcode length data
  else .ok (key, [])

end Boarding

end YangIpc
