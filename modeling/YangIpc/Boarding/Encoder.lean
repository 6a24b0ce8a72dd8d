import YangIpc.Library.Bytes

/-!
# Boarding messages of the communication processor

`doorbell_core.c` and `customer_msg.c` run on the processor with the Bluetooth stack.  A boarding
operation that the application processor has to know of is written into a new block, queued for
the thread of the service, and sent from there as a customer event.

A length is a sum of 16-bit numbers that is cut to 16 bits, while the copies take the numbers as
they are.  The block is therefore described by its size and by what is written into it.

## Main definitions

* `DoorbellBoardingInfo`, `DoorbellMsg`, `CifdCustData`: the data
* `doorbellBoardingOperationHandle`, `doorbellMessageHandle`, `cifdSendCustEvent`: the functions
-/

namespace YangIpc

namespace Boarding

open Bytes

/-! ## Operations -/

/-- An opcode; any number may occur. -/
abbrev BoardingOp := UInt16

namespace BoardingOp

def stationStart : BoardingOp := 1

def softApStart : BoardingOp := 2

def serviceUdpStart : BoardingOp := 3

def serviceTcpStart : BoardingOp := 4

def setCs2Did : BoardingOp := 5

def setCs2Apilicense : BoardingOp := 6

def setCs2Key : BoardingOp := 7

def setCs2InitString : BoardingOp := 8

def srrviceCs2Start : BoardingOp := 9

def bleDisable : BoardingOp := 10

def setWifiChannel : BoardingOp := 11

end BoardingOp

/-- `ble_boarding_info_t`: where ssid and password are, and how long they are. -/
structure BleBoardingInfo where
  ssidValue : Memory
  passwordValue : Memory
  ssidLength : UInt16
  passwordLength : UInt16

namespace BleBoardingInfo

/-- The bytes of the ssid. -/
def ssid (info : BleBoardingInfo) : List UInt8 := load info.ssidValue 0 info.ssidLength.toNat

/-- The bytes of the password. -/
def password (info : BleBoardingInfo) : List UInt8 :=
  load info.passwordValue 0 info.passwordLength.toNat

end BleBoardingInfo

/-- `doorbell_boarding_info_t`. -/
structure DoorbellBoardingInfo where
  boardingInfo : BleBoardingInfo
  channel : UInt16

/-- `dbevt_t` of the communication processor. -/
inductive DoorbellEvt
  | dataToUser
  | dataToApk
  | closeBluetooth
  | exit
deriving DecidableEq, Repr

/-- A block of `os_malloc`, and the bytes written into it from its start on. -/
structure Block where
  size : UInt16
  written : List UInt8
deriving DecidableEq, Repr

/-- `doorbell_msg_t`. -/
structure DoorbellMsg where
  event : DoorbellEvt
  data : Option Block
  len : UInt16
deriving DecidableEq, Repr

/-! ## Encoding -/

/-- `OPCODE_LEN`. -/
def opcodeLen : UInt16 := 2

/-- `DATA_LEN_LEN`. -/
def dataLenLen : UInt16 := 2

/-- `SSID_LEN_LEN`. -/
def ssidLenLen : UInt16 := 2

/-- `PW_LEN_LEN`. -/
def pwLenLen : UInt16 := 2

/-- What both operations with credentials write behind the length. -/
def credentials (info : BleBoardingInfo) : List UInt8 :=
  encode16 info.ssidLength ++ info.ssid ++ encode16 info.passwordLength ++ info.password

/-- The message with a block of `cmdLen` bytes, or none if there is no memory for it. -/
def dataToUser (malloc : Bool) (cmdLen : UInt16) (written : List UInt8) : List DoorbellMsg :=
  if malloc then [⟨.dataToUser, some ⟨cmdLen, written⟩, cmdLen⟩] else []

/-- `doorbell_boarding_operation_handle`: the boarding state after the call, and the message it
sends to the thread. -/
def doorbellBoardingOperationHandle (malloc : Bool) (info : DoorbellBoardingInfo)
    (opcode : BoardingOp) (length : UInt16) (data : Memory) :
    DoorbellBoardingInfo × List DoorbellMsg :=
  let boarding := info.boardingInfo
  if opcode = .stationStart then
    let cmdLen := opcodeLen + dataLenLen + ssidLenLen + boarding.ssidLength + pwLenLen +
      boarding.passwordLength
    (info, dataToUser malloc cmdLen
      (encode16 opcode ++ encode16 (cmdLen - opcodeLen - dataLenLen) ++ credentials boarding))
  else if opcode = .softApStart then
    -- two more bytes, for the channel
    let cmdLen := opcodeLen + dataLenLen + ssidLenLen + boarding.ssidLength + pwLenLen +
      boarding.passwordLength + 2
    (info, dataToUser malloc cmdLen
      (encode16 opcode ++ encode16 (cmdLen - opcodeLen - dataLenLen) ++ credentials boarding ++
        encode16 info.channel))
  else if opcode = .setWifiChannel then
    ({ info with channel := decode16 (data 0) (data 1) }, [])
  else if opcode = .bleDisable then (info, [⟨.closeBluetooth, none, 0⟩])
  else
    let cmdLen := opcodeLen + dataLenLen + length
    (info, dataToUser malloc cmdLen
      (encode16 opcode ++ encode16 length ++ load data 0 length.toNat))

/-! ## Sending -/

/-- `CIFD_PROTO_HDR`. -/
structure CifdProtoHdr where
  magic : UInt16
  cid : UInt16
  ctl : UInt16
  seq : UInt16
  checksum : UInt16
  len : UInt16
deriving DecidableEq, Repr

/-- `CIFD_CUST_DATA`, as far as it is sent. -/
structure CifdCustData where
  header : CifdProtoHdr
  data : Region
deriving DecidableEq, Repr

/-- `CIFD_CUST_PATTERN`. -/
def cifdCustPattern : UInt16 := 0xa5a6

/-- `MAX_CIFD_CUST_SIZE`. -/
def maxCifdCustSize : ℕ := 256

/-- `CIFD_EVENT_BLE_DATA_TO_USER`. -/
def cifdEventBleDataToUser : UInt16 := 0x1001

/-- The first bytes of a block. -/
def Block.bytes (block : Block) (n : ℕ) : Region := (List.range n).map (block.written[·]?)

/-- `cifd_send_cust_event`: what is sent, or `none` if it returns `-1`. -/
def cifdSendCustEvent (eventId : UInt16) (data : Option Block) (len : UInt16) :
    Option CifdCustData :=
  if len.toNat > maxCifdCustSize then none
  else
    some
      { header := ⟨cifdCustPattern, eventId, 0, 0, 0, len⟩
        data :=
          match data with
          | some block => block.bytes len.toNat
          -- the event has been cleared
          | none => .replicate len.toNat (some 0) }

/-- What the thread of the service does with a message. -/
inductive DoorbellAction
  /-- `cif_send_customer_event` -/
  | sendCustomerEvent (event : CifdCustData)
  | bleBoardingNotify (data : Region)
  | bluetoothDeinit
  /-- the thread ends -/
  | exit
deriving DecidableEq, Repr

/-- The body of the loop of `doorbell_message_handle`. -/
def doorbellMessageHandle (msg : DoorbellMsg) : List DoorbellAction :=
  match msg.event with
  | .dataToUser =>
    if msg.data ≠ none ∧ msg.len ≠ 0 then
      ((cifdSendCustEvent cifdEventBleDataToUser msg.data msg.len).map
        DoorbellAction.sendCustomerEvent).toList
    else []
  | .dataToApk =>
    match msg.data with
    | some block => if msg.len ≠ 0 then [.bleBoardingNotify (block.bytes msg.len.toNat)] else []
    | none => []
  | .closeBluetooth => [.bluetoothDeinit]
  | .exit => [.exit]

end Boarding

end YangIpc
