import YangIpc.Boarding.Decoder

/-!
# Boarding messages arrive

The two processors compute the places of opcode, length, ssid and password on their own.  They
agree for all lengths that fit into one customer event.

## Main definitions

* `payload`: the length and the data of a forwarded operation
* `Forwarded`, `Connectable`: the operations forwarded, the strings that are accepted

## Main results

* `handle_forwarded`, `operationHandle_written`: what is sent, and what is received
* `boarding_round_trip`: they are the same, and nothing else is read
-/

namespace YangIpc

namespace Boarding

open Bytes

variable {info : DoorbellBoardingInfo} {opcode : BoardingOp} {length : UInt16} {data : Memory}
  {l : List UInt8} {ssidMaxLen passwordMaxLen : ℕ} {keyAddress : UInt32}
  {key : Option P2pCs2Key}

/-- The operation is forwarded to the application processor. -/
def Forwarded (opcode : BoardingOp) : Prop :=
  opcode ≠ .setWifiChannel ∧ opcode ≠ .bleDisable

instance : Decidable (Forwarded opcode) := inferInstanceAs (Decidable (_ ∧ _))

/-- What is forwarded behind the opcode: a length, and as many bytes.  These are the credentials
for the operations that need them, and the data of the operation otherwise. -/
def payload (info : DoorbellBoardingInfo) (opcode : BoardingOp) (length : UInt16) (data : Memory) :
    UInt16 × List UInt8 :=
  let bytes := credentials info.boardingInfo
  if opcode = .stationStart then (.ofNat bytes.length, bytes)
  else if opcode = .softApStart then
    (.ofNat (bytes.length + 2), bytes ++ encode16 info.channel)
  else (length, load data 0 length.toNat)

/-- Ssid and password are strings shorter than the limits of the SDK. -/
structure Connectable (ssidMaxLen passwordMaxLen : ℕ) (info : BleBoardingInfo) : Prop where
  ssid_noNul : 0 ∉ info.ssid
  ssid_short : info.ssid.length < ssidMaxLen
  password_noNul : 0 ∉ info.password
  password_short : info.password.length < passwordMaxLen

/-! ## Sending -/

theorem length_ssid (info : BleBoardingInfo) : info.ssid.length = info.ssidLength.toNat :=
  length_load

theorem length_password (info : BleBoardingInfo) :
    info.password.length = info.passwordLength.toNat := length_load

theorem length_credentials (info : BleBoardingInfo) :
    (credentials info).length = 4 + info.ssidLength.toNat + info.passwordLength.toNat := by
  simp [credentials, length_ssid, length_password]
  omega

/-- The length is not cut when the operation fits into an event. -/
theorem payload_length
    (hfits : 4 + (payload info opcode length data).2.length ≤ maxCifdCustSize) :
    (payload info opcode length data).1.toNat = (payload info opcode length data).2.length := by
  have hmax : maxCifdCustSize = 256 := rfl
  simp only [payload] at hfits ⊢
  split_ifs at hfits ⊢ <;> simp only at hfits ⊢
  · rw [UInt16.toNat_ofNat', Nat.mod_eq_of_lt (by omega)]
  · rw [List.length_append, length_encode16] at hfits ⊢
    rw [UInt16.toNat_ofNat', Nat.mod_eq_of_lt (by omega)]
  · exact length_load.symm

/-- The message that forwards an operation: the size of the block is that of opcode, length and
payload. -/
def forwarding (opcode : BoardingOp) (payload : UInt16 × List UInt8) : DoorbellMsg :=
  ⟨.dataToUser, some ⟨4 + payload.1, encode16 opcode ++ encode16 payload.1 ++ payload.2⟩,
    4 + payload.1⟩

theorem dataToUser_eq {cmdLen len : UInt16} (h : cmdLen = 4 + len) :
    dataToUser true cmdLen
        (encode16 opcode ++ encode16 (cmdLen - opcodeLen - dataLenLen) ++ l) =
      [forwarding opcode (len, l)] := by
  have hlen : cmdLen - opcodeLen - dataLenLen = len := by
    simp only [opcodeLen, dataLenLen]
    grind
  rw [hlen, h]
  rfl

/-- The message of a forwarded operation. -/
theorem handle_forwarded (hforwarded : Forwarded opcode) :
    (doorbellBoardingOperationHandle true info opcode length data).2 =
      [forwarding opcode (payload info opcode length data)] := by
  have hlength : (credentials info.boardingInfo).length =
      4 + info.boardingInfo.ssidLength.toNat + info.boardingInfo.passwordLength.toNat :=
    length_credentials _
  simp only [doorbellBoardingOperationHandle, payload]
  split_ifs with hstation hsoftAp hchannel hdisable
  · apply dataToUser_eq
    simp only [hlength, opcodeLen, dataLenLen, ssidLenLen, pwLenLen, UInt16.ofNat_add,
      UInt16.ofNat_toNat]
    grind
  · simp only [List.append_assoc _ _ (encode16 info.channel)]
    apply dataToUser_eq
    simp only [hlength, opcodeLen, dataLenLen, ssidLenLen, pwLenLen, UInt16.ofNat_add,
      UInt16.ofNat_toNat]
    grind
  · exact absurd hchannel hforwarded.1
  · exact absurd hdisable hforwarded.2
  · have hcut : opcodeLen + dataLenLen + length = 4 + length := rfl
    rw [hcut]
    rfl

theorem bytes_block {block : Block} {n : ℕ} (h : block.written.length = n) :
    block.bytes n = block.written.map some := by
  apply List.ext_getElem
  · simp [Block.bytes, h]
  · intro i hi _
    have hi' : i < block.written.length := by simpa [Block.bytes, h] using hi
    simp [Block.bytes, List.getElem?_eq_getElem hi']

/-- The event that is sent for a message. -/
def eventOf (msg : DoorbellMsg) (l : List UInt8) : CifdCustData :=
  ⟨⟨cifdCustPattern, cifdEventBleDataToUser, 0, 0, 0, msg.len⟩, l.map some⟩

theorem doorbellMessageHandle_forwarding {p : UInt16 × List UInt8} (hp : p.1.toNat = p.2.length)
    (hfits : 4 + p.2.length ≤ maxCifdCustSize) :
    doorbellMessageHandle (forwarding opcode p) =
      [.sendCustomerEvent (eventOf (forwarding opcode p)
        (encode16 opcode ++ encode16 p.1 ++ p.2))] := by
  have hmax : maxCifdCustSize = 256 := rfl
  have hlen : (4 + p.1).toNat = 4 + p.2.length := by
    have hfour : (4 : UInt16).toNat = 4 := rfl
    rw [UInt16.toNat_add, hp, hfour]
    exact Nat.mod_eq_of_lt (by omega)
  have hne : 4 + p.1 ≠ 0 := by
    intro h
    have hzero : (4 + p.1).toNat = 0 := congrArg UInt16.toNat h
    omega
  have hbytes : Block.bytes ⟨4 + p.1, encode16 opcode ++ encode16 p.1 ++ p.2⟩ (4 + p.1).toNat =
      (encode16 opcode ++ encode16 p.1 ++ p.2).map some := by
    apply bytes_block
    simp [hlen]
    omega
  have hshort : ¬(4 + p.1).toNat > maxCifdCustSize := by omega
  unfold doorbellMessageHandle forwarding
  rw [if_pos ⟨Option.some_ne_none _, hne⟩, cifdSendCustEvent, if_neg hshort, hbytes]
  rfl

/-! ## Receiving -/

/-- Opcode, length and payload are found again. -/
theorem customerData_eventOf {msg : DoorbellMsg} {len : UInt16} :
    customerData (eventOf msg (encode16 opcode ++ encode16 len ++ l)) =
      .ok (opcode, len, l.map some) := by
  have hopcode : ((encode16 opcode ++ encode16 len ++ l).drop 0) =
      encode16 opcode ++ (encode16 len ++ l) := by
    rw [List.drop_zero, List.append_assoc]
  have hlen : ((encode16 opcode ++ encode16 len ++ l).drop 2) = encode16 len ++ l := rfl
  rw [customerData, eventOf, Region.number16_written hopcode, Region.number16_written hlen]
  rfl

/-- A string is found again where its length is. -/
theorem boardingString_written {maxLen start : ℕ} {len : UInt16} {s rest : List UInt8}
    (h : l.drop start = encode16 len ++ (s ++ rest)) (hlen : s.length = len.toNat)
    (hshort : s.length < maxLen) :
    boardingString maxLen (l.map some) start = .ok (s.length, .ofBytes s) := by
  have hdrop : l.drop (start + 2) = s ++ rest := by
    rw [← List.drop_drop, h]
    rfl
  have hbytes := Region.bytes_written hdrop
  rw [hlen] at hbytes
  rw [boardingString, Region.number16_written h]
  simp only [reading, bind, Except.bind, hbytes, hlen]
  rw [if_pos (hlen ▸ hshort)]
  rfl

/-- **The station connects** with the ssid and the password that were sent. -/
theorem stationStart_credentials {boarding : BleBoardingInfo}
    (h : Connectable ssidMaxLen passwordMaxLen boarding) :
    stationStart ssidMaxLen passwordMaxLen ((credentials boarding).map some) =
      .ok (.wifiStaConnect ⟨boarding.ssid, h.ssid_noNul⟩
        ⟨boarding.password, h.password_noNul⟩) := by
  have hssid : (credentials boarding).drop 0 = encode16 boarding.ssidLength ++ (boarding.ssid ++
      (encode16 boarding.passwordLength ++ boarding.password)) := by
    simp [credentials]
  have hpassword : (credentials boarding).drop (2 + boarding.ssid.length) =
      encode16 boarding.passwordLength ++ (boarding.password ++ []) := by
    rw [credentials, List.append_assoc _ _ boarding.password, List.append_nil]
    exact List.drop_left' (by rw [List.length_append, length_encode16])
  have hssid' := boardingString_written hssid (length_ssid boarding) h.ssid_short
  have hpassword' := boardingString_written hpassword (length_password boarding) h.password_short
  rw [stationStart, hssid']
  simp only [bind, Except.bind, hpassword']
  rw [CString.ofBytes_eq h.ssid_noNul, CString.ofBytes_eq h.password_noNul]
  rfl

/-! ## What is read -/

/-- The call does not read a byte that has not been written. -/
def Written {α : Type} (x : Except Fault α) : Prop := x ≠ .error .unwritten

theorem Written.ok {α : Type} (x : α) : Written (.ok x) := by
  intro h
  cases h

theorem Written.outside {α : Type} : Written (.error .outside : Except Fault α) := by
  intro h
  exact Fault.noConfusion (Except.error.inj h)

theorem Written.bind {α β : Type} {x : Except Fault α} {f : α → Except Fault β} (hx : Written x)
    (hf : ∀ y, x = .ok y → Written (f y)) : Written (x >>= f) := by
  cases x with
  | ok y => exact hf y rfl
  | error e => exact fun h => hx (congrArg Except.error (Except.error.inj h))

theorem Written.ite {α : Type} {c : Prop} [Decidable c] {x y : Except Fault α} (hx : Written x)
    (hy : Written y) : Written (if c then x else y) := by
  split
  · exact hx
  · exact hy

theorem strlen_written (record : P2pCs2Key) (a : ℕ) : Written (record.strlen a) := by
  unfold P2pCs2Key.strlen
  split
  · exact .ok _
  · exact .outside

theorem strcat_written (record : P2pCs2Key) (a : ℕ) (s : List UInt8) :
    Written (record.strcat a s) := by
  refine (strlen_written record a).bind fun n _ => ?_
  split
  · exact .ok _
  · exact .outside

theorem appendKey_written (record : P2pCs2Key) (field : KeyField) :
    Written (record.appendKey field) := by
  refine (strcat_written _ _ _).bind fun record _ => ?_
  refine Written.bind ?_ fun s _ => strcat_written _ _ _
  exact (strlen_written _ _).bind fun n _ => .ok _

/-- A string is set from the data that were sent. -/
theorem setKeyField_written {field : KeyField} (h : length.toNat = l.length) :
    Written (setKeyField field key opcode length (l.map some)) := by
  refine (strlen_written _ _).bind fun n _ => ?_
  split
  · exact .ok _
  split
  · exact .ok _
  · have hdrop : l.drop 0 = l ++ [] := by rw [List.drop_zero, List.append_nil]
    rw [h, Region.bytes_written hdrop]
    exact .ok _

theorem srrviceCs2Start_written : Written (srrviceCs2Start keyAddress key) := by
  cases key with
  | none => exact .ok _
  | some record =>
    simp only [srrviceCs2Start]
    split
    · exact .ok _
    · refine (appendKey_written _ _).bind fun record _ => ?_
      exact (appendKey_written _ _).bind fun record _ => .ok _

/-- **Every operation but two** reads at most the data that were sent. -/
theorem operationHandle_written (hstation : opcode ≠ .stationStart)
    (hchannel : opcode ≠ .setWifiChannel) (h : length.toNat = l.length) :
    Written (yangipcBoardingOperationHandle ssidMaxLen passwordMaxLen keyAddress key opcode length
      (l.map some)) := by
  unfold yangipcBoardingOperationHandle
  rw [if_neg hstation, if_neg hchannel]
  refine .ite (.ok _) (.ite (.ok _) (.ite (.ok _) ?_))
  -- the strings of the credentials
  refine .ite (setKeyField_written h) (.ite (setKeyField_written h) ?_)
  refine .ite (setKeyField_written h) (.ite (setKeyField_written h) ?_)
  exact .ite srrviceCs2Start_written (.ite (.ok _) (.ok _))

/-- The operation that connects the station does so, with the credentials that were sent. -/
theorem operationHandle_station {boarding : BleBoardingInfo}
    (h : Connectable ssidMaxLen passwordMaxLen boarding) :
    yangipcBoardingOperationHandle ssidMaxLen passwordMaxLen keyAddress key .stationStart length
        ((credentials boarding).map some) =
      .ok (key, [.wifiStaConnect ⟨boarding.ssid, h.ssid_noNul⟩
        ⟨boarding.password, h.password_noNul⟩]) := by
  unfold yangipcBoardingOperationHandle
  rw [if_pos rfl, stationStart_credentials h]
  rfl

/-- **Boarding messages arrive.** An operation that is forwarded in one event is carried out with
the opcode, the length and the data that were sent; the station connects with the ssid and the
password; and no byte is read that was not written. -/
theorem boarding_round_trip (ssidMaxLen passwordMaxLen : ℕ) (keyAddress : UInt32)
    (info : DoorbellBoardingInfo) (opcode : BoardingOp) (length : UInt16) (data : Memory)
    (key : Option P2pCs2Key) (hforwarded : Forwarded opcode)
    (hfits : 4 + (payload info opcode length data).2.length ≤ maxCifdCustSize)
    (hconnectable : opcode = .stationStart →
      Connectable ssidMaxLen passwordMaxLen info.boardingInfo) :
    ∃ event,
      (doorbellBoardingOperationHandle true info opcode length data).2.flatMap
          doorbellMessageHandle = [.sendCustomerEvent event] ∧
        customerData event = .ok (opcode, (payload info opcode length data).1,
          (payload info opcode length data).2.map some) ∧
        (payload info opcode length data).1.toNat = (payload info opcode length data).2.length ∧
        Written (bkRxHandleCustomerEvent ssidMaxLen passwordMaxLen keyAddress key event) ∧
        ∀ h : opcode = .stationStart,
          bkRxHandleCustomerEvent ssidMaxLen passwordMaxLen keyAddress key event =
            .ok (key, [.wifiStaConnect ⟨info.boardingInfo.ssid, (hconnectable h).ssid_noNul⟩
              ⟨info.boardingInfo.password, (hconnectable h).password_noNul⟩]) := by
  have hlength := payload_length hfits
  have hreceived : ∀ msg, bkRxHandleCustomerEvent ssidMaxLen passwordMaxLen keyAddress key
      (eventOf msg (encode16 opcode ++ encode16 (payload info opcode length data).1 ++
        (payload info opcode length data).2)) =
      yangipcBoardingOperationHandle ssidMaxLen passwordMaxLen keyAddress key opcode
        (payload info opcode length data).1 ((payload info opcode length data).2.map some) := by
    intro msg
    rw [bkRxHandleCustomerEvent, customerData_eventOf]
    rfl
  refine ⟨eventOf (forwarding opcode (payload info opcode length data)) _, ?_,
    customerData_eventOf, hlength, ?_, fun hstation => ?_⟩
  · rw [handle_forwarded hforwarded, List.flatMap_singleton]
    exact doorbellMessageHandle_forwarding hlength hfits
  · rw [hreceived]
    by_cases hstation : opcode = .stationStart
    · subst hstation
      exact operationHandle_station (hconnectable rfl) ▸ Written.ok _
    · exact operationHandle_written hstation hforwarded.1 hlength
  · subst hstation
    rw [hreceived]
    exact operationHandle_station (hconnectable rfl)

/-- Ssid and password of two bytes each. -/
def shortInfo : DoorbellBoardingInfo where
  boardingInfo := ⟨fun _ => 65, fun _ => 66, 2, 2⟩
  channel := 0

/-- The station connects with them. -/
theorem boarding_round_trip_station :
    ∃ event, bkRxHandleCustomerEvent 33 65 0 none event =
      .ok (none, [.wifiStaConnect ⟨[65, 65], by decide⟩ ⟨[66, 66], by decide⟩]) := by
  obtain ⟨event, -, -, -, -, hstation⟩ :=
    boarding_round_trip 33 65 0 shortInfo .stationStart 0 (fun _ => 0) none (by decide) (by decide)
      fun _ => ⟨by decide, by decide, by decide, by decide⟩
  exact ⟨event, hstation rfl⟩

end Boarding

end YangIpc
