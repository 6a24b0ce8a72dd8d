import YangIpc.Boarding.RoundTrip

/-!
# The blocks of boarding operations

The size of a block is cut to 16 bits, and what is written into it is not.  The two agree as long
as opcode, length and payload together have a length of 16 bits; there is no check of this.

## Main definitions

* `WritesExactly`: a message's block is written to its end, and its length field is right
* `encodedLength`: the bytes an operation is encoded to
* `EncodesExactly`: what is promised of the operation

## Main results

* `writesExactly_forwarding_iff`: when a forwarded operation fits its block
* `encodesExactly_iff`: the operations that do
-/

namespace YangIpc

namespace Boarding

open Bytes

/-- The block of a message has the size the message says, is written to its end and no further,
and the length in it is that of the bytes behind. -/
def WritesExactly (msg : DoorbellMsg) : Prop :=
  ∀ block, msg.data = some block → block.size = msg.len ∧
    block.written.length = block.size.toNat ∧
    ∃ n, Region.number16 (block.written.map some) 2 = some n ∧
      n.toNat + 4 = block.written.length

/-- The bytes of an encoded operation, opcode and length included. -/
def encodedLength (info : DoorbellBoardingInfo) (opcode : BoardingOp) (length : UInt16) : ℕ :=
  let boarding := info.boardingInfo
  if opcode = .stationStart then 8 + boarding.ssidLength.toNat + boarding.passwordLength.toNat
  else if opcode = .softApStart then
    8 + boarding.ssidLength.toNat + boarding.passwordLength.toNat + 2
  else 4 + length.toNat

/-- Every block is written exactly, and an operation too long for one is refused. -/
def EncodesExactly (malloc : Bool) (info : DoorbellBoardingInfo) (opcode : BoardingOp)
    (length : UInt16) (data : Memory) : Prop :=
  let sent := (doorbellBoardingOperationHandle malloc info opcode length data).2
  (∀ msg ∈ sent, WritesExactly msg) ∧
    (Forwarded opcode → UInt16.size ≤ encodedLength info opcode length → sent = [])

variable {info : DoorbellBoardingInfo} {opcode : BoardingOp} {length : UInt16} {data : Memory}
  {malloc : Bool}

/-- The payload has the bytes its length declares, unless the length has been cut. -/
theorem payload_eq (info : DoorbellBoardingInfo) (opcode : BoardingOp) (length : UInt16)
    (data : Memory) :
    (payload info opcode length data).1 = .ofNat (payload info opcode length data).2.length ∧
      encodedLength info opcode length = 4 + (payload info opcode length data).2.length := by
  have hlength : (credentials info.boardingInfo).length =
      4 + info.boardingInfo.ssidLength.toNat + info.boardingInfo.passwordLength.toNat :=
    length_credentials _
  unfold payload encodedLength
  dsimp only
  split_ifs
  · refine ⟨rfl, ?_⟩
    rw [hlength]
    omega
  · refine ⟨by rw [List.length_append, length_encode16], ?_⟩
    rw [List.length_append, length_encode16, hlength]
    omega
  · rw [length_load]
    exact ⟨(UInt16.ofNat_toNat).symm, rfl⟩

/-- **A forwarded operation** is written exactly if and only if its length is not cut. -/
theorem writesExactly_forwarding_iff {l : List UInt8} :
    WritesExactly (forwarding opcode (.ofNat l.length, l)) ↔ 4 + l.length < UInt16.size := by
  have hwritten : (encode16 opcode ++ encode16 (.ofNat l.length) ++ l).length = 4 + l.length := by
    simp only [List.length_append, length_encode16]
  have hsize : (4 + UInt16.ofNat l.length).toNat = (4 + l.length) % UInt16.size := by
    rw [UInt16.toNat_add, UInt16.toNat_ofNat', Nat.add_mod_mod]
    rfl
  have hfield : Region.number16
      ((encode16 opcode ++ encode16 (.ofNat l.length) ++ l).map some) 2 =
        some (.ofNat l.length) := by
    apply Region.number16_written
    rw [List.append_assoc]
    rfl
  constructor
  · intro h
    obtain ⟨-, hexact, -⟩ := h _ rfl
    rw [hwritten, hsize] at hexact
    rw [hexact]
    exact Nat.mod_lt _ (by decide)
  · rintro hlt _ ⟨⟩
    refine ⟨rfl, ?_, _, hfield, ?_⟩
    · rw [hwritten, hsize, Nat.mod_eq_of_lt hlt]
    · have hcut : l.length < UInt16.size := by omega
      rw [hwritten, UInt16.toNat_ofNat', Nat.mod_eq_of_lt hcut, Nat.add_comm]

theorem writesExactly_payload_iff (info : DoorbellBoardingInfo) (opcode : BoardingOp)
    (length : UInt16) (data : Memory) :
    WritesExactly (forwarding opcode (payload info opcode length data)) ↔
      encodedLength info opcode length < UInt16.size := by
  obtain ⟨hcut, hencoded⟩ := payload_eq info opcode length data
  have hexact := @writesExactly_forwarding_iff opcode (payload info opcode length data).2
  rwa [← hcut, ← hencoded] at hexact

/-- Without memory nothing is forwarded. -/
theorem handle_malloc_failed (hforwarded : Forwarded opcode) :
    (doorbellBoardingOperationHandle false info opcode length data).2 = [] := by
  unfold doorbellBoardingOperationHandle
  dsimp only
  split_ifs with hstation hsoftAp hchannel hdisable
  · rfl
  · rfl
  · rfl
  · exact absurd hdisable hforwarded.2
  · rfl

/-- The other operations carry no block. -/
theorem handle_not_forwarded (h : ¬Forwarded opcode) :
    ∀ msg ∈ (doorbellBoardingOperationHandle malloc info opcode length data).2,
      msg.data = none := by
  have hopcode : opcode = .setWifiChannel ∨ opcode = .bleDisable := by
    by_contra hne
    exact h (not_or.mp hne)
  rcases hopcode with rfl | rfl
  · exact fun msg hmsg => absurd hmsg List.not_mem_nil
  · intro msg hmsg
    obtain rfl := List.mem_singleton.mp hmsg
    rfl

/-- **The blocks are written exactly** if and only if what is forwarded has a length of 16 bits,
or there is no memory for it. -/
theorem encodesExactly_iff (malloc : Bool) (info : DoorbellBoardingInfo) (opcode : BoardingOp)
    (length : UInt16) (data : Memory) :
    EncodesExactly malloc info opcode length data ↔
      (Forwarded opcode → malloc = true → encodedLength info opcode length < UInt16.size) := by
  unfold EncodesExactly
  by_cases hforwarded : Forwarded opcode
  · cases malloc with
    | false =>
      rw [handle_malloc_failed hforwarded]
      refine iff_of_true ⟨fun msg hmsg => absurd hmsg List.not_mem_nil, fun _ _ => rfl⟩ ?_
      exact fun _ h => absurd h Bool.false_ne_true
    | true =>
      have hexact := writesExactly_payload_iff info opcode length data
      rw [handle_forwarded hforwarded]
      constructor
      · exact fun h _ _ => hexact.mp (h.1 _ List.mem_cons_self)
      · intro h
        have hlt := h hforwarded rfl
        refine ⟨fun msg hmsg => ?_, fun _ hlong => absurd hlt (Nat.not_lt.mpr hlong)⟩
        obtain rfl := List.mem_singleton.mp hmsg
        exact hexact.mpr hlt
  · refine iff_of_true ⟨fun msg hmsg block hblock => ?_, fun h => absurd h hforwarded⟩
      fun h => absurd h hforwarded
    rw [handle_not_forwarded hforwarded msg hmsg] at hblock
    exact absurd hblock nofun

/-- No credentials and no channel. -/
def noCredentials : DoorbellBoardingInfo := ⟨⟨fun _ => 0, fun _ => 0, 0, 0⟩, 0⟩

/-- A payload of 65535 bytes is written into a block of three bytes. -/
theorem not_encodesExactly_long :
    ¬∀ (info : DoorbellBoardingInfo) (opcode : BoardingOp) (length : UInt16) (data : Memory),
      EncodesExactly true info opcode length data := by
  intro h
  have hexact := (h noCredentials BoardingOp.setCs2Did 65535 fun _ => 0).1
  rw [handle_forwarded (by decide)] at hexact
  have hlt := (writesExactly_payload_iff _ _ _ _).mp (hexact _ List.mem_cons_self)
  exact absurd hlt (by decide)

end Boarding

end YangIpc
