import YangIpc.Commands.Handler

/-!
# The handler and the end of the payload

The handler compares the length of the buffer with the size of a head and with nothing else: each
command decodes the fields it expects, however short the payload is, and the name of a service is
logged up to a terminator that need not be there.  The handler keeps to the bytes received exactly
when the payload holds all the bytes that the command decodes, or the terminator.

## Main definitions

* `KeepsToReceived`: what is promised of a buffer
* `Sufficient`: the payload holds what its command reads

## Main results

* `forall_offsets_strlen_iff`, `offsets_strncmpEq_subset`: what the functions on strings read
* `forall_offsets_dispatch_iff`: what the branches read
* `callback_reads_iff`: the property for every buffer and length
-/

namespace YangIpc

namespace Commands

open Bytes Reads Reading

variable {data : Memory} {cmd : DbCmdHead} {p k l n : ℕ} {s : List UInt8}
  {ret : CmdAction → UInt32} {length : UInt16}

/-- The handler does the same on every buffer with the bytes received, and reads nothing behind
them. -/
structure KeepsToReceived (ret : CmdAction → UInt32) (data : Memory) (length : UInt16) : Prop where
  same : ∀ data', AgreeBelow length.toNat data data' →
    (cmdReciveCallback ret length).eval data' = (cmdReciveCallback ret length).eval data
  within : ∀ i ∈ (cmdReciveCallback ret length).offsets data, i < length.toNat

/-- The size of the fields of `DBCMD_SET_CAMERA_TURN_ON`, by the length its head declares. -/
def cameraSize (cmd : DbCmdHead) : ℕ := if cmd.length > 8 then 10 else 8

/-- The payload holds the bytes its command reads: the fields, or a string with its terminator. -/
def Sufficient (data : Memory) (length : UInt16) : Prop :=
  let k := length.toNat - dbCmdHeadSize
  let cmd := cmdHead.eval data
  match Dbcmd.ofOpcode cmd.opcode with
  | some .setServiceType => 0 ∈ load data dbCmdHeadSize k
  | some .setCameraTurnOn => cameraSize cmd ≤ k
  | some .setAudioTurnOn => 12 ≤ k
  | some .setAcoustics => 4 ≤ k
  | _ => True

/-! ## Strings -/

theorem load_succ : load data p (k + 1) = data p :: load data (p + 1) k := by
  rw [Nat.add_comm k 1, load_add]
  rfl

/-- **`strlen`** stays in a piece of memory exactly when it finds a terminator there. -/
theorem forall_offsets_strlen_iff {left : ℕ} (hleft : k < left) :
    (∀ i ∈ (strlen left p).offsets data, i < p + k) ↔ 0 ∈ load data p k := by
  induction k generalizing p left with
  | zero =>
    obtain ⟨left, rfl⟩ := Nat.exists_eq_add_of_lt hleft
    refine iff_of_false (fun h => ?_) List.not_mem_nil
    have hp := h p (by simp [strlen])
    omega
  | succ k ih =>
    obtain ⟨left, rfl⟩ : ∃ left', left = left' + 1 := ⟨left - 1, by omega⟩
    rw [load_succ, List.mem_cons]
    by_cases hc : data p = 0
    · simp [strlen, hc]
    · -- the search goes on behind this byte
      have hrest := ih (p := p + 1) (show k < left by omega)
      rw [Nat.add_right_comm, Nat.add_assoc] at hrest
      simpa [strlen, hc, Ne.symm hc] using hrest

/-- **A comparison with a string** ends at a terminator. -/
theorem offsets_strncmpEq_subset {left : ℕ} (hs : 0 ∉ s) (hleft : s.length ≤ left) :
    (strncmpEq p s).offsets data ⊆ (strlen left p).offsets data := by
  induction s generalizing p left with
  | nil => exact List.nil_subset _
  | cons c rest ih =>
    obtain ⟨left, rfl⟩ : ∃ left', left = left' + 1 :=
      ⟨left - 1, by rw [List.length_cons] at hleft; omega⟩
    obtain ⟨hc, hrest⟩ := not_or.mp (List.mem_cons.not.mp hs)
    have hsub := ih (p := p + 1) hrest (Nat.le_of_succ_le_succ hleft)
    by_cases heq : data p = c
    · have hne : data p ≠ 0 := heq ▸ Ne.symm hc
      simpa [strncmpEq, strlen, heq, Ne.symm hc] using
        List.cons_subset_cons p hsub
    · simp [strncmpEq, strlen, heq]

/-! ## Fields -/

/-- Bytes next to each other are received if there are as many. -/
theorem forall_range'_lt_iff (hl : p ≤ l) : (∀ i ∈ List.range' p n, i < l) ↔ n ≤ l - p := by
  constructor
  · intro h
    by_contra hn
    have hlast := h l (List.mem_range'_1.mpr ⟨hl, by omega⟩)
    omega
  · intro hn i hi
    have hrange := List.mem_range'_1.mp hi
    omega

theorem offsets_cmdHead : cmdHead.offsets data = List.range' 0 10 := rfl

theorem offsets_cameraParameters :
    (cameraParameters cmd).offsets data = List.range' dbCmdHeadSize (cameraSize cmd) := by
  unfold cameraParameters cameraSize
  split <;> rfl

theorem offsets_audioParameters : audioParameters.offsets data = List.range' dbCmdHeadSize 12 := rfl

theorem offsets_streamToUint32 : (streamToUint32 p).offsets data = List.range' p 4 := rfl

/-! ## The handler -/

/-- The log of the service type reads the most. -/
theorem mem_offsets_setServiceType_iff {i : ℕ} :
    i ∈ (setServiceType cmd).offsets data ↔
      i ∈ (strlen addressSpace dbCmdHeadSize).offsets data := by
  have hudp : (strncmpEq dbCmdHeadSize serviceUdp).offsets data ⊆
      (strlen addressSpace dbCmdHeadSize).offsets data :=
    offsets_strncmpEq_subset (by decide) (by decide)
  have htcp : (strncmpEq dbCmdHeadSize serviceTcp).offsets data ⊆
      (strlen addressSpace dbCmdHeadSize).offsets data :=
    offsets_strncmpEq_subset (by decide) (by decide)
  simp only [setServiceType, offsets_bind, List.mem_append]
  constructor
  · rintro (hi | hi | hi | hi)
    · exact hi
    · exact hi
    · exact hudp hi
    · split at hi
      · exact absurd hi List.not_mem_nil
      · rw [offsets_bind, List.mem_append] at hi
        rcases hi with hi | hi
        · exact htcp hi
        · split at hi <;> exact absurd hi List.not_mem_nil
  · exact .inl

/-- The branches of the `switch`. -/
theorem forall_offsets_dispatch_iff (hl : dbCmdHeadSize ≤ l) (hspace : l < addressSpace) :
    (∀ i ∈ (dispatch ret cmd).offsets data, i < l) ↔
      match Dbcmd.ofOpcode cmd.opcode with
      | some .setServiceType => 0 ∈ load data dbCmdHeadSize (l - dbCmdHeadSize)
      | some .setCameraTurnOn => cameraSize cmd ≤ l - dbCmdHeadSize
      | some .setAudioTurnOn => 12 ≤ l - dbCmdHeadSize
      | some .setAcoustics => 4 ≤ l - dbCmdHeadSize
      | _ => True := by
  unfold dispatch
  generalize Dbcmd.ofOpcode cmd.opcode = branch
  rcases branch with _ | branch
  · exact iff_of_true (by simp) trivial
  cases branch
  case setServiceType =>
    have hspace : l - dbCmdHeadSize < addressSpace := by omega
    have hstrlen : (∀ i ∈ (strlen addressSpace dbCmdHeadSize).offsets data,
        i < dbCmdHeadSize + (l - dbCmdHeadSize)) ↔
          0 ∈ load data dbCmdHeadSize (l - dbCmdHeadSize) :=
      forall_offsets_strlen_iff hspace
    rw [Nat.add_sub_cancel' hl] at hstrlen
    simpa only [mem_offsets_setServiceType_iff] using hstrlen
  case setCameraTurnOn =>
    simp only [offsets_bind, offsets_pure, List.append_nil, offsets_cameraParameters]
    exact forall_range'_lt_iff hl
  case setAudioTurnOn =>
    simp only [offsets_bind, offsets_pure, List.append_nil, offsets_audioParameters]
    exact forall_range'_lt_iff hl
  case setAcoustics =>
    simp only [offsets_bind, offsets_pure, List.append_nil, offsets_streamToUint32]
    exact forall_range'_lt_iff hl
  -- the other branches read nothing
  all_goals exact iff_of_true (by simp) trivial

/-- **The handler and the end of the payload.** The handler keeps to the bytes received exactly
when the payload holds what the command reads. -/
theorem callback_reads_iff (ret : CmdAction → UInt32) (data : Memory) (length : UInt16)
    (hlength : dbCmdHeadSize ≤ length.toNat) :
    KeepsToReceived ret data length ↔ Sufficient data length := by
  have hspace : length.toNat < addressSpace := length.toNat_lt.trans (by decide)
  have hwithin : (∀ i ∈ (cmdReciveCallback ret length).offsets data, i < length.toNat) ↔
      Sufficient data length := by
    rw [cmdReciveCallback, if_neg (Nat.not_lt.mpr hlength), offsets_bind, List.forall_mem_append,
      offsets_cmdHead, forall_offsets_dispatch_iff hlength hspace]
    exact and_iff_right ((forall_range'_lt_iff (Nat.zero_le _)).mpr hlength)
  refine ⟨fun h => hwithin.mp h.within, fun h => ⟨fun data' hagree => ?_, hwithin.mpr h⟩⟩
  -- what is not read makes no difference
  exact eval_congr _ fun i hi => hagree i (hwithin.mpr h i hi)

/-- A service type with its terminator, and without. -/
example : (0 : UInt8) ∈ load (store (fun _ => 1) 10 (serviceUdp ++ [0])) 10 12 ∧
    0 ∉ load (store (fun _ => 1) 10 serviceUdp) 10 11 := by
  decide

/-- The head of a command that turns the camera on and declares twelve bytes of payload. -/
def cameraHead : Memory := store (fun _ => 0) 0 [7, 0, 0, 0, 0, 0, 0, 0, 12, 0]

/-- With the head alone received, the parameters of the camera are whatever lies behind it. -/
theorem not_keepsToReceived_cameraHead :
    ¬∀ (ret : CmdAction → UInt32) (data : Memory) (length : UInt16),
      dbCmdHeadSize ≤ length.toNat → KeepsToReceived ret data length := by
  intro h
  have hsame := (h (fun _ => 0) cameraHead 10 (by decide)).same (store cameraHead 10 [1])
    agreeBelow_store
  exact absurd hsame (by decide)

/-- With ten bytes behind the head, the handler keeps to them. -/
theorem callback_reads_iff_camera : KeepsToReceived (fun _ => 0) cameraHead 20 := by
  have hsize : cameraSize (cmdHead.eval cameraHead) ≤ 20 - dbCmdHeadSize := by decide
  exact (callback_reads_iff (fun _ => 0) cameraHead 20 (by decide)).mpr hsize

end Commands

end YangIpc
