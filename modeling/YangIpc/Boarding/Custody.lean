import YangIpc.Boarding.Encoder
import YangIpc.Library.Ledger
import YangIpc.Library.Run

/-!
# The blocks of the queued messages

A boarding operation and a host command each put their data into a new block, and queue a message
for the thread of the service, which frees the block.  The queue holds thirty messages, the result
of the push is not looked at, and a message of length zero is not freed.

The calls that queue a message, and the thread, are interleaved in any order.

## Main definitions

* `cifdCustMsgHandler`: the host command
* `CustodyState`, `CustodyAction`, `CustodyState.next`: the system
* `Custody`: every block is held by one message, or has been freed once
* `KeepsBlocks`: the steps that lose no block

## Main results

* `custody_next_iff`: one step
* `custody_iff`: every run
-/

namespace YangIpc

namespace Boarding

open Bytes Ledger Transition

/-! ## The functions -/

/-- `cifd_cust_msg_hdr_t`, and where its payload is. -/
structure CifdCustMsg where
  cmdId : UInt16
  len : UInt16
  payload : Memory

/-- `CIFD_CMD_BLE_DATA_TO_APK`. -/
def cifdCmdBleDataToApk : UInt16 := 0x0001

/-- `cifd_cust_msg_handler`: the message it sends to the thread.  The confirmation is left out. -/
def cifdCustMsgHandler (malloc : Bool) : Option CifdCustMsg → List DoorbellMsg
  | none => []
  | some cmd =>
    if cmd.cmdId = cifdCmdBleDataToApk then
      if malloc then
        [⟨.dataToApk, some ⟨cmd.len, load cmd.payload 0 cmd.len.toNat⟩, cmd.len⟩]
      else []
    else []

/-- Whether `doorbell_message_handle` frees the data of a message. -/
def doorbellMessageFrees (msg : DoorbellMsg) : Bool :=
  match msg.event with
  | .dataToUser => msg.data.isSome && msg.len ≠ 0
  | .dataToApk => msg.data.isSome && msg.len ≠ 0
  | .closeBluetooth => false
  | .exit => false

/-- The number of messages that the queue holds. -/
def doorbellQueueLength : ℕ := 30

/-! ## The system -/

/-- A message, and the number of its block, if it has one. -/
structure Carried where
  id : ℕ
  msg : DoorbellMsg

/-- The block of a message. -/
def Carried.blocks (c : Carried) : List ℕ := if c.msg.data.isSome then [c.id] else []

/-- The messages of the calls that have not pushed them yet, the queue, the message that the
thread handles, the number of blocks allocated, and the blocks freed. -/
structure CustodyState where
  building : List Carried
  queue : List Carried
  current : Option Carried
  allocated : ℕ
  freed : List ℕ

/-- A step: a call begins, with what it finds, or pushes its message; the thread takes a message
from the queue, or handles it. -/
inductive CustodyAction
  | boarding (malloc : Bool) (info : DoorbellBoardingInfo) (opcode : BoardingOp) (length : UInt16)
      (data : Memory)
  | host (malloc : Bool) (cmd : Option CifdCustMsg)
  | push (i : ℕ) (accepted : Bool)
  | pop
  | handle

namespace CustodyState

def start : CustodyState := ⟨[], [], none, 0, []⟩

/-- A call has built its message, if it sends one. -/
def build (s : CustodyState) : List DoorbellMsg → CustodyState
  | [] => s
  | msg :: _ =>
    { s with
      building := ⟨s.allocated, msg⟩ :: s.building
      allocated := if msg.data.isSome then s.allocated + 1 else s.allocated }

/-- The state after a step; one that is not possible changes nothing. -/
def next (s : CustodyState) : CustodyAction → CustodyState
  | .boarding malloc info opcode length data =>
    s.build (doorbellBoardingOperationHandle malloc info opcode length data).2
  | .host malloc cmd => s.build (cifdCustMsgHandler malloc cmd)
  | .push i accepted =>
    match s.building[i]? with
    | none => s
    | some call =>
      -- the result of `doorbell_send_msg` is ignored
      if accepted && s.queue.length < doorbellQueueLength then
        { s with building := s.building.eraseIdx i, queue := s.queue ++ [call] }
      else { s with building := s.building.eraseIdx i }
  | .pop =>
    match s.current, s.queue with
    | none, c :: rest => { s with queue := rest, current := some c }
    | _, _ => s
  | .handle =>
    match s.current with
    | none => s
    | some c =>
      { s with
        current := none
        freed := if doorbellMessageFrees c.msg then c.id :: s.freed else s.freed }

/-- The messages there are. -/
def messages (s : CustodyState) : List Carried := s.current.toList ++ s.building ++ s.queue

/-- The blocks they have. -/
def held (s : CustodyState) : List ℕ := s.messages.flatMap Carried.blocks

end CustodyState

/-- Every block that was allocated is held by one message, or has been freed once. -/
def Custody (s : CustodyState) : Prop := Balanced (List.range s.allocated) s.held s.freed

/-- A message with a block is accepted by the queue, and one that is handled is not empty. -/
def KeepsBlocks (s : CustodyState) : CustodyAction → Prop
  | .push i accepted => ∀ call, s.building[i]? = some call → call.msg.data.isSome = true →
    accepted = true ∧ s.queue.length < doorbellQueueLength
  | .handle => ∀ c, s.current = some c → c.msg.data.isSome = true → c.msg.len ≠ 0
  | _ => True

/-! ## One step -/

/-- Only messages to the user and to the application carry data. -/
def Delivers (msg : DoorbellMsg) : Prop :=
  msg.data.isSome = true → msg.event = .dataToUser ∨ msg.event = .dataToApk

section Step

variable {s : CustodyState} {msg : DoorbellMsg} {malloc : Bool}

theorem delivers_dataToUser {cmdLen : UInt16} {written : List UInt8}
    (h : msg ∈ dataToUser malloc cmdLen written) : Delivers msg := by
  unfold dataToUser at h
  split at h
  · obtain rfl := List.mem_singleton.mp h
    exact fun _ => .inl rfl
  · exact absurd h List.not_mem_nil

theorem delivers_boarding {info : DoorbellBoardingInfo} {opcode : BoardingOp} {length : UInt16}
    {data : Memory} (h : msg ∈ (doorbellBoardingOperationHandle malloc info opcode length data).2) :
    Delivers msg := by
  unfold doorbellBoardingOperationHandle at h
  simp only at h
  split at h
  · exact delivers_dataToUser h
  split at h
  · exact delivers_dataToUser h
  split at h
  · exact absurd h List.not_mem_nil
  split at h
  · obtain rfl := List.mem_singleton.mp h
    exact fun hdata => absurd hdata Bool.false_ne_true
  · exact delivers_dataToUser h

theorem delivers_host {cmd : Option CifdCustMsg} (h : msg ∈ cifdCustMsgHandler malloc cmd) :
    Delivers msg := by
  cases cmd with
  | none => exact absurd h List.not_mem_nil
  | some cmd =>
    simp only [cifdCustMsgHandler] at h
    split at h
    · split at h
      · obtain rfl := List.mem_singleton.mp h
        exact fun _ => .inr rfl
      · exact absurd h List.not_mem_nil
    · exact absurd h List.not_mem_nil

/-- What the thread frees. -/
theorem frees_eq (h : Delivers msg) :
    doorbellMessageFrees msg = (msg.data.isSome && msg.len ≠ 0) := by
  unfold doorbellMessageFrees
  cases hdata : msg.data.isSome with
  | false => cases msg.event <;> rfl
  | true => rcases h hdata with hevent | hevent <;> rw [hevent]

/-- The ledger is balanced, and only the messages that are freed have data. -/
structure Inv (s : CustodyState) : Prop where
  custody : Custody s
  delivers : ∀ c ∈ s.messages, Delivers c.msg

/-- A message more or less, and its block. -/
theorem held_perm {s' : CustodyState} {c : Carried} (h : s'.messages.Perm (c :: s.messages)) :
    s'.held.Perm (c.blocks ++ s.held) := by
  have hflat := h.flatMap_right Carried.blocks
  rwa [List.flatMap_cons] at hflat

/-- **A call begins**, and nothing is lost. -/
theorem Inv.build {msgs : List DoorbellMsg} (h : Inv s) (hmsgs : ∀ msg ∈ msgs, Delivers msg) :
    Inv (s.build msgs) := by
  cases msgs with
  | nil => exact h
  | cons msg rest =>
    have hcall : (s.current.toList ++ ⟨s.allocated, msg⟩ :: s.building).Perm
        (⟨s.allocated, msg⟩ :: (s.current.toList ++ s.building)) :=
      List.perm_middle
    have hperm : (s.build (msg :: rest)).messages.Perm (⟨s.allocated, msg⟩ :: s.messages) :=
      hcall.append_right s.queue
    have hcustody : Balanced (List.range s.allocated) s.held s.freed := h.custody
    refine ⟨?_, fun c hc => ?_⟩
    · refine (balanced_congr_held (held_perm hperm)).mpr ?_
      cases hdata : msg.data.isSome with
      | false => simpa [CustodyState.build, Carried.blocks, hdata] using hcustody
      | true =>
        have hnext : Balanced (List.range (s.allocated + 1) ++ []) (s.allocated :: s.held)
            s.freed :=
          balanced_range_succ_iff.mpr (by rwa [List.append_nil])
        simpa [CustodyState.build, Carried.blocks, hdata] using hnext
    · rcases List.mem_cons.mp (hperm.mem_iff.mp hc) with rfl | hc
      · exact hmsgs msg List.mem_cons_self
      · exact h.delivers c hc

/-- A message that is not carried any more, and whose block is not freed. -/
theorem custody_of_dropped (s' : CustodyState) {c : Carried} (h : Inv s)
    (hperm : s.messages.Perm (c :: s'.messages)) (hallocated : s'.allocated = s.allocated)
    (hfreed : s'.freed = s.freed) : Custody s' ↔ c.msg.data.isSome = false := by
  have hbefore := (balanced_congr_held (held_perm hperm)).mp h.custody
  rw [Custody, hallocated, hfreed]
  cases hdata : c.msg.data.isSome with
  | false =>
    rw [Carried.blocks, hdata] at hbefore
    exact iff_of_true hbefore rfl
  | true =>
    rw [Carried.blocks, hdata] at hbefore
    exact iff_of_false hbefore.not_lost fun h => Bool.false_ne_true h.symm

theorem Inv.delivers_of_perm {c : Carried} {l : List Carried} (h : Inv s)
    (hperm : s.messages.Perm (c :: l)) : Delivers c.msg ∧ ∀ c ∈ l, Delivers c.msg :=
  ⟨h.delivers c (hperm.mem_iff.mpr List.mem_cons_self),
    fun c' hc' => h.delivers c' (hperm.mem_iff.mpr (List.mem_cons_of_mem _ hc'))⟩

/-- **A push** loses the block of a message that the queue does not take. -/
theorem next_push (h : Inv s) (i : ℕ) (accepted : Bool) :
    (Custody (s.next (.push i accepted)) ↔ KeepsBlocks s (.push i accepted)) ∧
      ∀ c ∈ (s.next (.push i accepted)).messages, Delivers c.msg := by
  simp only [CustodyState.next, KeepsBlocks]
  cases hcall : s.building[i]? with
  | none =>
    exact ⟨iff_of_true h.custody fun call hnone => absurd hnone.symm (Option.some_ne_none call),
      h.delivers⟩
  | some call =>
    simp only [Option.some.injEq, forall_eq']
    have hsplit : s.messages.Perm
        (call :: (s.current.toList ++ s.building.eraseIdx i ++ s.queue)) :=
      (((perm_cons_eraseIdx hcall).append_left s.current.toList).trans
        List.perm_middle).append_right s.queue
    split
    case isTrue htaken =>
      rw [Bool.and_eq_true, decide_eq_true_eq] at htaken
      -- the message has moved from the call to the queue
      have hperm : (s.current.toList ++ s.building.eraseIdx i ++ (s.queue ++ [call])).Perm
          s.messages := by
        rw [← List.append_assoc]
        exact (List.perm_append_singleton call _).trans hsplit.symm
      refine ⟨iff_of_true ?_ fun _ => htaken, fun c hc => h.delivers c (hperm.mem_iff.mp hc)⟩
      exact (balanced_congr_held (hperm.flatMap_right Carried.blocks)).mpr h.custody
    case isFalse hfull =>
      rw [Bool.and_eq_true, decide_eq_true_eq] at hfull
      have hdropped :=
        custody_of_dropped { s with building := s.building.eraseIdx i } h hsplit rfl rfl
      refine ⟨hdropped.trans ?_, (h.delivers_of_perm hsplit).2⟩
      constructor
      · intro hnone hdata
        exact Bool.noConfusion (hnone.symm.trans hdata)
      · intro hkeeps
        exact eq_false_of_ne_true fun hdata => hfull (hkeeps hdata)

/-- **The thread** loses the block of an empty message. -/
theorem next_handle (h : Inv s) :
    (Custody (s.next .handle) ↔ KeepsBlocks s .handle) ∧
      ∀ c ∈ (s.next .handle).messages, Delivers c.msg := by
  simp only [CustodyState.next, KeepsBlocks]
  cases hcurrent : s.current with
  | none =>
    exact ⟨iff_of_true h.custody fun c hnone => absurd hnone.symm (Option.some_ne_none c),
      h.delivers⟩
  | some c =>
    simp only [Option.some.injEq, forall_eq']
    have hsplit : s.messages.Perm (c :: ([] ++ s.building ++ s.queue)) := by
      rw [CustodyState.messages, hcurrent]
      rfl
    have hdropped := custody_of_dropped { s with current := none } h hsplit rfl rfl
    obtain ⟨hdelivers, hrest⟩ := h.delivers_of_perm hsplit
    refine ⟨?_, hrest⟩
    rw [frees_eq hdelivers]
    cases hdata : c.msg.data.isSome with
    | false =>
      rw [Bool.false_and, if_neg Bool.false_ne_true]
      exact iff_of_true (hdropped.mpr hdata) fun h => absurd h Bool.false_ne_true
    | true =>
      by_cases hlen : c.msg.len = 0
      · simp only [hlen, ne_eq, not_true_eq_false, decide_false, Bool.and_false,
          Bool.false_eq_true, if_false, forall_const, iff_false]
        exact fun hcustody => Bool.false_ne_true ((hdropped.mp hcustody).symm.trans hdata)
      · simp only [hlen, ne_eq, not_false_eq_true, decide_true, Bool.and_true, if_true,
          forall_const, iff_true]
        -- the block moves to those that have been freed
        have hheld : s.held.Perm
            (c.id :: (([] ++ s.building ++ s.queue).flatMap Carried.blocks)) := by
          have hflat := hsplit.flatMap_right Carried.blocks
          rwa [List.flatMap_cons, Carried.blocks, if_pos hdata] at hflat
        exact balanced_return_iff.mpr ((balanced_congr_held hheld).mp h.custody)

theorem next_pop (h : Inv s) : Inv (s.next .pop) := by
  simp only [CustodyState.next]
  split
  case h_1 c rest hcurrent hqueue =>
    have hperm : ([c] ++ s.building ++ rest).Perm s.messages := by
      rw [CustodyState.messages, hcurrent, hqueue]
      exact List.perm_middle.symm
    refine ⟨?_, fun c hc => h.delivers c (hperm.mem_iff.mp hc)⟩
    exact (balanced_congr_held (hperm.flatMap_right Carried.blocks)).mpr h.custody
  case h_2 => exact h

/-- **One step** keeps the ledger balanced if and only if it keeps the blocks. -/
theorem custody_next_iff (h : Inv s) (a : CustodyAction) :
    (Custody (s.next a) ↔ KeepsBlocks s a) ∧ ∀ c ∈ (s.next a).messages, Delivers c.msg := by
  cases a with
  | boarding malloc info opcode length data =>
    have hinv : Inv (s.next (.boarding malloc info opcode length data)) :=
      h.build fun _ => delivers_boarding
    exact ⟨iff_of_true hinv.custody trivial, hinv.delivers⟩
  | host malloc cmd =>
    have hinv : Inv (s.next (.host malloc cmd)) := h.build fun _ => delivers_host
    exact ⟨iff_of_true hinv.custody trivial, hinv.delivers⟩
  | push i accepted => exact next_push h i accepted
  | pop => exact ⟨iff_of_true (next_pop h).custody trivial, (next_pop h).delivers⟩
  | handle => exact next_handle h

end Step

/-! ## Every run -/

/-- **Every run** keeps every block in one place if and only if each of its steps keeps the
blocks. -/
theorem custody_iff (actions : List CustodyAction) :
    Along CustodyState.next (fun s a => Custody (s.next a)) .start actions ↔
      Along CustodyState.next KeepsBlocks .start actions := by
  refine along_congr (B := Inv) (fun s h a _ => (custody_next_iff h a).1)
    (fun s h a _ hcustody => ⟨hcustody, (custody_next_iff h a).2⟩) _ ⟨List.Perm.nil, ?_⟩
  exact fun c hc => absurd hc List.not_mem_nil

/-- A command of the host with one byte. -/
def oneByte : CustodyAction := .host true (some ⟨cifdCmdBleDataToApk, 1, fun _ => 0⟩)

/-- Thirty of them, while the thread does not run. -/
def thirtyCommands : List CustodyAction :=
  (List.replicate doorbellQueueLength [oneByte, .push 0 true]).flatten

/-- **A block is lost** when there is no place in the queue for its message. -/
theorem not_custody_full :
    ¬∀ actions : List CustodyAction,
      Along CustodyState.next (fun s a => Custody (s.next a)) .start actions := by
  intro h
  have hlast := (along_append.mp (h (thirtyCommands ++ [oneByte, .push 0 true]))).2.2.1
  -- there are thirty-one blocks, and thirty messages
  have hlength := List.Perm.length_eq hlast
  exact absurd hlength (by decide +kernel)

end Boarding

end YangIpc
