import YangIpc.Library.Run
import YangIpc.Transmission.Connections
import YangIpc.Transmission.Socket

/-!
# Calls of `pack_send` from several threads

`yangipc_transmission_pack_send` first packs its payload into the transmit buffer of the channel,
and then hands the buffer to `yangipc_transmission_send`, which locks the socket.  The lock does
not cover the packing: when another thread packs between the two parts, the packet of that thread
is written instead, and once more by its own call.

## Main definitions

* `SendState`, `SendState.step`: the threads, the channel and the socket
* `SentOnce`: every call that succeeded has its packet on the socket, once
* `Undisturbed`: no other call has packed since the call about to write has

## Main results

* `packets_may_be_lost`: two calls that write the second packet twice
* `packets_sent_once`: every packet is sent once in undisturbed runs
-/

namespace YangIpc

namespace Transmission

open Bytes Transition

variable {hndCrc8 : List UInt8 → UInt8} {s t : SendState} {thread : ℕ}

/-! ## The two parts of a call -/

/-- `yangipc_transmission_send`: what is written and returned, or `none` if it returns `-1`
because no client is connected. -/
def yangipcTransmissionSend (answers : ℕ → SocketAnswer) (info : DbCmdInfo) (data : List UInt8)
    (length : UInt16) : Option (List UInt8 × ℤ) :=
  if info.serverState = false then none
  else if info.clientFd < 0 then none
  else some (yangipcSocketWrite answers data length.toNat 0)

/-- A call of `yangipc_transmission_pack_send` that has packed its payload under `sequence`. -/
structure PackedCall where
  milliseconds : UInt32
  sequence : UInt16
  data : List UInt8
deriving DecidableEq, Repr

/-- The packet of the call. -/
def PackedCall.packet (hndCrc8 : List UInt8 → UInt8) (call : PackedCall) : List UInt8 :=
  (packHead hndCrc8 call.milliseconds call.sequence call.data).write ++ call.data

/-- The command channel, its socket and the threads that send on it. -/
structure SendState where
  info : DbCmdInfo
  /-- The call of each thread that is between its two parts. -/
  packed : ℕ → Option PackedCall
  /-- The thread that packed last. -/
  lastPacked : Option ℕ
  /-- The writes so far: the bytes accepted, and the value returned. -/
  writes : List (List UInt8 × ℤ)
  /-- The calls that have returned, and the values they returned. -/
  returned : List (PackedCall × ℤ)

/-- The steps of the threads. -/
inductive SendAction
  /-- a thread calls `pack_send`, and packs -/
  | pack (thread : ℕ) (milliseconds : UInt32) (data : List UInt8)
  /-- it writes, with the lock held, and returns -/
  | send (thread : ℕ) (answers : ℕ → SocketAnswer)
  /-- the server thread accepts or closes a connection -/
  | connection (serverState : Bool) (clientFd : ℤ)

namespace SendState

/-- The first part: the payload is packed. -/
def pack (hndCrc8 : List UInt8 → UInt8) (s : SendState) (thread : ℕ) (milliseconds : UInt32)
    (data : List UInt8) : SendState :=
  let channel := yangipcTransmissionPack hndCrc8 milliseconds s.info.dbChannel data
  { s with
    info := { s.info with dbChannel := channel }
    packed := fun i =>
      if i = thread then some ⟨milliseconds, channel.sequence, data⟩ else s.packed i
    lastPacked := some thread }

/-- The second part.  All callers use the command channel, whose `tsend` is
`yangipc_transmission_send`. -/
def send (s : SendState) (thread : ℕ) (call : PackedCall) (answers : ℕ → SocketAnswer) :
    SendState :=
  let length := UInt16.ofNat (headSizeTotal + call.data.length)
  let packed := fun i => if i = thread then none else s.packed i
  match yangipcTransmissionSend answers s.info (s.info.dbChannel.packed call.data.length)
    length with
  | none => { s with packed := packed, returned := s.returned ++ [(call, -1)] }
  | some (bytes, ret) =>
    { s with
      packed := packed
      writes := s.writes ++ [(bytes, ret)]
      returned := s.returned ++ [(call, ret)] }

/-- The state after a step, if it is possible.  A thread is in one call at a time, and events are
packed in buffers of `YANGIPC_NETWORK_MAX_SIZE` bytes. -/
def next (hndCrc8 : List UInt8 → UInt8) (s : SendState) : SendAction → Option SendState
  | .pack thread milliseconds data =>
    if s.packed thread = none ∧ data.length ≤ yangipcNetworkMaxSize then
      some (s.pack hndCrc8 thread milliseconds data)
    else none
  | .send thread answers => (s.packed thread).map fun call => s.send thread call answers
  | .connection serverState clientFd =>
    some { s with info := { s.info with serverState := serverState, clientFd := clientFd } }

/-- The transition system. -/
def step (hndCrc8 : List UInt8 → UInt8) (s : SendState) (a : SendAction) (t : SendState) : Prop :=
  s.next hndCrc8 a = some t

/-- No thread is sending. -/
def start (info : DbCmdInfo) : SendState := ⟨info, fun _ => none, none, [], []⟩

/-- The packets written in full, in order. -/
def written (s : SendState) : List (List UInt8) := (s.writes.filter (0 ≤ ·.2)).map Prod.fst

/-- The calls that returned success, in order. -/
def succeeded (s : SendState) : List PackedCall := (s.returned.filter (0 ≤ ·.2)).map Prod.fst

end SendState

/-- Every call that returned success has its payload on the socket, once, under its own sequence
number. -/
def SentOnce (s : SendState) : Prop :=
  (s.written.map fun p => ((DbTransHead.read p).sequence, p.drop headSizeTotal)).Perm
    (s.succeeded.map fun call => (call.sequence, call.data))

instance : Decidable (SentOnce s) := inferInstanceAs (Decidable (List.Perm _ _))

/-- The call about to write was the last one to pack, or it will not write because no client is
connected. -/
def Undisturbed (s : SendState) : SendAction → Prop
  | .send thread _ =>
    s.lastPacked = some thread ∨ s.info.serverState = false ∨ s.info.clientFd < 0
  | _ => True

instance : (a : SendAction) → Decidable (Undisturbed s a)
  | .send .. => inferInstanceAs (Decidable (_ ∨ _ ∨ _))
  | .pack .. => .isTrue trivial
  | .connection .. => .isTrue trivial

/-! ## One call -/

/-- What `yangipc_transmission_send` does with a packet. -/
theorem transmissionSend_cases (answers : ℕ → SocketAnswer) (info : DbCmdInfo) {data : List UInt8}
    {length : UInt16} (h : length.toNat = data.length) :
    yangipcTransmissionSend answers info data length = none ∨
      (info.serverState = true ∧ 0 ≤ info.clientFd) ∧
        (yangipcTransmissionSend answers info data length = some (data, (data.length : ℤ)) ∨
          ∃ bytes, yangipcTransmissionSend answers info data length = some (bytes, -1)) := by
  rw [yangipcTransmissionSend]
  by_cases hstate : info.serverState = false
  · exact .inl (if_pos hstate)
  rw [if_neg hstate]
  by_cases hfd : info.clientFd < 0
  · exact .inl (if_pos hfd)
  rw [if_neg hfd]
  refine .inr ⟨⟨eq_true_of_ne_false hstate, Int.not_lt.mp hfd⟩, ?_⟩
  have hregion : (data.drop 0).take ((length.toNat - 0) % 65536) = data := by
    rw [List.drop_zero, Nat.sub_zero, Nat.mod_eq_of_lt length.toNat_lt, h, List.take_length]
  have hwritten := socketWrite_spec answers data length.toNat 0
  rw [hregion] at hwritten
  rcases hwritten with hall | ⟨hret, -⟩
  · exact .inl (congrArg some hall)
  · exact .inr ⟨_, congrArg some (Prod.ext rfl hret)⟩

variable (thread) in
/-- What a call does when the buffer holds its packet: it writes the packet and succeeds, or
returns an error. -/
theorem send_cases {call : PackedCall} (answers : ℕ → SocketAnswer)
    (hshort : call.data.length ≤ yangipcNetworkMaxSize)
    (hready : s.info.serverState = true → 0 ≤ s.info.clientFd →
      s.info.dbChannel.packed call.data.length = call.packet hndCrc8) :
    ((s.send thread call answers).written = s.written ∧
        (s.send thread call answers).succeeded = s.succeeded) ∨
      ((s.send thread call answers).written = s.written ++ [call.packet hndCrc8] ∧
        (s.send thread call answers).succeeded = s.succeeded ++ [call]) := by
  have hlength : (UInt16.ofNat (headSizeTotal + call.data.length)).toNat =
      (s.info.dbChannel.packed call.data.length).length := by
    have hmax : yangipcNetworkMaxSize = 1024 := rfl
    have hhead : headSizeTotal = 16 := rfl
    rw [UInt16.toNat_ofNat', Nat.mod_eq_of_lt (by omega), Channel.packed, length_load]
  unfold SendState.send
  rcases transmissionSend_cases answers s.info hlength with
    hnone | ⟨⟨hstate, hfd⟩, hall | ⟨bytes, herror⟩⟩
  · simp only [hnone]
    exact .inl ⟨rfl, by simp [SendState.succeeded]⟩
  · simp only [hall]
    rw [hready hstate hfd]
    exact .inr ⟨by simp [SendState.written], by simp [SendState.succeeded]⟩
  · simp only [herror]
    exact .inl ⟨by simp [SendState.written], by simp [SendState.succeeded]⟩

theorem send_packed (s : SendState) (call : PackedCall) (answers : ℕ → SocketAnswer) (i : ℕ) :
    (s.send thread call answers).packed i = if i = thread then none else s.packed i := by
  simp only [SendState.send]
  rcases yangipcTransmissionSend answers s.info (s.info.dbChannel.packed call.data.length)
    (UInt16.ofNat (headSizeTotal + call.data.length)) with _ | _ <;> rfl

variable (thread) in
theorem send_keeps (s : SendState) (call : PackedCall) (answers : ℕ → SocketAnswer) :
    (s.send thread call answers).info = s.info ∧
      (s.send thread call answers).lastPacked = s.lastPacked := by
  simp only [SendState.send]
  rcases yangipcTransmissionSend answers s.info (s.info.dbChannel.packed call.data.length)
    (UInt16.ofNat (headSizeTotal + call.data.length)) with _ | _ <;> exact ⟨rfl, rfl⟩

/-! ## Runs -/

/-- The invariant of undisturbed runs. -/
structure Intact (hndCrc8 : List UInt8 → UInt8) (s : SendState) : Prop where
  short : ∀ thread call, s.packed thread = some call →
    call.data.length ≤ yangipcNetworkMaxSize
  buffer : ∀ thread call, s.lastPacked = some thread → s.packed thread = some call →
    s.info.dbChannel.packed call.data.length = call.packet hndCrc8
  matched : s.written = s.succeeded.map (PackedCall.packet hndCrc8)

theorem Intact.pack {milliseconds : UInt32} {data : List UInt8} (h : Intact hndCrc8 s)
    (hdata : data.length ≤ yangipcNetworkMaxSize) :
    Intact hndCrc8 (s.pack hndCrc8 thread milliseconds data) where
  short i call hcall := by
    simp only [SendState.pack] at hcall
    split at hcall
    · obtain rfl := Option.some.inj hcall
      exact hdata
    · exact h.short i call hcall
  buffer i call hlast hcall := by
    obtain rfl : thread = i := Option.some.inj hlast
    simp only [SendState.pack, if_true] at hcall
    obtain rfl := Option.some.inj hcall
    exact packed_eq
  matched := h.matched

theorem Intact.send {call : PackedCall} {answers : ℕ → SocketAnswer} (h : Intact hndCrc8 s)
    (hcall : s.packed thread = some call) (hok : Undisturbed s (.send thread answers)) :
    Intact hndCrc8 (s.send thread call answers) := by
  obtain ⟨hinfo, hlast⟩ := send_keeps thread s call answers
  -- nobody is left between the two parts who was not there before
  have hpacked : ∀ i c, (s.send thread call answers).packed i = some c →
      s.packed i = some c := by
    intro i c hc
    rw [send_packed] at hc
    split at hc
    · exact absurd hc (by simp)
    · exact hc
  refine ⟨fun i c hc => h.short i c (hpacked i c hc), fun i c hi hc => ?_, ?_⟩
  · rw [hinfo]
    exact h.buffer i c (hlast ▸ hi) (hpacked i c hc)
  · have hready (hstate : s.info.serverState = true) (hfd : 0 ≤ s.info.clientFd) :
        s.info.dbChannel.packed call.data.length = call.packet hndCrc8 := by
      rcases hok with hthread | hstate' | hfd'
      · exact h.buffer thread call hthread hcall
      · exact Bool.noConfusion (hstate.symm.trans hstate')
      · exact absurd hfd' (Int.not_lt.mpr hfd)
    rcases send_cases thread answers (h.short thread call hcall) hready with
      ⟨hwritten, hsucceeded⟩ | ⟨hwritten, hsucceeded⟩
    · rw [hwritten, hsucceeded, h.matched]
    · rw [hwritten, hsucceeded, h.matched, List.map_append]
      rfl

theorem Intact.step {a : SendAction} (h : Intact hndCrc8 s) (hok : Undisturbed s a)
    (hstep : SendState.step hndCrc8 s a t) : Intact hndCrc8 t := by
  cases a with
  | pack thread milliseconds data =>
    obtain ⟨hguard, ht⟩ := Option.ite_none_right_eq_some.mp hstep
    obtain rfl := Option.some.inj ht
    exact h.pack hguard.2
  | send thread answers =>
    obtain ⟨call, hcall, rfl⟩ := Option.map_eq_some_iff.mp hstep
    exact h.send hcall hok
  | connection serverState clientFd =>
    obtain rfl := Option.some.inj hstep
    exact ⟨h.short, h.buffer, h.matched⟩

theorem Intact.sentOnce (h : Intact hndCrc8 s) : SentOnce s := by
  rw [SentOnce, h.matched, List.map_map]
  apply List.Perm.of_eq
  apply List.map_congr_left
  intro call _
  show ((DbTransHead.read (call.packet hndCrc8)).sequence, _) = _
  rw [PackedCall.packet, DbTransHead.read_write, List.drop_left' (DbTransHead.length_write _)]
  rfl

/-- A client is connected, and nothing has been sent. -/
def connected : SendState := SendState.start ⟨true, 3, 0, smallChannel⟩

/-- The socket takes everything at once. -/
def acceptsAll : ℕ → SocketAnswer := fun _ => .accepts 65535

/-- The step an action leads to. -/
def SendState.move (hndCrc8 : List UInt8 → UInt8) (s : SendState) (a : SendAction) :
    Option (SendAction × SendState) := (s.next hndCrc8 a).map (a, ·)

/-- **Packets may be lost.** Two threads pack, and then both write: the second packet is written
twice, and the first one never, although both calls succeed. -/
theorem packets_may_be_lost :
    ¬∀ (hndCrc8 : List UInt8 → UInt8) (info : DbCmdInfo) (s : SendState),
      Reaches (SendState.step hndCrc8) (SendState.start info) s → SentOnce s := by
  intro h
  have hplay : (play (SendState.move fun _ => 0) (fun _ _ => true)
      [.pack 0 7 [1, 2, 3], .pack 1 9 [4, 5, 6], .send 0 acceptsAll, .send 1 acceptsAll]
      connected).any (fun s => !decide (SentOnce s)) = true := by decide +kernel
  obtain ⟨s, hrun, hlost⟩ := exists_reaches_of_play (fun _ _ _ _ => next_of_labelled) hplay
  have hsent := h _ _ s (hrun.mono fun _ _ _ ha => ha.2)
  simp [hsent] at hlost

/-- **Every packet is sent once.** In every run in which no other call packs between the two
parts of a call, as long as a client is connected, the packets written are those of the calls that
returned success. -/
theorem packets_sent_once (hndCrc8 : List UInt8 → UInt8) (info : DbCmdInfo) (s : SendState)
    (h : Reaches (Guarded (SendState.step hndCrc8) Undisturbed) (SendState.start info) s) :
    SentOnce s := by
  refine (h.invariant (P := Intact hndCrc8) ?_ fun t a u ht ha => ht.step ha.1 ha.2).sentOnce
  constructor <;> simp [SendState.start, SendState.written, SendState.succeeded]

/-- Two threads, one call after the other: both packets arrive. -/
theorem packets_sent_once_alternating :
    ∃ s, s.succeeded.map PackedCall.data = [[1, 2, 3], [4, 5, 6]] ∧ SentOnce s := by
  have hplay : (play (SendState.move fun _ => 0) (fun s a => decide (Undisturbed s a))
      [.pack 0 7 [1, 2, 3], .send 0 acceptsAll, .pack 1 9 [4, 5, 6], .send 1 acceptsAll]
      connected).any (fun s => s.succeeded.map PackedCall.data = [[1, 2, 3], [4, 5, 6]]) =
        true := by
    decide +kernel
  obtain ⟨s, hrun, hdata⟩ := exists_reaches_of_play (fun _ _ _ _ => next_of_labelled) hplay
  exact ⟨s, of_decide_eq_true hdata, packets_sent_once (fun _ => 0) _ s
    (hrun.weaken fun _ _ hok => of_decide_eq_true hok)⟩

end Transmission

end YangIpc
