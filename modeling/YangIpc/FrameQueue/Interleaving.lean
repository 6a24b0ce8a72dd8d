import YangIpc.FrameQueue.Calls
import YangIpc.FrameQueue.Sections

/-!
# Interleaved calls

Any number of calls are in flight on one initialised queue, each at some point of its code.  A
step runs one piece of one call: a critical section, or a stretch of the code between two
sections, where a call of the allocator, a free and a store to `node->frame` are pieces of their
own.  The pieces are those of `Operations`.

## Main definitions

* `Pc`, `Pc.exec`: where a call stands, and what its next piece does
* `System`, `System.Step`: the calls in flight and the interleaved steps
* `limboNode`: the node a `release_frame` has unlinked and not yet appended

## Main results

* `nodes_are_conserved`: every created node is on a list or in the hands of one release
-/

namespace YangIpc

namespace FrameQueue

open Transition

/-- A call as a client makes it; the answers of the allocator come later. -/
inductive Request
  | malloc (size : ℕ)
  | complete (frame : Option FrameAddr)
  | cancel (frame : Option FrameAddr)
  | getFrame (id : Mask)
  | releaseFrame (id : Mask) (frame : Option FrameAddr)
  | registerConsumer (id : Mask)
  | unregisterConsumer (id : Mask)
  | clearAll
deriving DecidableEq, Repr

/-- The next piece of a call in flight, with the local variables it needs. -/
inductive Pc
  | mallocSearch (size : ℕ)
  | mallocFrame (size : ℕ) (n : NodeId)
  | mallocAlloc (size : ℕ) (n : NodeId)
  | mallocAttach (n : NodeId) (answer : Option FrameAddr)
  | mallocReset (n : NodeId) (frame : FrameAddr)
  | mallocMask (n : NodeId) (frame : FrameAddr)
  | mallocDone (frame : FrameAddr)
  | completeFind (frame : FrameAddr)
  | completePost (left : ℕ)
  | completeDone
  | cancelFind (frame : FrameAddr)
  | cancelFree (n : NodeId)
  | cancelClear (n : NodeId)
  | getEnabled (id : Mask)
  | getSearch (id : Mask) (idx : Fin 8)
  | getWait (id : Mask) (idx : Fin 8)
  | releaseFind (idx : Fin 8) (frame : FrameAddr)
  | releaseFree (n : NodeId)
  | releaseClear (n : NodeId)
  | releaseReset (n : NodeId)
  | releaseAppend (n : NodeId)
  | releaseDone
  | register (id : Mask) (idx : Fin 8)
  | unregister (id : Mask) (idx : Fin 8)
  | clearReady
  | clearFree
deriving DecidableEq, Repr

/-- What follows a piece: the next one, or the return. -/
inductive Next
  | goto (pc : Pc)
  | done (result : Result)
deriving DecidableEq, Repr

/-- What a piece may be answered: by the allocator, and by the clock of `get_frame`. -/
structure Env where
  answer : Option FrameAddr
  timeout : Bool
deriving DecidableEq, Repr

/-- The checks at the head of a call; `none` if the call returns there. -/
def Request.enter (format : ImageFormat) (q : FrameQueueV2) : Request → Option Pc
  | .malloc size => if usable format q then some (.mallocSearch size) else none
  | .complete frame => if usable format q then frame.map .completeFind else none
  | .cancel frame => if usable format q then frame.map .cancelFind else none
  | .getFrame id => if usable format q then some (.getEnabled id) else none
  | .releaseFrame id frame =>
    if usable format q then
      match frame, consumerIdx id with
      | some frame, some idx => some (.releaseFind idx frame)
      | _, _ => none
    else none
  | .registerConsumer id =>
    if usable format q then (consumerIdx id).map (.register id) else none
  | .unregisterConsumer id =>
    if usable format q then (consumerIdx id).map (.unregister id) else none
  | .clearAll => if q.count = 0 then none else some .clearReady

/-- The effect of a piece, and what follows it. -/
def Pc.exec (format : ImageFormat) (env : Env) (q : FrameQueueV2) : Pc → FrameQueueV2 × Next
  | .mallocSearch size =>
    match FrameQueue.mallocSearch format q with
    | (q, none) => (q, .done (.frame none))
    | (q, some n) => (q, .goto (.mallocFrame size n))
  | .mallocFrame size n =>
    match (q.node n).frame with
    | some frame => (q, .goto (.mallocReset n frame))
    | none => (q, .goto (.mallocAlloc size n))
  | .mallocAlloc size n =>
    let r := FrameQueue.mallocAlloc format size env.answer q
    (r.1, .goto (.mallocAttach n r.2))
  | .mallocAttach n answer =>
    match FrameQueue.mallocAttach q n answer with
    | (q, none) => (q, .done (.frame none))
    | (q, some frame) => (q, .goto (.mallocReset n frame))
  | .mallocReset n frame => (FrameQueue.mallocReset q n, .goto (.mallocMask n frame))
  | .mallocMask n frame => (FrameQueue.mallocMask q n, .goto (.mallocDone frame))
  | .mallocDone frame => (FrameQueue.mallocDone q, .done (.frame (some frame)))
  | .completeFind frame =>
    match FrameQueue.completeFind frame q with
    | (q, none) => (q, .done (.status false))
    | (q, some count) => (q, .goto (.completePost (signalCount count)))
  | .completePost 0 => (q, .goto .completeDone)
  | .completePost (left + 1) => (FrameQueue.completePost q, .goto (.completePost left))
  | .completeDone => (FrameQueue.completeDone q, .done (.status true))
  | .cancelFind frame =>
    match FrameQueue.cancelFind frame q with
    | (q, none) => (q, .done (.status false))
    | (q, some n) => (q, .goto (.cancelFree n))
  -- `node->frame` is read again, after the critical section
  | .cancelFree n =>
    match (q.node n).frame with
    | none => (q, .done (.status true))
    | some _ => (q.freeFrame format n, .goto (.cancelClear n))
  | .cancelClear n => (q.clearFrame n, .done (.status true))
  | .getEnabled id =>
    match FrameQueue.getEnabled id q with
    | none => (q, .done (.frame none))
    | some idx => (q, .goto (.getSearch id idx))
  | .getSearch id idx =>
    match FrameQueue.getSearch id idx q with
    | (q, some frame) => (q, .done (.frame frame))
    | (q, none) => (q, .goto (.getWait id idx))
  -- the elapsed time and the wait for the semaphore; without a token the wait goes on
  | .getWait id idx =>
    if env.timeout then (q, .done (.frame none))
    else if q.frameReady = 0 then (q, .goto (.getWait id idx))
    else (getToken q, .goto (.getSearch id idx))
  | .releaseFind idx frame =>
    match FrameQueue.releaseFind idx frame q with
    | (q, none) => (q, .done .unit)
    | (q, some n) => (q, .goto (.releaseFree n))
  | .releaseFree n =>
    match (q.node n).frame with
    | none => (q, .goto (.releaseReset n))
    | some _ => (q.freeFrame format n, .goto (.releaseClear n))
  | .releaseClear n => (q.clearFrame n, .goto (.releaseReset n))
  | .releaseReset n => (FrameQueue.releaseReset q n, .goto (.releaseAppend n))
  | .releaseAppend n => (FrameQueue.releaseAppend q n, .goto .releaseDone)
  | .releaseDone => (FrameQueue.releaseDone q, .done .unit)
  | .register id idx => (registerSection id idx q, .done (.status true))
  | .unregister id idx => (unregisterSection id idx q, .done (.status true))
  | .clearReady => (FrameQueue.clearReady q, .goto .clearFree)
  | .clearFree => (FrameQueue.clearFree q, .done (.status true))

/-- How a call begins. -/
theorem Request.enter_cases {format : ImageFormat} {q : FrameQueueV2} {request : Request} {pc : Pc}
    (h : request.enter format q = some pc) :
    (∃ size, request = .malloc size ∧ pc = .mallocSearch size) ∨
    (∃ f, request = .complete (some f) ∧ pc = .completeFind f) ∨
    (∃ f, request = .cancel (some f) ∧ pc = .cancelFind f) ∨
    (∃ id, request = .getFrame id ∧ pc = .getEnabled id) ∨
    (∃ id f idx, request = .releaseFrame id (some f) ∧ pc = .releaseFind idx f) ∨
    (∃ id idx, request = .registerConsumer id ∧ consumerIdx id = some idx ∧
      pc = .register id idx) ∨
    (∃ id idx, request = .unregisterConsumer id ∧ pc = .unregister id idx) ∨
    (request = .clearAll ∧ pc = .clearReady) := by
  cases request with
  | malloc size => simp_all [Request.enter]
  | complete frame => cases frame <;> simp_all [Request.enter]
  | cancel frame => cases frame <;> simp_all [Request.enter]
  | getFrame id => simp_all [Request.enter]
  | releaseFrame id frame =>
    cases frame <;> cases hidx : consumerIdx id <;> simp_all [Request.enter]
    exact ⟨_, h.2.symm⟩
  | registerConsumer id => cases hidx : consumerIdx id <;> simp_all [Request.enter]
  | unregisterConsumer id =>
    cases hidx : consumerIdx id <;> simp_all [Request.enter]
    exact ⟨_, h.2.symm⟩
  | clearAll => simp_all [Request.enter]

/-! ## The system -/

/-- A call in flight, with the client that made it. -/
structure Thread where
  caller : ℕ
  pc : Pc
deriving DecidableEq, Repr

/-- The queue, the calls in flight, and what producers own: `(p, f)` when `malloc` has returned
`f` to `p`, which has not yet called `complete` or `cancel` on it. -/
structure System where
  queue : FrameQueueV2
  threads : List Thread
  owned : List (ℕ × FrameAddr)

/-- A client makes a call, or a call in flight runs its next piece. -/
inductive Action
  | call (caller : ℕ) (request : Request)
  | run (thread : Thread) (env : Env)
deriving DecidableEq, Repr

/-- What a producer still owns when it makes a call. -/
def giveBack (caller : ℕ) (owned : List (ℕ × FrameAddr)) : Request → List (ℕ × FrameAddr)
  | .complete (some frame) => owned.erase (caller, frame)
  | .cancel (some frame) => owned.erase (caller, frame)
  | _ => owned

/-- The call in flight after a piece. -/
def Thread.next (t : Thread) : Next → List Thread
  | .goto pc => [{ t with pc := pc }]
  | .done _ => []

/-- What a producer owns when one of its calls returns. -/
def Thread.receive (t : Thread) (owned : List (ℕ × FrameAddr)) : Next → List (ℕ × FrameAddr)
  | .done (.frame (some frame)) =>
    match t.pc with
    | .mallocDone _ => (t.caller, frame) :: owned
    | _ => owned
  | _ => owned

/-- The interleaved steps.  The order of the calls in flight does not matter. -/
inductive System.Step (format : ImageFormat) : System → Action → System → Prop
  | call (s : System) (caller : ℕ) (request : Request) (pc : Pc)
      (enter : request.enter format s.queue = some pc) :
      Step format s (.call caller request)
        ⟨s.queue, ⟨caller, pc⟩ :: s.threads, giveBack caller s.owned request⟩
  | run (s : System) (t : Thread) (rest : List Thread) (env : Env)
      (pick : s.threads.Perm (t :: rest)) :
      Step format s (.run t env)
        ⟨(t.pc.exec format env s.queue).1, t.next (t.pc.exec format env s.queue).2 ++ rest,
          t.receive s.owned (t.pc.exec format env s.queue).2⟩

/-- The system right after `frame_queue_v2_init`. -/
def System.initial (format : ImageFormat) (answer : ℕ → Option NodeId)
    (node : NodeId → FrameNode) : System :=
  ⟨initialised format answer node, [], []⟩

/-! ## Played runs -/

/-- A move of the scheduler: a client makes a call, or its call in flight takes a turn. -/
inductive Move
  | call (caller : ℕ) (request : Request)
  | turn (caller : ℕ) (answer : Option FrameAddr)
deriving DecidableEq, Repr

/-- The same call takes several turns. -/
def turns (caller count : ℕ) : List Move := List.replicate count (.turn caller none)

/-- The action of a move and the state it leads to. -/
def System.move (format : ImageFormat) (s : System) : Move → Option (Action × System)
  | .call caller request =>
    (request.enter format s.queue).map fun pc =>
      (.call caller request,
        ⟨s.queue, ⟨caller, pc⟩ :: s.threads, giveBack caller s.owned request⟩)
  | .turn caller answer =>
    (s.threads.find? fun t => t.caller = caller).map fun t =>
      let env : Env := ⟨answer, false⟩
      let r := t.pc.exec format env s.queue
      (.run t env, ⟨r.1, t.next r.2 ++ s.threads.erase t, t.receive s.owned r.2⟩)

theorem System.step_of_move {format : ImageFormat} (s : System) (move : Move) (a : Action)
    (s' : System) (h : s.move format move = some (a, s')) : System.Step format s a s' := by
  cases move with
  | call caller request =>
    obtain ⟨pc, henter, hpc⟩ := Option.map_eq_some_iff.mp h
    obtain ⟨rfl, rfl⟩ := Prod.mk.inj hpc
    exact .call s caller request pc henter
  | turn caller answer =>
    obtain ⟨t, ht, hs⟩ := Option.map_eq_some_iff.mp h
    obtain ⟨rfl, rfl⟩ := Prod.mk.inj hs
    exact .run s t _ _ (List.perm_cons_erase (List.mem_of_find?_eq_some ht))

/-! ## Conservation of nodes -/

/-- The node a `release_frame` has unlinked and not yet appended to `free_list`. -/
def limboNode : Pc → Option NodeId
  | .releaseFree n => some n
  | .releaseClear n => some n
  | .releaseReset n => some n
  | .releaseAppend n => some n
  | _ => none

/-- The nodes in the hands of the releases in flight. -/
def limbo (threads : List Thread) : List NodeId := threads.filterMap fun t => limboNode t.pc

/-- The node in the hands of a call after a piece. -/
def Next.limbo : Next → List NodeId
  | .goto pc => (limboNode pc).toList
  | .done _ => []

variable {format : ImageFormat} {q q' : FrameQueueV2} {n : NodeId} {env : Env}

theorem limbo_next (t : Thread) (next : Next) (rest : List Thread) :
    limbo (t.next next ++ rest) = next.limbo ++ limbo rest := by
  cases next with
  | goto pc => cases h : limboNode pc <;> simp [limbo, Thread.next, Next.limbo, h]
  | done result => simp [limbo, Thread.next, Next.limbo]

theorem limbo_cons (t : Thread) (rest : List Thread) :
    limbo (t :: rest) = (limboNode t.pc).toList ++ limbo rest := by
  cases h : limboNode t.pc <;> simp [limbo, h]

/-- Pieces that leave both lists alone. -/
theorem conserves_of_lists (hfree : q'.freeList = q.freeList) (hready : q'.readyList = q.readyList)
    (hc : q.Counted) : q'.listed.Perm q.listed ∧ q'.Counted := by
  simp only [FrameQueueV2.listed, FrameQueueV2.Counted, hfree, hready]
  exact ⟨.refl _, hc⟩

/-- **One piece loses no node.** -/
theorem exec_conserves (format : ImageFormat) (env : Env) (pc : Pc) (hc : q.Counted)
    (hready : q.readyList.nodes.Nodup) :
    ((pc.exec format env q).1.listed ++ (pc.exec format env q).2.limbo).Perm
        (q.listed ++ (limboNode pc).toList) ∧ (pc.exec format env q).1.Counted := by
  -- most pieces leave both lists alone
  have hsame : ∀ q' : FrameQueueV2, q'.freeList = q.freeList → q'.readyList = q.readyList →
      ∀ l : List NodeId, (q'.listed ++ l).Perm (q.listed ++ l) ∧ q'.Counted := by
    intro q' hf hr l
    obtain ⟨hp, hc'⟩ := conserves_of_lists hf hr hc
    exact ⟨hp.append_right l, hc'⟩
  cases pc with
  | mallocSearch size =>
    rcases mallocSearch_cases format q with ⟨n, hn, -, he⟩ | ⟨-, -, l₁, n, l₂, hl, -, -, he⟩ |
      ⟨-, -, he⟩ <;> simp only [Pc.exec, he]
    · exact hsame _ rfl rfl []
    · have hn : n ∈ q.readyList.nodes := by simp [hl]
      refine ⟨(Lists.perm_move_head hn).append_right _, ?_⟩
      simp [FrameQueueV2.Counted, hc.1, hc.2, List.length_erase_of_mem hn]
    · exact hsame _ rfl rfl []
  | mallocFrame size n =>
    cases hf : (q.node n).frame <;> simp only [Pc.exec, hf] <;> exact hsame _ rfl rfl []
  | mallocAlloc size n =>
    refine hsame _ ?_ ?_ [] <;> simp only [Pc.exec, FrameQueue.mallocAlloc] <;> split <;> rfl
  | mallocAttach n answer => cases answer <;> exact hsame _ rfl rfl []
  | mallocReset n frame => exact hsame _ rfl rfl []
  | mallocMask n frame => exact hsame _ rfl rfl []
  | mallocDone frame => exact hsame _ rfl rfl []
  | completeFind frame =>
    rcases completeFind_cases frame q with ⟨n, hn, -, -, he⟩ | ⟨-, he⟩ <;> simp only [Pc.exec, he]
    · refine ⟨(Lists.perm_move_back hn).append_right _, ?_⟩
      simp [FrameQueueV2.Counted, hc.1, hc.2, List.length_erase_of_mem hn]
    · exact hsame _ rfl rfl []
  | completePost left => cases left <;> exact hsame _ rfl rfl []
  | completeDone => exact hsame _ rfl rfl []
  | cancelFind frame =>
    rcases cancelFind_cases frame q with ⟨n, -, -, -, he⟩ | ⟨-, he⟩ <;> simp only [Pc.exec, he] <;>
      exact hsame _ rfl rfl []
  | cancelFree n =>
    cases hf : (q.node n).frame <;> simp only [Pc.exec, hf] <;> exact hsame _ (by simp) (by simp) []
  | cancelClear n => exact hsame _ rfl rfl []
  | getEnabled id =>
    cases he : FrameQueue.getEnabled id q <;> simp only [Pc.exec, he] <;> exact hsame _ rfl rfl []
  | getSearch id idx =>
    rcases getSearch_cases id idx q with ⟨l₁, n, l₂, -, -, -, he⟩ | ⟨-, he⟩ <;>
      simp only [Pc.exec, he] <;> exact hsame _ rfl rfl []
  | getWait id idx =>
    simp only [Pc.exec]
    split
    · exact hsame _ rfl rfl []
    · split <;> exact hsame _ rfl rfl []
  | releaseFind idx frame =>
    rcases releaseFind_cases idx frame q with
      ⟨l₁, n, l₂, hl, -, -, ⟨-, -, he⟩ | ⟨-, he⟩⟩ | ⟨-, he⟩ <;> simp only [Pc.exec, he]
    · -- the node goes from `ready_list` into the hands of the release
      have hn : n ∈ q.readyList.nodes := by simp [hl]
      constructor
      · simp only [Next.limbo, limboNode, Option.toList_some, Option.toList_none, List.append_nil]
        exact List.perm_append_comm.trans (Lists.perm_take_out hn)
      · simp [FrameQueueV2.Counted, hc.1, hc.2, List.length_erase_of_mem hn]
    · exact hsame _ rfl rfl []
    · exact hsame _ rfl rfl []
  | releaseFree n =>
    cases hf : (q.node n).frame <;> simp only [Pc.exec, hf] <;>
      exact hsame _ (by simp) (by simp) [n]
  | releaseClear n => exact hsame _ rfl rfl [n]
  | releaseReset n => exact hsame _ rfl rfl [n]
  | releaseAppend n =>
    -- and from there to `free_list`
    refine ⟨?_, by simp [Pc.exec, FrameQueueV2.Counted, hc.1, hc.2]⟩
    simp only [Pc.exec, Next.limbo, limboNode, Option.toList_none, Option.toList_some,
      FrameQueueV2.listed, releaseAppend_freeList, releaseAppend_readyList,
      frameListAddTailNolock_nodes, List.append_nil, List.append_assoc]
    exact List.perm_append_comm.append_left _
  | releaseDone => exact hsame _ rfl rfl []
  | register id idx =>
    obtain ⟨hperm, hcount⟩ := registerSection_conserves id idx hready hc
    exact ⟨hperm.append_right _, hcount⟩
  | unregister id idx =>
    obtain ⟨hperm, hcount⟩ := unregisterSection_conserves id idx hready hc
    exact ⟨hperm.append_right _, hcount⟩
  | clearReady => exact ⟨(sweepReady_perm hready).append_right _, sweepReady_counted hready hc⟩
  | clearFree =>
    obtain ⟨hf, hr⟩ := cleanFree_lists q.freeList.nodes q
    exact hsame _ hf hr []

/-- Every created node is on one of the lists or in the hands of one release. -/
structure Conserved (created : List NodeId) (s : System) : Prop where
  perm : (s.queue.listed ++ limbo s.threads).Perm created
  counted : s.queue.Counted

theorem limbo_perm {l l' : List Thread} (h : l.Perm l') : (limbo l).Perm (limbo l') :=
  h.filterMap _

theorem Conserved.step {created : List NodeId} (hcreated : created.Nodup) {s s' : System}
    {a : Action} (h : Conserved created s) (hstep : System.Step format s a s') :
    Conserved created s' := by
  cases hstep with
  | call caller request pc enter =>
    -- a call begins with nothing in its hands
    have hpc : limboNode pc = none := by
      rcases Request.enter_cases enter with ⟨_, -, rfl⟩ | ⟨_, -, rfl⟩ | ⟨_, -, rfl⟩ | ⟨_, -, rfl⟩ |
        ⟨_, _, _, -, rfl⟩ | ⟨_, _, -, -, rfl⟩ | ⟨_, _, -, rfl⟩ | ⟨-, rfl⟩ <;> rfl
    exact ⟨by simpa [limbo_cons, hpc] using h.perm, h.counted⟩
  | run t rest env pick =>
    -- the nodes of the call that runs are set apart from those of the others
    have hperm : (s.queue.listed ++ (limboNode t.pc).toList ++ limbo rest).Perm created := by
      rw [List.append_assoc, ← limbo_cons]
      exact ((limbo_perm pick).symm.append_left _).trans h.perm
    have hready : s.queue.readyList.nodes.Nodup := by
      have hnd := hperm.nodup_iff.mpr hcreated
      exact (List.nodup_append.mp
        (List.nodup_append.mp (List.nodup_append.mp hnd).1).1).2.1
    obtain ⟨hexec, hcount⟩ := exec_conserves format env t.pc h.counted hready
    refine ⟨?_, hcount⟩
    rw [limbo_next, ← List.append_assoc]
    exact (hexec.append_right _).trans hperm

theorem conserved_initial (format : ImageFormat) (answer : ℕ → Option NodeId)
    (node : NodeId → FrameNode) :
    Conserved (createdNodes format answer) (System.initial format answer node) := by
  obtain ⟨hfree, hready, hcount, -⟩ := initialised_lists format answer node
  refine ⟨?_, hcount⟩
  simp [System.initial, FrameQueueV2.listed, hfree, hready, limbo]

/-- **Nodes are conserved.** However calls interleave, the nodes on `free_list`, the nodes on
`ready_list` and those a `release_frame` has unlinked and not yet appended are together the nodes
that `init` created, each exactly once, and the counts are the lengths. -/
theorem nodes_are_conserved {answer : ℕ → Option NodeId} {node : NodeId → FrameNode} {s : System}
    (hnodes : (createdNodes format answer).Nodup)
    (h : Reaches (System.Step format) (System.initial format answer node) s) :
    (s.queue.freeList.nodes ++ s.queue.readyList.nodes ++ limbo s.threads).Perm
        (createdNodes format answer) ∧
      (s.queue.freeList.nodes ++ s.queue.readyList.nodes ++ limbo s.threads).Nodup ∧
      s.queue.freeList.count = s.queue.freeList.nodes.length ∧
      s.queue.readyList.count = s.queue.readyList.nodes.length := by
  have hs : Conserved (createdNodes format answer) s :=
    h.invariant (conserved_initial format answer node) fun _ _ _ ht hstep => ht.step hnodes hstep
  exact ⟨hs.perm, hs.perm.nodup_iff.mpr hnodes, hs.counted.1, hs.counted.2⟩

/-- Consumer `0` releases the first frame, and producer `2` is at work on the next one. -/
def releasing : List Move :=
  [.call 0 (.registerConsumer 1)] ++ turns 0 1 ++ [.call 1 (.malloc 10)] ++ turns 1 2 ++
    [.turn 1 (some 100)] ++ turns 1 4 ++ [.call 1 (.complete (some 100))] ++ turns 1 4 ++
    [.call 0 (.getFrame 1)] ++ turns 0 2 ++ [.call 0 (.releaseFrame 1 (some 100))] ++
    turns 0 2 ++ [.call 2 (.malloc 20)] ++ turns 2 2

/-- The same while a node is on neither list. -/
theorem nodes_are_conserved_limbo : ∃ s,
    Reaches (System.Step .h264) (System.initial .h264 some fun _ => .zero) s ∧
      limbo s.threads = [0] ∧
      (s.queue.freeList.nodes ++ s.queue.readyList.nodes ++ [0]).Perm
        (createdNodes .h264 some) := by
  have hplay : (play (System.move .h264) (fun _ _ => true) releasing
      (System.initial .h264 some fun _ => .zero)).any
        (fun s => limbo s.threads = [0]) = true := by
    decide +kernel
  obtain ⟨s, hs, hlimbo⟩ := exists_reaches_of_play System.step_of_move hplay
  have hreach := hs.mono fun _ _ _ h => h.2
  have hlimbo : limbo s.threads = [0] := by simpa using hlimbo
  have h := (nodes_are_conserved (by decide) hreach).1
  rw [hlimbo] at h
  exact ⟨s, hreach, hlimbo, h⟩

end FrameQueue

end YangIpc
