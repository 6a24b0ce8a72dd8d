import YangIpc.FrameQueue.Operations
import YangIpc.Library.Run
import Mathlib.Data.Finset.Insert
import Mathlib.Data.Finset.Erase

/-!
# Runs of atomic calls on one queue

A run is a sequence of calls, each executed alone.  A `Call` is a call of the source with its
arguments and the external answers it receives.  A `World` is the queue together with the
`History` a client observes from the calls and their results: which consumer holds which frame,
and the completions and deliveries so far.  The code never reads the history.

Completions are numbered in the order of the successful `complete` calls.  A buffer address is
used again and again, so the completion a frame belongs to is the latest one of its address.

## Main definitions

* `Call`, `Call.run`: the calls and their effect
* `History.record`: what a client learns from a call
* `World.step`: the transition system; `Fresh`: the promise of the allocators
-/

namespace YangIpc

namespace FrameQueue

/-- A call with its arguments and external answers. -/
inductive Call
  | init (semaphore : Bool) (answer : ℕ → Option NodeId)
  | deinit
  | clearAll
  | registerConsumer (id : Mask)
  | unregisterConsumer (id : Mask)
  | malloc (size : ℕ) (answer : Option FrameAddr)
  | complete (frame : Option FrameAddr)
  | cancel (frame : Option FrameAddr)
  | getFrame (id : Mask) (waits : ℕ)
  | releaseFrame (id : Mask) (frame : Option FrameAddr)

/-- The calls on an initialised queue. -/
def Running : Call → Prop
  | .init _ _ => False
  | .deinit => False
  | _ => True

/-- The consumer a call names. -/
def Call.consumer : Call → Option Mask
  | .registerConsumer id => some id
  | .unregisterConsumer id => some id
  | .getFrame id _ => some id
  | .releaseFrame id _ => some id
  | _ => none

/-- A consumer id with exactly one bit. -/
def SingleBit (id : Mask) : Prop := ∃ i < 32, id = 1#32 <<< i

/-- What a call returns: a status, `true` for `BK_OK`; a buffer or `NULL`; or nothing. -/
inductive Result
  | status (ok : Bool)
  | frame (frame : Option FrameAddr)
  | unit
deriving DecidableEq, Repr

/-- A call on the queue of the given format. -/
def Call.run (format : ImageFormat) (q : FrameQueueV2) : Call → FrameQueueV2 × Result
  | .init semaphore answer =>
    let r := frameQueueV2Init format semaphore answer q
    (r.1, .status r.2)
  | .deinit =>
    let r := frameQueueV2Deinit format q
    (r.1, .status r.2)
  | .clearAll => (frameQueueV2ClearAll q, .status true)
  | .registerConsumer id =>
    let r := frameQueueV2RegisterConsumer format id q
    (r.1, .status r.2)
  | .unregisterConsumer id =>
    let r := frameQueueV2UnregisterConsumer format id q
    (r.1, .status r.2)
  | .malloc size answer =>
    let r := frameQueueV2Malloc format size answer q
    (r.1, .frame r.2)
  | .complete frame =>
    let r := frameQueueV2Complete format frame q
    (r.1, .status r.2)
  | .cancel frame =>
    let r := frameQueueV2Cancel format frame q
    (r.1, .status r.2)
  | .getFrame id waits =>
    let r := frameQueueV2GetFrame format id waits q
    (r.1, .frame r.2)
  | .releaseFrame id frame => (frameQueueV2ReleaseFrame format id frame q, .unit)

/-- What a client observes of a run. -/
structure History where
  /-- `(c, f)`: the consumer `c` got the frame `f` and has not released it. -/
  holds : Finset (Mask × FrameAddr)
  /-- The number of successful `complete` calls. -/
  completed : ℕ
  /-- The number of the latest completion of a buffer address. -/
  stamp : FrameAddr → ℕ
  /-- The active consumers at that completion. -/
  activeAt : FrameAddr → Mask
  /-- The number of completions when the current registration of a consumer began. -/
  since : Mask → ℕ
  /-- The completions `get_frame` has delivered to a consumer since then, in order. -/
  delivered : Mask → List ℕ

/-- Nothing has happened yet. -/
def History.empty : History := ⟨∅, 0, fun _ => 0, fun _ => 0, fun _ => 0, fun _ => []⟩

/-- What the history learns from a call made on `q` and its result.  Registering a consumer that
is not active begins a new registration period. -/
def History.record (h : History) (q : FrameQueueV2) : Call → Result → History
  | .complete (some f), .status true =>
    { h with
      completed := h.completed + 1
      stamp := Function.update h.stamp f h.completed
      activeAt := Function.update h.activeAt f q.activeConsumers }
  | .getFrame id _, .frame (some f) =>
    { h with
      holds := insert (id, f) h.holds
      delivered := Function.update h.delivered id (h.delivered id ++ [h.stamp f]) }
  | .releaseFrame id (some f), _ => { h with holds := h.holds.erase (id, f) }
  | .registerConsumer id, .status true =>
    if q.activeConsumers &&& id = 0 then
      { h with
        since := Function.update h.since id h.completed
        delivered := Function.update h.delivered id [] }
    else h
  | _, _ => h

/-- The queue and what has been observed of it. -/
structure World where
  queue : FrameQueueV2
  history : History

/-- The world after one atomic call. -/
@[simps] def World.call (format : ImageFormat) (w : World) (call : Call) : World :=
  ⟨(call.run format w.queue).1, w.history.record w.queue call (call.run format w.queue).2⟩

/-- The transition system of atomic calls. -/
def World.step (format : ImageFormat) (w : World) (call : Call) (w' : World) : Prop :=
  w' = w.call format call

/-- A run continued by a guarded call. -/
theorem World.reaches_call {format : ImageFormat} {ok : World → Call → Prop} {w₀ w : World}
    (h : Transition.Reaches (Transition.Guarded (World.step format) ok) w₀ w) (call : Call)
    (hok : ok w call) :
    Transition.Reaches (Transition.Guarded (World.step format) ok) w₀ (w.call format call) :=
  h.tail ⟨hok, rfl⟩

/-- The promise of the allocators: `frame_buffer` returns an address that is not live, and
`os_malloc` distinct nodes. -/
def Fresh (format : ImageFormat) (q : FrameQueueV2) : Call → Prop
  | .malloc _ (some f) => ∀ b ∈ q.live, b.addr ≠ f
  | .init _ answer => (createdNodes format answer).Nodup
  | _ => True

/-- The promise of the allocators can be checked. -/
instance (format : ImageFormat) (q : FrameQueueV2) (call : Call) :
    Decidable (Fresh format q call) :=
  match call with
  | .malloc _ (some f) => inferInstanceAs (Decidable (∀ b ∈ q.live, b.addr ≠ f))
  | .malloc _ none => inferInstanceAs (Decidable True)
  | .init _ answer => inferInstanceAs (Decidable (createdNodes format answer).Nodup)
  | .deinit | .clearAll | .registerConsumer _ | .unregisterConsumer _ | .complete _ | .cancel _
  | .getFrame _ _ | .releaseFrame _ _ => inferInstanceAs (Decidable True)

/-- Consumers release only what they hold. -/
def Disciplined (h : History) : Call → Prop
  | .releaseFrame id (some f) => (id, f) ∈ h.holds
  | _ => True

/-- The static queue before the first call; `node` is the memory behind future nodes. -/
def FrameQueueV2.boot (node : NodeId → FrameNode) : FrameQueueV2 :=
  { count := 0, format := .other, freeList := frameListInit, readyList := frameListInit
    activeConsumers := 0, consumers := fun _ => ⟨0, 0, 0, false⟩, frameReady := 0
    totalMalloc := 0, totalComplete := 0, totalFree := 0
    node := node, live := [], frees := [] }

/-- The queue right after a successful `frame_queue_v2_init`. -/
def initialised (format : ImageFormat) (answer : ℕ → Option NodeId) (node : NodeId → FrameNode) :
    FrameQueueV2 :=
  (frameQueueV2Init format true answer (FrameQueueV2.boot node)).1

/-! ## The queue after `init` -/

theorem createNodes_lists (answers : List (Option NodeId)) :
    ∀ q : FrameQueueV2, q.Counted →
      (createNodes answers q).freeList.nodes = q.freeList.nodes ++ answers.filterMap id ∧
        (createNodes answers q).readyList = q.readyList ∧ (createNodes answers q).Counted ∧
        (createNodes answers q).activeConsumers = q.activeConsumers := by
  induction answers with
  | nil => exact fun q hc => ⟨by simp [createNodes], rfl, hc, rfl⟩
  | cons a rest ih =>
    intro q hc
    cases a with
    | none => exact ih q hc
    | some n =>
      have hc' : (createNode q n).Counted := by
        simp [createNode, FrameQueueV2.Counted, hc.1, hc.2]
      obtain ⟨hnodes, hrest⟩ := ih (createNode q n) hc'
      exact ⟨hnodes.trans (by simp [createNode]), hrest⟩

theorem createNodes_count (answers : List (Option NodeId)) :
    ∀ q : FrameQueueV2, (createNodes answers q).count = q.count := by
  induction answers with
  | nil => exact fun _ => rfl
  | cons a rest ih =>
    intro q
    cases a with
    | none => exact ih q
    | some n => exact ih (createNode q n)

/-- `init` puts the created nodes on `free_list`; there are no consumers. -/
theorem init_lists {format : ImageFormat} (answer : ℕ → Option NodeId) {q : FrameQueueV2}
    (hformat : format ≠ .other) (hc : q.count = 0) :
    (frameQueueV2Init format true answer q).1.freeList.nodes = createdNodes format answer ∧
      (frameQueueV2Init format true answer q).1.readyList.nodes = [] ∧
      (frameQueueV2Init format true answer q).1.Counted ∧
      (frameQueueV2Init format true answer q).1.activeConsumers = 0 ∧
      (frameQueueV2Init format true answer q).1.count = maxFrameCount format := by
  have hindex : ¬(getFrameBufferListIndex format < 0 ∨
      fbListMaxCount ≤ getFrameBufferListIndex format) := by
    cases format <;> simp_all [getFrameBufferListIndex, fbListMaxCount]
  obtain ⟨hnodes, hready, hcount, hactive⟩ := createNodes_lists
    ((List.range (maxFrameCount format)).map answer)
    { q.memset with count := maxFrameCount format, format := format } ⟨rfl, rfl⟩
  simp only [frameQueueV2Init, hindex, hc, lt_irrefl, if_false, if_true]
  refine ⟨hnodes.trans ?_, congrArg FrameList.nodes hready, hcount, hactive,
    createNodes_count _ _⟩
  simp [createdNodes, List.filterMap_map, FrameQueueV2.memset, frameListInit]

/-- A queue right after `init` has the created nodes on `free_list` and no consumers. -/
theorem initialised_lists (format : ImageFormat) (answer : ℕ → Option NodeId)
    (node : NodeId → FrameNode) :
    (initialised format answer node).freeList.nodes = createdNodes format answer ∧
      (initialised format answer node).readyList.nodes = [] ∧
      (initialised format answer node).Counted ∧
      (initialised format answer node).activeConsumers = 0 := by
  by_cases hformat : format = .other
  · subst hformat
    exact ⟨rfl, rfl, ⟨rfl, rfl⟩, rfl⟩
  · obtain ⟨hnodes, hready, hcount, hactive, -⟩ :=
      init_lists answer (q := FrameQueueV2.boot node) hformat rfl
    exact ⟨hnodes, hready, hcount, hactive⟩

end FrameQueue

end YangIpc
