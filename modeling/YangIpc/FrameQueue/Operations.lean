import YangIpc.FrameQueue.State

/-!
# The operations of a frame queue

The functions of `frame_que_v2.c` on one queue, cut at their critical sections.  Each piece is
either one `fb_enter_critical`/`fb_exit_critical` section or a stretch of code between two
sections; a call of the source is the composition of its pieces, and the interleaved system
runs the same pieces one at a time.

An external answer is an argument: the address an allocation returned, the addresses `os_malloc`
gave to the nodes, the number of times `get_frame` finds its timeout not yet expired.
-/

namespace YangIpc

namespace FrameQueue

/-- The checks at the head of every function: a known format and an initialised queue. -/
def usable (format : ImageFormat) (q : FrameQueueV2) : Bool :=
  0 ≤ getFrameBufferListIndex format ∧ getFrameBufferListIndex format < fbListMaxCount ∧
    q.count ≠ 0

/-- The loop for `consumer_idx`: the lowest of the eight consumer bits set in `consumer_id`. -/
def consumerIdx (id : Mask) : Option (Fin 8) :=
  (List.finRange 8).find? fun i => id &&& (1#32 <<< i.val) ≠ 0

/-- The loop of `count_active_consumers`; `fuel` bounds the shifts. -/
def countLoop : ℕ → Mask → ℕ → ℕ
  | 0, _, count => count
  | fuel + 1, mask, count =>
    if mask = 0 then count else countLoop fuel (mask >>> 1) (count + (mask &&& 1).toNat)

/-- `count_active_consumers`: a 32-bit mask is zero after 32 shifts. -/
def countActiveConsumers (mask : Mask) : ℕ := countLoop 32 mask 0

/-- The `max` argument of `rtos_init_semaphore` for `frame_ready`. -/
def frameReadyMax : ℕ := 8

/-! ## Moving nodes from `ready_list` back to `free_list` -/

/-- Unlink a node from `ready_list`, reset it and append it to `free_list`, keeping its buffer. -/
@[simps] def recycleNode (q : FrameQueueV2) (n : NodeId) : FrameQueueV2 :=
  { q with
    readyList := frameListRemoveNolock q.readyList n
    freeList := frameListAddTailNolock q.freeList n
    node := Function.update q.node n (q.node n).reset }

/-- The loop over `ready_list` of `clear_all`, `register_consumer` and `unregister_consumer`:
`visit` updates a node and tells whether it is recycled, `stat` is what each recycled node adds
to `total_free`. -/
def sweepReady (visit : FrameNode → FrameNode × Bool) (stat : ℕ) :
    List NodeId → FrameQueueV2 → FrameQueueV2
  | [], q => q
  | n :: rest, q =>
    let r := visit (q.node n)
    let q := q.setNode n r.1
    sweepReady visit stat rest
      (if r.2 then { recycleNode q n with totalFree := q.totalFree + stat } else q)

/-- The loop body of `clear_all` over `ready_list`. -/
def clearAllVisit (x : FrameNode) : FrameNode × Bool := (x, x.refCount = 0)

/-- The loop body of `register_consumer`. -/
def registerVisit (x : FrameNode) : FrameNode × Bool :=
  (x, x.consumerMask = 0 ∧ x.refCount = 0)

/-- The loop body of `unregister_consumer`. -/
def unregisterVisit (id : Mask) (x : FrameNode) : FrameNode × Bool :=
  if x.pendingFor id then
    let x := { x with consumerMask := x.consumerMask &&& ~~~id }
    (x, x.refCount = 0 ∧ (x.consumerMask = 0 ∨ x.allAccessed))
  else (x, false)

/-! ## `frame_queue_v2_init` and `frame_queue_v2_deinit` -/

/-- `frame_node_create(NULL)` and the append to `free_list`, when `os_malloc` gave `n`. -/
def createNode (q : FrameQueueV2) (n : NodeId) : FrameQueueV2 :=
  { q with
    node := Function.update q.node n FrameNode.zero
    freeList := frameListAddTailNolock q.freeList n }

/-- The loop that creates the nodes, over the answers of `os_malloc`. -/
def createNodes : List (Option NodeId) → FrameQueueV2 → FrameQueueV2
  | [], q => q
  | none :: rest, q => createNodes rest q
  | some n :: rest, q => createNodes rest (createNode q n)

/-- A queue after `os_memset`; the memory behind it is untouched. -/
def FrameQueueV2.memset (q : FrameQueueV2) : FrameQueueV2 :=
  { count := 0, format := .other, freeList := frameListInit, readyList := frameListInit
    activeConsumers := 0, consumers := fun _ => ⟨0, 0, 0, false⟩, frameReady := 0
    totalMalloc := 0, totalComplete := 0, totalFree := 0
    node := q.node, live := q.live, frees := q.frees }

/-- The nodes `frame_queue_v2_init` creates when `os_malloc` answers `answer 0`, `answer 1`, … -/
def createdNodes (format : ImageFormat) (answer : ℕ → Option NodeId) : List NodeId :=
  (List.range (maxFrameCount format)).filterMap answer

/-- `frame_queue_v2_init`; `semaphore` tells whether `rtos_init_semaphore` succeeded.  The result
is `true` for `BK_OK`. -/
def frameQueueV2Init (format : ImageFormat) (semaphore : Bool) (answer : ℕ → Option NodeId)
    (q : FrameQueueV2) : FrameQueueV2 × Bool :=
  if getFrameBufferListIndex format < 0 ∨ fbListMaxCount ≤ getFrameBufferListIndex format then
    (q, false)
  else if 0 < q.count then (q, true)
  else
    let q := { q.memset with count := maxFrameCount format, format := format }
    -- when the semaphore fails, the count stays set
    if semaphore then
      (createNodes ((List.range (maxFrameCount format)).map answer) q, true)
    else (q, false)

/-- `frame_list_pop_head`. -/
def frameListPopHead : FrameList → FrameList × Option NodeId
  | ⟨[], count⟩ => (⟨[], count⟩, none)
  | ⟨n :: rest, count⟩ => (⟨rest, count - 1⟩, some n)

/-- The loop of `deinit` that destroys the nodes of `free_list`. -/
def drainFree (format : ImageFormat) : ℕ → FrameQueueV2 → FrameQueueV2
  | 0, q => q
  | fuel + 1, q =>
    match frameListPopHead q.freeList with
    | (_, none) => q
    | (list, some n) => drainFree format fuel (({ q with freeList := list }).freeFrame format n)

/-- The loop of `deinit` that destroys the nodes of `ready_list`. -/
def drainReady (format : ImageFormat) : ℕ → FrameQueueV2 → FrameQueueV2
  | 0, q => q
  | fuel + 1, q =>
    match frameListPopHead q.readyList with
    | (_, none) => q
    | (list, some n) => drainReady format fuel (({ q with readyList := list }).freeFrame format n)

/-- `frame_queue_v2_deinit`. -/
def frameQueueV2Deinit (format : ImageFormat) (q : FrameQueueV2) : FrameQueueV2 × Bool :=
  if getFrameBufferListIndex format < 0 ∨ fbListMaxCount ≤ getFrameBufferListIndex format then
    (q, false)
  else if q.count = 0 then (q, true)
  else
    let q := drainFree format q.freeList.nodes.length q
    let q := drainReady format q.readyList.nodes.length q
    (q.memset, true)

/-! ## `frame_queue_v2_clear_all` -/

/-- The first section: the unheld nodes of `ready_list` go to `free_list`. -/
def clearReady (q : FrameQueueV2) : FrameQueueV2 :=
  sweepReady clearAllVisit 0 q.readyList.nodes q

/-- The loop of the second section: `in_use` is reset and the buffers are freed. -/
def cleanFree : List NodeId → FrameQueueV2 → FrameQueueV2
  | [], q => q
  | n :: rest, q =>
    let q := q.setNode n { q.node n with inUse := false }
    cleanFree rest ((q.freeFrame q.format n).clearFrame n)

/-- The second section. -/
def clearFree (q : FrameQueueV2) : FrameQueueV2 := cleanFree q.freeList.nodes q

/-- `frame_queue_v2_clear_all`, on one queue. -/
def frameQueueV2ClearAll (q : FrameQueueV2) : FrameQueueV2 :=
  if q.count = 0 then q else clearFree (clearReady q)

/-! ## `frame_queue_v2_register_consumer` and `frame_queue_v2_unregister_consumer` -/

/-- The critical section of `register_consumer`. -/
def registerSection (id : Mask) (idx : Fin 8) (q : FrameQueueV2) : FrameQueueV2 :=
  let q := { q with
    consumers := Function.update q.consumers idx ⟨id, 0, 0, true⟩
    activeConsumers := q.activeConsumers ||| id }
  sweepReady registerVisit 0 q.readyList.nodes q

/-- `frame_queue_v2_register_consumer`. -/
def frameQueueV2RegisterConsumer (format : ImageFormat) (id : Mask) (q : FrameQueueV2) :
    FrameQueueV2 × Bool :=
  if usable format q then
    match consumerIdx id with
    | none => (q, false)
    | some idx => (registerSection id idx q, true)
  else (q, false)

/-- The critical section of `unregister_consumer`. -/
def unregisterSection (id : Mask) (idx : Fin 8) (q : FrameQueueV2) : FrameQueueV2 :=
  let q := { q with
    activeConsumers := q.activeConsumers &&& ~~~id
    consumers := Function.update q.consumers idx { q.consumers idx with enabled := false } }
  sweepReady (unregisterVisit id) 1 q.readyList.nodes q

/-- `frame_queue_v2_unregister_consumer`. -/
def frameQueueV2UnregisterConsumer (format : ImageFormat) (id : Mask) (q : FrameQueueV2) :
    FrameQueueV2 × Bool :=
  if usable format q then
    match consumerIdx id with
    | none => (q, false)
    | some idx => (unregisterSection id idx q, true)
  else (q, false)

/-! ## `frame_queue_v2_malloc` -/

/-- `node->in_use = 1` or `node->in_use = 0`. -/
def setInUse (q : FrameQueueV2) (n : NodeId) (inUse : Bool) : FrameQueueV2 :=
  q.setNode n { q.node n with inUse := inUse }

/-- A node of `ready_list` is reserved and put at the head of `free_list`. -/
@[simps] def reuseNode (q : FrameQueueV2) (n : NodeId) : FrameQueueV2 :=
  { q with
    readyList := frameListRemoveNolock q.readyList n
    freeList := frameListAddHeadNolock q.freeList n
    node := Function.update q.node n { q.node n with inUse := true } }

/-- The first section: reserve a node of `free_list`, or the oldest unheld node of `ready_list`
(not for H264). -/
def mallocSearch (format : ImageFormat) (q : FrameQueueV2) : FrameQueueV2 × Option NodeId :=
  match q.freeList.nodes.find? fun n => !(q.node n).inUse with
  | some n => (setInUse q n true, some n)
  | none =>
    -- slow consumers lose this frame
    if format = .mjpeg ∨ format = .yuv then
      match q.readyList.nodes.find? fun n => (q.node n).refCount = 0 with
      | some n => (reuseNode q n, some n)
      | none => (q, none)
    else (q, none)

/-- What follows the allocator's answer: attach the buffer, or give the node back. -/
def mallocAttach (q : FrameQueueV2) (n : NodeId) :
    Option FrameAddr → FrameQueueV2 × Option FrameAddr
  | some frame => (q.setNode n { q.node n with frame := some frame }, some frame)
  | none => (setInUse q n false, none)

/-- The call of the allocator, whose answer is `answer`. -/
def mallocAlloc (format : ImageFormat) (size : ℕ) (answer : Option FrameAddr)
    (q : FrameQueueV2) : FrameQueueV2 × Option FrameAddr :=
  match bufferKind format, answer with
  | some kind, some frame => (q.frameBufferMalloc kind size frame, some frame)
  -- an unknown format, or no memory
  | _, _ => (q, none)

/-- The resets of the node before the second section. -/
def mallocReset (q : FrameQueueV2) (n : NodeId) : FrameQueueV2 :=
  q.setNode n { q.node n with refCount := 0, accessedMask := 0 }

/-- The second section. -/
def mallocMask (q : FrameQueueV2) (n : NodeId) : FrameQueueV2 :=
  q.setNode n { q.node n with consumerMask := q.activeConsumers }

/-- The last statement before the return. -/
@[simps] def mallocDone (q : FrameQueueV2) : FrameQueueV2 :=
  { q with totalMalloc := q.totalMalloc + 1 }

/-- The code between the two sections up to the buffer of the reserved node. -/
def mallocFrame (format : ImageFormat) (size : ℕ) (answer : Option FrameAddr) (q : FrameQueueV2)
    (n : NodeId) : FrameQueueV2 × Option FrameAddr :=
  match (q.node n).frame with
  | some frame => (q, some frame)
  | none =>
    let r := mallocAlloc format size answer q
    mallocAttach r.1 n r.2

/-- The code after the first section, when a node has been reserved. -/
def mallocNode (format : ImageFormat) (size : ℕ) (answer : Option FrameAddr) (q : FrameQueueV2)
    (n : NodeId) : FrameQueueV2 × Option FrameAddr :=
  match mallocFrame format size answer q n with
  | (q, none) => (q, none)
  | (q, some frame) => (mallocDone (mallocMask (mallocReset q n) n), some frame)

/-- `frame_queue_v2_malloc`. -/
def frameQueueV2Malloc (format : ImageFormat) (size : ℕ) (answer : Option FrameAddr)
    (q : FrameQueueV2) : FrameQueueV2 × Option FrameAddr :=
  if usable format q then
    match mallocSearch format q with
    | (q, none) => (q, none)
    | (q, some n) => mallocNode format size answer q n
  else (q, none)

/-! ## `frame_queue_v2_complete` and `frame_queue_v2_cancel` -/

/-- The search both functions make: a reserved node of `free_list` with this buffer. -/
def findReserved (frame : FrameAddr) (q : FrameQueueV2) : Option NodeId :=
  q.freeList.nodes.find? fun n => (q.node n).inUse && (q.node n).frame = some frame

/-- A reserved node goes to the tail of `ready_list`, for the active consumers. -/
@[simps] def publishNode (q : FrameQueueV2) (n : NodeId) : FrameQueueV2 :=
  { q with
    freeList := frameListRemoveNolock q.freeList n
    readyList := frameListAddTailNolock q.readyList n
    node := Function.update q.node n
      { q.node n with inUse := false, accessedMask := 0, consumerMask := q.activeConsumers } }

/-- The critical section of `complete`.  On success it gives `consumer_count`. -/
def completeFind (frame : FrameAddr) (q : FrameQueueV2) : FrameQueueV2 × Option ℕ :=
  match findReserved frame q with
  | none => (q, none)
  | some n => (publishNode q n, some (countActiveConsumers q.activeConsumers))

/-- `signal_count`. -/
def signalCount (consumerCount : ℕ) : ℕ := if 0 < consumerCount then consumerCount else 1

/-- One `rtos_set_semaphore` on `frame_ready`. -/
@[simps] def completePost (q : FrameQueueV2) : FrameQueueV2 :=
  { q with frameReady := min frameReadyMax (q.frameReady + 1) }

/-- The last statement of `complete`. -/
@[simps] def completeDone (q : FrameQueueV2) : FrameQueueV2 :=
  { q with totalComplete := q.totalComplete + 1 }

/-- `frame_queue_v2_complete`. -/
def frameQueueV2Complete (format : ImageFormat) (frame : Option FrameAddr) (q : FrameQueueV2) :
    FrameQueueV2 × Bool :=
  if usable format q then
    match frame with
    | none => (q, false)
    | some frame =>
      match completeFind frame q with
      | (q, none) => (q, false)
      | (q, some count) => (completeDone (completePost^[signalCount count] q), true)
  else (q, false)

/-- The critical section of `cancel`. -/
def cancelFind (frame : FrameAddr) (q : FrameQueueV2) : FrameQueueV2 × Option NodeId :=
  match findReserved frame q with
  | none => (q, none)
  | some n => (setInUse q n false, some n)

/-- `frame_queue_v2_cancel`. -/
def frameQueueV2Cancel (format : ImageFormat) (frame : Option FrameAddr) (q : FrameQueueV2) :
    FrameQueueV2 × Bool :=
  if usable format q then
    match frame with
    | none => (q, false)
    | some frame =>
      match cancelFind frame q with
      | (q, none) => (q, false)
      | (q, some n) => ((q.freeFrame format n).clearFrame n, true)
  else (q, false)

/-! ## `frame_queue_v2_get_frame` and `frame_queue_v2_release_frame` -/

/-- The section that reads `enabled`: the index of an enabled consumer. -/
def getEnabled (id : Mask) (q : FrameQueueV2) : Option (Fin 8) :=
  (consumerIdx id).filter fun idx => (q.consumers idx).enabled

/-- A consumer takes a node of `ready_list`. -/
@[simps] def holdNode (id : Mask) (idx : Fin 8) (q : FrameQueueV2) (n : NodeId) : FrameQueueV2 :=
  { q with
    node := Function.update q.node n
      { q.node n with
        refCount := (q.node n).refCount + 1
        accessedMask := (q.node n).accessedMask ||| id }
    consumers := Function.update q.consumers idx
      { q.consumers idx with getCount := (q.consumers idx).getCount + 1 } }

/-- The search section: the first node of `ready_list` pending for `id` is taken, and its buffer
returned. -/
def getSearch (id : Mask) (idx : Fin 8) (q : FrameQueueV2) :
    FrameQueueV2 × Option (Option FrameAddr) :=
  match q.readyList.nodes.find? fun n => (q.node n).pendingFor id with
  | none => (q, none)
  | some n => (holdNode id idx q n, some (q.node n).frame)

/-- A successful `rtos_get_semaphore`. -/
@[simps] def getToken (q : FrameQueueV2) : FrameQueueV2 :=
  { q with frameReady := q.frameReady - 1 }

/-- The retry loop of `get_frame`; `waits` is how often the timeout is found not yet expired.
A wait on a semaphore without tokens ends in the timeout. -/
def getLoop (id : Mask) (idx : Fin 8) : ℕ → FrameQueueV2 → FrameQueueV2 × Option FrameAddr
  | waits, q =>
    match getSearch id idx q, waits with
    | (q, some frame), _ => (q, frame)
    | (q, none), 0 => (q, none)
    | (q, none), waits + 1 =>
      if q.frameReady = 0 then (q, none) else getLoop id idx waits (getToken q)

/-- `frame_queue_v2_get_frame`, with no other call in between. -/
def frameQueueV2GetFrame (format : ImageFormat) (id : Mask) (waits : ℕ) (q : FrameQueueV2) :
    FrameQueueV2 × Option FrameAddr :=
  if usable format q then
    match getEnabled id q with
    | none => (q, none)
    | some idx => getLoop id idx waits q
  else (q, none)

/-- One reference less to a node of `ready_list`. -/
@[simps] def dropNode (idx : Fin 8) (q : FrameQueueV2) (n : NodeId) : FrameQueueV2 :=
  { q with
    node := Function.update q.node n
      { q.node n with
        refCount := if 0 < (q.node n).refCount then (q.node n).refCount - 1
          else (q.node n).refCount }
    consumers := Function.update q.consumers idx
      { q.consumers idx with releaseCount := (q.consumers idx).releaseCount + 1 } }

/-- A node is unlinked from `ready_list`. -/
@[simps] def unlinkReady (q : FrameQueueV2) (n : NodeId) : FrameQueueV2 :=
  { q with readyList := frameListRemoveNolock q.readyList n }

/-- The first section of `release`: the node to recycle, if this was its last release. -/
def releaseFind (idx : Fin 8) (frame : FrameAddr) (q : FrameQueueV2) :
    FrameQueueV2 × Option NodeId :=
  match q.readyList.nodes.find? fun n => (q.node n).frame = some frame with
  | none => (q, none)
  | some n =>
    let q := dropNode idx q n
    if (q.node n).refCount = 0 ∧ (q.node n).allAccessed then (unlinkReady q n, some n)
    else (q, none)

/-- The resets between the two sections, after the free. -/
def releaseReset (q : FrameQueueV2) (n : NodeId) : FrameQueueV2 := q.setNode n (q.node n).reset

/-- The second section: `frame_list_add_tail`. -/
@[simps] def releaseAppend (q : FrameQueueV2) (n : NodeId) : FrameQueueV2 :=
  { q with freeList := frameListAddTailNolock q.freeList n }

/-- The last statement of `release`. -/
@[simps] def releaseDone (q : FrameQueueV2) : FrameQueueV2 :=
  { q with totalFree := q.totalFree + 1 }

/-- `frame_queue_v2_release_frame`. -/
def frameQueueV2ReleaseFrame (format : ImageFormat) (id : Mask) (frame : Option FrameAddr)
    (q : FrameQueueV2) : FrameQueueV2 :=
  if usable format q then
    match frame, consumerIdx id with
    | some frame, some idx =>
      match releaseFind idx frame q with
      | (q, none) => q
      | (q, some n) =>
        releaseDone (releaseAppend (releaseReset ((q.freeFrame format n).clearFrame n) n) n)
    | _, _ => q
  else q

end FrameQueue

end YangIpc
