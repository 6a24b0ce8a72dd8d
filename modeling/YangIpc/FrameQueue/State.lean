import Mathlib.Data.List.Nodup
import Mathlib.Data.List.FinRange
import Mathlib.Logic.Function.Basic
import Mathlib.Tactic.Simps.Basic

/-!
# The state of one frame queue

One entry of the `frame_queue_v2` array of `frame_que_v2.c`, together with the memory its
pointers lead to: the frame nodes and the buffers obtained from the external `frame_buffer`
allocator.

Pointers are numbers and `NULL` is `none`.  A doubly-linked list is the sequence of its nodes
from `head` to `tail`, with the `count` field kept apart.  The statistics and reference counts
are natural numbers; the consumer masks keep the 32 bits of the source.

The allocator is the environment: an allocation is given the address it returned.  `live` holds
the buffers obtained and not yet freed, and `frees` logs every free with the answer to the
question whether its argument was live, so that a double free is visible.
-/

namespace YangIpc

namespace FrameQueue

/-- The address of a `frame_node_t`. -/
abbrev NodeId := ℕ

/-- The address of a `frame_buffer_t`. -/
abbrev FrameAddr := ℕ

/-- A set of consumers: bit `i` stands for `CONSUMER_XXX = 1 << i`. -/
abbrev Mask := BitVec 32

/-- `image_format_t`; `other` stands for the values no frame queue is kept for. -/
inductive ImageFormat
  | mjpeg
  | h264
  | yuv
  | other
deriving DecidableEq, Repr

/-- `get_frame_buffer_list_index`. -/
def getFrameBufferListIndex : ImageFormat → ℤ
  | .mjpeg => 0
  | .h264 => 1
  | .yuv => 2
  | .other => -1

/-- `FB_LIST_MAX_COUNT`. -/
def fbListMaxCount : ℤ := 3

/-- The frame counts `MJPEG_MAX_FRAME_COUNT`, `H264_MAX_FRAME_COUNT`, `YUV_MAX_FRAME_COUNT`. -/
def maxFrameCount : ImageFormat → ℕ
  | .mjpeg => 4
  | .h264 => 6
  | .yuv => 3
  | .other => 0

/-- The two allocators a buffer comes from. -/
inductive BufferKind
  | encode
  | display
deriving DecidableEq, Repr

/-- The `switch (format)` before every allocation and every free. -/
def bufferKind : ImageFormat → Option BufferKind
  | .mjpeg => some .encode
  | .h264 => some .encode
  | .yuv => some .display
  | .other => none

/-- A buffer obtained from the allocator, with the size asked for. -/
structure Buffer where
  kind : BufferKind
  addr : FrameAddr
  size : ℕ
deriving DecidableEq, Repr

/-- One call of a free function, and whether its argument was live. -/
structure FreeEvent where
  kind : BufferKind
  addr : FrameAddr
  wasLive : Bool
deriving DecidableEq, Repr

/-- `frame_node_t` without its links and times. -/
structure FrameNode where
  frame : Option FrameAddr
  refCount : ℕ
  consumerMask : Mask
  accessedMask : Mask
  inUse : Bool
deriving DecidableEq, Repr

/-- `frame_list_t`: the nodes from `head` to `tail`, and the `count` field. -/
structure FrameList where
  nodes : List NodeId
  count : ℕ
deriving DecidableEq, Repr

/-- `consumer_info_t`. -/
structure ConsumerInfo where
  consumerId : Mask
  getCount : ℕ
  releaseCount : ℕ
  enabled : Bool
deriving DecidableEq, Repr

/-- `frame_queue_v2_t`, the nodes its lists lead to, and the allocator as this queue sees it. -/
structure FrameQueueV2 where
  count : ℕ
  format : ImageFormat
  freeList : FrameList
  readyList : FrameList
  activeConsumers : Mask
  consumers : Fin 8 → ConsumerInfo
  frameReady : ℕ
  totalMalloc : ℕ
  totalComplete : ℕ
  totalFree : ℕ
  node : NodeId → FrameNode
  live : List Buffer
  frees : List FreeEvent

/-! ## Nodes -/

/-- A node after `os_memset`. -/
def FrameNode.zero : FrameNode := ⟨none, 0, 0, 0, false⟩

/-- The resets made when a node returns to `free_list`; the buffer stays attached. -/
def FrameNode.reset (x : FrameNode) : FrameNode := ⟨x.frame, 0, 0, 0, false⟩

/-- The test of `get_frame`: `id` needs this frame and has not accessed it. -/
def FrameNode.pendingFor (x : FrameNode) (id : Mask) : Bool :=
  x.consumerMask &&& id ≠ 0 && x.accessedMask &&& id = 0

/-- The flag `all_accessed`. -/
def FrameNode.allAccessed (x : FrameNode) : Bool :=
  x.accessedMask &&& x.consumerMask = x.consumerMask

/-- The consumers a node still waits for. -/
def FrameNode.pending (x : FrameNode) : Mask := x.consumerMask &&& ~~~x.accessedMask

@[simp] theorem FrameNode.reset_frame (x : FrameNode) : x.reset.frame = x.frame := rfl

@[simp] theorem FrameNode.reset_refCount (x : FrameNode) : x.reset.refCount = 0 := rfl

@[simp] theorem FrameNode.reset_inUse (x : FrameNode) : x.reset.inUse = false := rfl

/-! ## Lists -/

/-- `frame_list_init` and `frame_list_deinit`. -/
def frameListInit : FrameList := ⟨[], 0⟩

/-- `frame_list_add_tail_nolock`. -/
@[simps] def frameListAddTailNolock (list : FrameList) (node : NodeId) : FrameList :=
  ⟨list.nodes ++ [node], list.count + 1⟩

/-- `frame_list_add_head_nolock`. -/
@[simps] def frameListAddHeadNolock (list : FrameList) (node : NodeId) : FrameList :=
  ⟨node :: list.nodes, list.count + 1⟩

/-- `frame_list_remove_nolock`. -/
@[simps] def frameListRemoveNolock (list : FrameList) (node : NodeId) : FrameList :=
  ⟨list.nodes.erase node, list.count - 1⟩

/-! ## Memory -/

namespace FrameQueueV2

/-- Store a whole node. -/
@[simps] def setNode (q : FrameQueueV2) (n : NodeId) (x : FrameNode) : FrameQueueV2 :=
  { q with node := Function.update q.node n x }

/-- `frame_buffer_encode_free` or `frame_buffer_display_free`. -/
@[simps] def frameBufferFree (q : FrameQueueV2) (kind : BufferKind) (addr : FrameAddr) :
    FrameQueueV2 :=
  { q with
    live := q.live.filter fun b => ¬(b.kind = kind ∧ b.addr = addr)
    frees := ⟨kind, addr, q.live.any fun b => b.kind = kind ∧ b.addr = addr⟩ :: q.frees }

/-- A successful `frame_buffer_encode_malloc` or `frame_buffer_display_malloc`. -/
@[simps] def frameBufferMalloc (q : FrameQueueV2) (kind : BufferKind) (size : ℕ)
    (addr : FrameAddr) : FrameQueueV2 :=
  { q with live := ⟨kind, addr, size⟩ :: q.live }

/-- The `switch (format)` around the free of `node->frame`. -/
def freeFrame (format : ImageFormat) (q : FrameQueueV2) (n : NodeId) : FrameQueueV2 :=
  match (q.node n).frame, bufferKind format with
  | some frame, some kind => q.frameBufferFree kind frame
  | _, _ => q

section FreeFrame

variable (format : ImageFormat) (q : FrameQueueV2) (n : NodeId)

@[simp] theorem freeFrame_node : (q.freeFrame format n).node = q.node := by
  unfold freeFrame
  split <;> rfl

@[simp] theorem freeFrame_freeList : (q.freeFrame format n).freeList = q.freeList := by
  unfold freeFrame
  split <;> rfl

@[simp] theorem freeFrame_readyList : (q.freeFrame format n).readyList = q.readyList := by
  unfold freeFrame
  split <;> rfl

@[simp] theorem freeFrame_activeConsumers :
    (q.freeFrame format n).activeConsumers = q.activeConsumers := by
  unfold freeFrame
  split <;> rfl

@[simp] theorem freeFrame_count : (q.freeFrame format n).count = q.count := by
  unfold freeFrame
  split <;> rfl

@[simp] theorem freeFrame_format : (q.freeFrame format n).format = q.format := by
  unfold freeFrame
  split <;> rfl

end FreeFrame

/-- `node->frame = NULL`. -/
def clearFrame (q : FrameQueueV2) (n : NodeId) : FrameQueueV2 :=
  q.setNode n { q.node n with frame := none }

/-- Every node linked into one of the two lists. -/
def listed (q : FrameQueueV2) : List NodeId := q.freeList.nodes ++ q.readyList.nodes

/-- The counts of both lists are their lengths. -/
def Counted (q : FrameQueueV2) : Prop :=
  q.freeList.count = q.freeList.nodes.length ∧ q.readyList.count = q.readyList.nodes.length

end FrameQueueV2

end FrameQueue

end YangIpc
