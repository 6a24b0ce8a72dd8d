import YangIpc.FrameQueue.Holds

/-!
# Releases by consumers that do not hold the frame

`release_frame` does not know who holds a frame: it takes one reference away from the completed
frame it is given, whoever calls it.  A consumer that releases a frame twice takes the hold of
another consumer away, and may recycle the buffer under it.

## Main definitions

* `Unchanged`: lists, nodes and buffers are the same
* `Unreleasable`: the release finds nothing to take away

## Main results

* `stray_release_may_recycle`: a second release that recycles a frame still held
* `stray_release_harmless_iff`: when a release by a consumer that does not hold the frame changes
  nothing
* `stray_release_takes_a_hold`: it is never harmless while another consumer holds the frame
-/

namespace YangIpc

namespace FrameQueue

open Transition Bits Broadcast

variable {format : ImageFormat} {q q' : FrameQueueV2} {w : World} {n : NodeId} {f : FrameAddr}
  {id : Mask} {idx : Fin 8}

/-- Both lists, all nodes and all buffers are the same. -/
structure Unchanged (q q' : FrameQueueV2) : Prop where
  freeList : q'.freeList = q.freeList
  readyList : q'.readyList = q.readyList
  node : q'.node = q.node
  live : q'.live = q.live

theorem Unchanged.refl (q : FrameQueueV2) : Unchanged q q := ⟨rfl, rfl, rfl, rfl⟩

/-- If the frame is completed, it has no reference, and some consumer it is meant for has not
accessed it. -/
def Unreleasable (q : FrameQueueV2) (f : FrameAddr) : Prop :=
  ∀ n ∈ q.readyList.nodes, (q.node n).frame = some f →
    (q.node n).refCount = 0 ∧ (q.node n).allAccessed = false

/-- A node loses a reference only if it has one. -/
theorem dropNode_unchanged_iff : Unchanged q (dropNode idx q n) ↔ (q.node n).refCount = 0 := by
  constructor
  · intro h
    have hn := congrFun h.node n
    simp only [dropNode_node, Function.update_self] at hn
    have href := congrArg FrameNode.refCount hn
    simp only at href
    split at href <;> omega
  · intro h
    refine ⟨rfl, rfl, ?_, rfl⟩
    show Function.update q.node n _ = q.node
    apply Function.update_eq_self_iff.mpr
    rw [if_neg (by omega)]

/-- A last release moves the node to `free_list`. -/
theorem release_last_readyList (format : ImageFormat) (hn : n ∈ q.readyList.nodes) :
    (releaseDone (releaseAppend (releaseReset
      (((unlinkReady (dropNode idx q n) n).freeFrame format n).clearFrame n) n) n)).readyList ≠
      q.readyList := by
  intro h
  have hlength := congrArg (fun l => l.nodes.length) h
  rw [(release_tail format _ n).1] at hlength
  simp only [unlinkReady_readyList, frameListRemoveNolock_nodes, dropNode_readyList,
    List.length_erase_of_mem hn] at hlength
  have hpos := List.length_pos_of_mem hn
  omega

/-- **What a release changes**, whoever calls it. -/
theorem release_unchanged_iff (hw : WellFormed format q) :
    Unchanged q (frameQueueV2ReleaseFrame format id (some f) q) ↔
      (usable format q = true → consumerIdx id ≠ none → Unreleasable q f) := by
  unfold frameQueueV2ReleaseFrame
  by_cases hu : usable format q = true
  swap
  · rw [if_neg hu]
    exact iff_of_true (.refl q) fun h => absurd h hu
  rw [if_pos hu]
  cases hidx : consumerIdx id with
  | none => exact iff_of_true (.refl q) fun _ h => absurd rfl h
  | some idx =>
    simp only [hu, forall_const, ne_eq, reduceCtorEq, not_false_eq_true]
    rcases releaseFind_cases idx f q with
      ⟨l₁, n, l₂, hl, -, hf, ⟨-, hall, he⟩ | ⟨hnot, he⟩⟩ | ⟨hnone, he⟩
    · -- the last release: the node leaves `ready_list`
      have hn : n ∈ q.readyList.nodes := by simp [hl]
      simp only [he]
      refine iff_of_false (fun h => release_last_readyList format hn h.readyList) fun h => ?_
      exact absurd (hall.symm.trans (h n hn hf).2) (by decide)
    · -- another release: the node loses the reference it may have
      have hn : n ∈ q.readyList.nodes := by simp [hl]
      simp only [he, dropNode_unchanged_iff]
      constructor
      · intro href m hm hmf
        obtain rfl : m = n := hw.frame_inj m (mem_listed_of_ready hm) n (mem_listed_of_ready hn) f
          hmf hf
        exact ⟨href, eq_false_of_ne_true fun hall => hnot ⟨by omega, hall⟩⟩
      · exact fun h => (h n hn hf).1
    · -- no completed node has this frame
      simp only [he]
      exact iff_of_true (.refl q) fun m hm hmf => absurd hmf (hnone m hm)

/-! ## Runs -/

/-- Two consumers have been given the only frame, and one of them has released it. -/
def releasedOnce : World :=
  ((((((h264World.call .h264 (.registerConsumer 1)).call .h264 (.registerConsumer 2)).call .h264
    (.malloc 64 (some 1000))).call .h264 (.complete (some 1000))).call .h264
      (.getFrame 1 0)).call .h264 (.getFrame 2 0)).call .h264 (.releaseFrame 1 (some 1000))

theorem releasedOnce_reached :
    Reaches (Guarded (World.step .h264) (anyCall .h264))
      ⟨FrameQueueV2.boot fun _ => FrameNode.zero, History.empty⟩ releasedOnce := by
  have hinit : Reaches (Guarded (World.step .h264) (anyCall .h264))
      ⟨FrameQueueV2.boot fun _ => FrameNode.zero, History.empty⟩ h264World := by
    apply World.reaches_call (.refl _) (.init true fun i => some (i + 1))
    show (createdNodes .h264 fun i => some (i + 1)).Nodup
    decide
  -- only `malloc` promises anything
  have hmalloc : Reaches (Guarded (World.step .h264) (anyCall .h264)) _ _ :=
    World.reaches_call (World.reaches_call (World.reaches_call hinit (.registerConsumer 1) trivial)
      (.registerConsumer 2) trivial) (.malloc 64 (some 1000)) (by
        show ∀ b ∈ ((h264World.call .h264 (.registerConsumer 1)).call .h264
          (.registerConsumer 2)).queue.live, b.addr ≠ 1000
        decide)
  exact World.reaches_call (World.reaches_call (World.reaches_call (World.reaches_call hmalloc
    (.complete (some 1000)) trivial) (.getFrame 1 0) trivial) (.getFrame 2 0) trivial)
      (.releaseFrame 1 (some 1000)) trivial

/-- **A stray release may recycle a frame that is still held.** The second release of one consumer
takes the hold of the other one away: the frame leaves `ready_list`, and its buffer is freed. -/
theorem stray_release_may_recycle :
    ¬∀ (format : ImageFormat) (node : NodeId → FrameNode) (w : World),
      Reaches (Guarded (World.step format) (anyCall format))
        ⟨FrameQueueV2.boot node, History.empty⟩ w →
      ∀ id f, (id, f) ∉ w.history.holds →
        Unchanged w.queue (frameQueueV2ReleaseFrame format id (some f) w.queue) := by
  intro h
  have hunchanged := h .h264 _ releasedOnce releasedOnce_reached 1 1000 (by decide)
  exact absurd hunchanged.readyList (by decide)

/-- **When a stray release is harmless.** In every state reached with any calls, a release by a
consumer that does not hold the frame leaves lists, nodes and buffers as they are if and only if
the frame is not completed, or nobody has a reference to it and some consumer still has to access
it. -/
theorem stray_release_harmless_iff (node : NodeId → FrameNode)
    (h : Reaches (Guarded (World.step format) (anyCall format))
      ⟨FrameQueueV2.boot node, History.empty⟩ w) :
    ∀ id f, (id, f) ∉ w.history.holds →
      (Unchanged w.queue (frameQueueV2ReleaseFrame format id (some f) w.queue) ↔
        (usable format w.queue = true → consumerIdx id ≠ none → Unreleasable w.queue f)) :=
  fun _ _ _ => release_unchanged_iff (wellFormed_of_reaches (fun _ _ hcall => hcall) h (.boot node))

/-- A release of a frame that was never completed. -/
theorem stray_release_harmless_iff_unknown :
    (1, 2000) ∉ releasedOnce.history.holds ∧
      Unchanged releasedOnce.queue
        (frameQueueV2ReleaseFrame .h264 1 (some 2000) releasedOnce.queue) := by
  have hhold : (1, 2000) ∉ releasedOnce.history.holds := by decide
  refine ⟨hhold, (stray_release_harmless_iff _ releasedOnce_reached 1 2000 hhold).mpr ?_⟩
  intro _ _ n hn hf
  have hnone : ∀ n ∈ releasedOnce.queue.readyList.nodes,
      (releasedOnce.queue.node n).frame ≠ some 2000 := by decide
  exact absurd hf (hnone n hn)

/-- **A stray release takes a hold.** As long as consumers release only what they hold, a frame
that another consumer holds has a reference, so that a stray release of it is not harmless. -/
theorem stray_release_takes_a_hold {answer : ℕ → Option NodeId} {node : NodeId → FrameNode}
    (hnodes : (createdNodes format answer).Nodup)
    (h : Reaches (Guarded (World.step format) (disciplinedCall format))
      ⟨initialised format answer node, History.empty⟩ w)
    {c : Mask} (hc : (c, f) ∈ w.history.holds) (hid : consumerIdx id ≠ none) :
    ¬Unchanged w.queue (frameQueueV2ReleaseFrame format id (some f) w.queue) := by
  obtain ⟨hw, hacc⟩ := accounted_of_reaches hnodes h
  obtain ⟨-, e, he, rfl, -⟩ := hacc.held c f hc
  have hrefs := hacc.refs_ne_zero he hc
  obtain ⟨n, hn, rfl⟩ := mem_entries.mp he
  have hf : (w.queue.node n).frame = some (entryOf n (w.queue.node n)).item := by
    obtain ⟨g, hg⟩ := Option.ne_none_iff_exists'.mp (hw.ready_frame n hn)
    simp [entryOf, hg]
  have husable : usable format w.queue = true := by
    by_contra hu
    rw [ready_eq_nil hw hu] at hn
    exact absurd hn List.not_mem_nil
  rw [release_unchanged_iff hw]
  exact fun hun => hrefs (hun husable hid n hn hf).1

end FrameQueue

end YangIpc
