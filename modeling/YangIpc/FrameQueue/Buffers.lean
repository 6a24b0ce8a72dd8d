import YangIpc.FrameQueue.Sections
import YangIpc.FrameQueue.Calls

/-!
# Buffers are neither lost nor freed twice

Every call keeps a queue well formed, whatever its arguments: stale, foreign or `NULL` frames,
unknown consumers, repeated initialisation.  So in every run each buffer obtained from the
allocator and not yet freed belongs to exactly one linked node, every free is a free of a live
buffer, and `deinit` leaves no buffer behind.

## Main results

* `WellFormed.run`: every call keeps the invariant
* `buffers_neither_leak_nor_double_free`: the property over runs
-/

namespace YangIpc

namespace FrameQueue

open Transition

variable {format : ImageFormat} {q : FrameQueueV2} {n : NodeId}

namespace WellFormed

/-! ## The pieces of `malloc` -/

theorem setInUse (h : WellFormed format q) (hn : n ∈ q.freeList.nodes) (inUse : Bool) :
    WellFormed format (setInUse q n inUse) :=
  h.setNode rfl (fun hr => absurd hr (h.notMem_ready hn)) (fun _ => h.free_ref n hn)

theorem reuseNode (h : WellFormed format q) (hn : n ∈ q.readyList.nodes)
    (href : (q.node n).refCount = 0) : WellFormed format (reuseNode q n) := by
  refine h.move (Lists.perm_move_head hn) rfl rfl rfl rfl (frame_update rfl) ?_ ?_ ?_ ?_ ?_
  · simp [h.freeCount]
  · simp [h.readyCount, List.length_erase_of_mem hn]
  · exact fun m hm => h.ready_frame m (List.mem_of_mem_erase hm)
  · exact fun m hm => h.ready_idle_erase hm
  · intro m hm
    rcases List.mem_cons.mp hm with rfl | hm
    · simpa using href
    · have hmn := h.ne_of_free_ready hm hn
      simpa [hmn] using h.free_ref m hm

/-- The search of `malloc` gives a node of `free_list` or nothing. -/
theorem mallocSearch (h : WellFormed format q) :
    WellFormed format (mallocSearch format q).1 ∧
      (mallocSearch format q).1.live = q.live ∧
      ∀ n, (mallocSearch format q).2 = some n → n ∈ (mallocSearch format q).1.freeList.nodes := by
  rcases mallocSearch_cases format q with ⟨n, hn, -, he⟩ | ⟨-, -, l₁, n, l₂, hl, -, href, he⟩ |
    ⟨-, -, he⟩ <;> rw [he]
  · exact ⟨h.setInUse hn true, rfl, by rintro _ ⟨⟩; exact hn⟩
  · exact ⟨h.reuseNode (by simp [hl]) href, rfl, by rintro _ ⟨⟩; exact List.mem_cons_self⟩
  · exact ⟨h, rfl, by simp⟩

theorem mallocTail (h : WellFormed format q) (hn : n ∈ q.freeList.nodes) :
    WellFormed format (mallocDone (mallocMask (mallocReset q n) n)) := by
  have h₁ : WellFormed format (mallocReset q n) :=
    h.setNode rfl (fun hr => absurd hr (h.notMem_ready hn)) (fun _ => rfl)
  have h₂ : WellFormed format (mallocMask (mallocReset q n) n) :=
    h₁.setNode rfl (fun hr => absurd hr (h.notMem_ready hn))
      (fun _ => by simp [mallocReset])
  exact { h₂ with }

theorem mallocNode (h : WellFormed format q) (hn : n ∈ q.freeList.nodes) {size : ℕ}
    {answer : Option FrameAddr} (hfresh : ∀ f, answer = some f → ∀ b ∈ q.live, b.addr ≠ f) :
    WellFormed format (mallocNode format size answer q n).1 := by
  unfold FrameQueue.mallocNode
  rcases mallocFrame_cases format size answer q n with ⟨f, -, he⟩ | ⟨kind, f, hf, hk, ha, he⟩ |
    ⟨-, -, he⟩ <;> rw [he]
  · exact h.mallocTail hn
  · exact (h.attach hn hf hk (hfresh f ha)).mallocTail hn
  · exact h.setInUse hn false

theorem malloc (h : WellFormed format q) {size : ℕ} {answer : Option FrameAddr}
    (hfresh : ∀ f, answer = some f → ∀ b ∈ q.live, b.addr ≠ f) :
    WellFormed format (frameQueueV2Malloc format size answer q).1 := by
  unfold frameQueueV2Malloc
  split
  · obtain ⟨hs, hlive, hmem⟩ := h.mallocSearch
    split
    · rename_i q' hq'
      rw [hq'] at hs
      exact hs
    · rename_i q' n hq'
      rw [hq'] at hs hlive hmem
      have hlive : q'.live = q.live := hlive
      exact hs.mallocNode (hmem n rfl) (by rw [hlive]; exact hfresh)
  · exact h

/-! ## Completing and cancelling -/

theorem publishNode (h : WellFormed format q) (hn : n ∈ q.freeList.nodes)
    (hf : (q.node n).frame ≠ none) : WellFormed format (publishNode q n) := by
  refine h.move (Lists.perm_move_back hn) rfl rfl rfl rfl (frame_update rfl) ?_ ?_ ?_ ?_ ?_
  · simp [h.freeCount, List.length_erase_of_mem hn]
  · simp [h.readyCount]
  · intro m hm
    rcases List.mem_append.mp hm with hm | hm
    · exact h.ready_frame m hm
    · obtain rfl := List.mem_singleton.mp hm
      exact hf
  -- the completed node is reserved no more
  · intro m hm
    rcases List.mem_append.mp hm with hm | hm
    · have hmn := (h.ne_of_free_ready hn hm).symm
      simpa [hmn] using h.ready_idle m hm
    · obtain rfl := List.mem_singleton.mp hm
      simp
  · intro m hm
    have hmn : m ≠ n := by
      rintro rfl
      exact h.free_nodup.not_mem_erase hm
    simpa [hmn] using h.free_ref m (List.mem_of_mem_erase hm)

/-- Posting tokens changes nothing the invariant speaks of. -/
theorem completePost (h : WellFormed format q) (k : ℕ) :
    WellFormed format (completePost^[k] q) := by
  induction k generalizing q with
  | zero => exact h
  | succ k ih => exact ih { h with }

theorem complete (h : WellFormed format q) (frame : Option FrameAddr) :
    WellFormed format (frameQueueV2Complete format frame q).1 := by
  unfold frameQueueV2Complete
  split
  · cases frame with
    | none => exact h
    | some f =>
      rcases completeFind_cases f q with ⟨n, hn, -, hf, he⟩ | ⟨-, he⟩ <;> simp only [he]
      · exact { (h.publishNode hn (by simp [hf])).completePost _ with }
      · exact h
  · exact h

theorem cancel (h : WellFormed format q) (frame : Option FrameAddr) :
    WellFormed format (frameQueueV2Cancel format frame q).1 := by
  unfold frameQueueV2Cancel
  split
  · cases frame with
    | none => exact h
    | some f =>
      rcases cancelFind_cases f q with ⟨n, hn, -, -, he⟩ | ⟨-, he⟩ <;> simp only [he]
      · exact (h.setInUse hn false).detach hn
      · exact h
  · exact h

/-! ## Getting and releasing -/

theorem holdNode (h : WellFormed format q) (hn : n ∈ q.readyList.nodes) (id : Mask)
    (idx : Fin 8) : WellFormed format (holdNode id idx q n) :=
  { h.setNode (n := n)
      (x := { q.node n with
        refCount := (q.node n).refCount + 1
        accessedMask := (q.node n).accessedMask ||| id })
      rfl (fun _ => h.ready_idle n hn) (fun hf => absurd hf (h.notMem_free hn)) with }

theorem getLoop (h : WellFormed format q) (id : Mask) (idx : Fin 8) (waits : ℕ) :
    WellFormed format (getLoop id idx waits q).1 := by
  -- Induction on the waits; a token taken changes nothing the invariant speaks of.
  induction waits generalizing q with
  | zero =>
    unfold FrameQueue.getLoop
    rcases getSearch_cases id idx q with ⟨l₁, n, l₂, hl, -, -, he⟩ | ⟨-, he⟩ <;> simp only [he]
    · exact h.holdNode (by simp [hl]) id idx
    · exact h
  | succ waits ih =>
    unfold FrameQueue.getLoop
    rcases getSearch_cases id idx q with ⟨l₁, n, l₂, hl, -, -, he⟩ | ⟨-, he⟩ <;> simp only [he]
    · exact h.holdNode (by simp [hl]) id idx
    · split
      · exact h
      · exact ih { h with }

theorem getFrame (h : WellFormed format q) (id : Mask) (waits : ℕ) :
    WellFormed format (frameQueueV2GetFrame format id waits q).1 := by
  unfold frameQueueV2GetFrame
  split
  · split
    · exact h
    · exact h.getLoop id _ waits
  · exact h

theorem dropNode (h : WellFormed format q) (hn : n ∈ q.readyList.nodes) (idx : Fin 8) :
    WellFormed format (dropNode idx q n) :=
  { h.setNode (n := n)
      (x := { q.node n with
        refCount := if 0 < (q.node n).refCount then (q.node n).refCount - 1
          else (q.node n).refCount })
      rfl (fun _ => h.ready_idle n hn) (fun hf => absurd hf (h.notMem_free hn)) with }

end WellFormed

/-- The final release, run without interruption, recycles the node and frees its buffer. -/
theorem release_eq_detach :
    releaseDone (releaseAppend
        (releaseReset (((unlinkReady q n).freeFrame format n).clearFrame n) n) n) =
      releaseDone (((recycleNode q n).freeFrame format n).clearFrame n) := by
  cases hf : (q.node n).frame <;> cases hk : bufferKind format <;>
    simp [releaseDone, releaseAppend, releaseReset, FrameQueueV2.freeFrame, hf, hk,
      FrameQueueV2.clearFrame, FrameQueueV2.setNode, recycleNode, unlinkReady,
      FrameNode.reset, FrameQueueV2.frameBufferFree, frameListAddTailNolock]

namespace WellFormed

theorem releaseFrame (h : WellFormed format q) (id : Mask) (frame : Option FrameAddr) :
    WellFormed format (frameQueueV2ReleaseFrame format id frame q) := by
  unfold frameQueueV2ReleaseFrame
  split
  · split
    · rename_i f idx _
      rcases releaseFind_cases idx f q with
        ⟨l₁, n, l₂, hl, -, -, ⟨-, -, he⟩ | ⟨-, he⟩⟩ | ⟨-, he⟩ <;> simp only [he]
      · have hn : n ∈ q.readyList.nodes := by simp [hl]
        rw [release_eq_detach]
        exact { ((h.dropNode hn idx).recycleNode hn).detach (by simp) with }
      · exact h.dropNode (by simp [hl]) idx
      · exact h
    · exact h
  · exact h

/-! ## Registering, unregistering and clearing -/

theorem recycled (h : WellFormed format q) (hn : n ∈ q.readyList.nodes) (k : ℕ) :
    WellFormed format { FrameQueue.recycleNode q n with totalFree := k } :=
  { h.recycleNode hn with }

/-- A sweep whose visits keep buffers and reservations keeps the invariant. -/
theorem sweepReady (h : WellFormed format q) {visit : FrameNode → FrameNode × Bool} {stat : ℕ}
    (hframe : ∀ x, (visit x).1.frame = x.frame) (huse : ∀ x, (visit x).1.inUse = x.inUse) :
    WellFormed format (sweepReady visit stat q.readyList.nodes q) := by
  refine sweepReady_induction _ _ (P := WellFormed format) ?_ _ q h.ready_nodup (fun _ hm => hm) h
  intro q n h hn
  have hset : WellFormed format (q.setNode n (visit (q.node n)).1) :=
    h.setNode (hframe _) (fun _ => by rw [huse]; exact h.ready_idle n hn)
      (fun hf => absurd hf (h.notMem_free hn))
  unfold sweepNode
  split
  · exact hset.recycled hn _
  · exact hset

theorem registerConsumer (h : WellFormed format q) (id : Mask) :
    WellFormed format (frameQueueV2RegisterConsumer format id q).1 := by
  unfold frameQueueV2RegisterConsumer
  split
  · split
    · exact h
    · rename_i idx _
      have h' : WellFormed format { q with
          consumers := Function.update q.consumers idx ⟨id, 0, 0, true⟩
          activeConsumers := q.activeConsumers ||| id } := { h with }
      exact h'.sweepReady (fun _ => rfl) (fun _ => rfl)
  · exact h

theorem unregisterConsumer (h : WellFormed format q) (id : Mask) :
    WellFormed format (frameQueueV2UnregisterConsumer format id q).1 := by
  unfold frameQueueV2UnregisterConsumer
  split
  · split
    · exact h
    · rename_i idx _
      have h' : WellFormed format { q with
          activeConsumers := q.activeConsumers &&& ~~~id
          consumers := Function.update q.consumers idx
            { q.consumers idx with enabled := false } } := { h with }
      refine h'.sweepReady (fun x => ?_) (fun x => ?_)
      · unfold unregisterVisit
        split <;> rfl
      · unfold unregisterVisit
        split <;> rfl
  · exact h

theorem cleanFree (l : List NodeId) :
    ∀ q, WellFormed format q → q.count ≠ 0 → (∀ m ∈ l, m ∈ q.freeList.nodes) →
      WellFormed format (cleanFree l q) := by
  induction l with
  | nil => exact fun q h _ _ => h
  | cons n rest ih =>
    intro q h hc hl
    have hn := hl n List.mem_cons_self
    have hformat := h.format_eq hc
    have hd := (h.setInUse hn false).detach hn
    -- `clear_all` switches on the format of the queue, which is the format it was initialised for
    unfold FrameQueue.cleanFree
    refine ih _ ?_ ?_ fun m hm => ?_
    · simpa only [hformat, FrameQueue.setInUse, FrameQueueV2.setNode_format] using hd
    · simpa [FrameQueueV2.clearFrame] using hc
    · simpa [FrameQueueV2.clearFrame] using hl m (List.mem_cons_of_mem _ hm)

theorem clearAll (h : WellFormed format q) : WellFormed format (frameQueueV2ClearAll q) := by
  unfold frameQueueV2ClearAll
  split
  · exact h
  · rename_i hc
    refine cleanFree _ _ (h.sweepReady (fun _ => rfl) (fun _ => rfl)) ?_ (fun _ hm => hm)
    rw [clearReady, sweepReady_count]
    exact hc

/-! ## Initialising and deinitialising -/

/-- A queue without nodes and buffers, whose log of frees is clean. -/
theorem of_empty (hf : q.freeList = frameListInit) (hr : q.readyList = frameListInit)
    (hlive : q.live = []) (hfrees : ∀ e ∈ q.frees, e.wasLive = true)
    (hformat : q.count ≠ 0 → q.format = format) : WellFormed format q := by
  constructor <;> simp_all [FrameQueueV2.listed, frameListInit]

theorem live_eq_nil (h : WellFormed format q) (hl : q.listed = []) : q.live = [] := by
  apply List.eq_nil_iff_forall_not_mem.mpr
  intro b hb
  obtain ⟨n, hn, -⟩ := h.live_frame b hb
  simp [hl] at hn

theorem boot (node : NodeId → FrameNode) : WellFormed format (FrameQueueV2.boot node) :=
  of_empty rfl rfl rfl (by simp [FrameQueueV2.boot]) (by simp [FrameQueueV2.boot])

theorem createNode (h : WellFormed format q) (hc : q.count ≠ 0) (hn : n ∉ q.listed) :
    WellFormed format (createNode q n) := by
  have hne : ∀ m ∈ q.listed, m ≠ n := fun m hm e => hn (e ▸ hm)
  have hp : (FrameQueue.createNode q n).listed.Perm (n :: q.listed) := by
    simp only [FrameQueueV2.listed, FrameQueue.createNode, frameListAddTailNolock,
      List.append_assoc, List.singleton_append]
    exact List.perm_middle
  have hnode : ∀ m ∈ q.listed, (FrameQueue.createNode q n).node m = q.node m := fun m hm => by
    simp [FrameQueue.createNode, hne m hm]
  have hzero : ((FrameQueue.createNode q n).node n).frame = none := by
    simp [FrameQueue.createNode, FrameNode.zero]
  -- The new node has no buffer.
  have hold : ∀ m ∈ (FrameQueue.createNode q n).listed, ∀ f,
      ((FrameQueue.createNode q n).node m).frame = some f → m ∈ q.listed := by
    intro m hm f hmf
    apply (List.mem_cons.mp (hp.mem_iff.mp hm)).resolve_left
    rintro rfl
    simp [hzero] at hmf
  refine ⟨hp.nodup_iff.mpr (List.nodup_cons.mpr ⟨hn, h.nodup⟩), ?_, h.readyCount, ?_, ?_, ?_,
    h.live_nodup, h.live_kind, h.frees_live, ?_, ?_, ?_, h.format_eq, fun hc' => absurd hc' hc⟩
  · simp [FrameQueue.createNode, h.freeCount]
  · intro m hm m' hm' f hmf hmf'
    have hq := hold m hm f hmf
    have hq' := hold m' hm' f hmf'
    rw [hnode m hq] at hmf
    rw [hnode m' hq'] at hmf'
    exact h.frame_inj m hq m' hq' f hmf hmf'
  · intro m hm f hmf
    have hq := hold m hm f hmf
    rw [hnode m hq] at hmf
    exact h.frame_live m hq f hmf
  · intro b hb
    obtain ⟨m, hm, hmf⟩ := h.live_frame b hb
    exact ⟨m, hp.mem_iff.mpr (List.mem_cons_of_mem _ hm), by rw [hnode m hm, hmf]⟩
  · intro m hm
    rw [hnode m (mem_listed_of_ready hm)]
    exact h.ready_frame m hm
  · intro m hm
    rw [hnode m (mem_listed_of_ready hm)]
    exact h.ready_idle m hm
  · intro m hm
    rcases List.mem_append.mp hm with hm | hm
    · rw [hnode m (mem_listed_of_free hm)]
      exact h.free_ref m hm
    · obtain rfl := List.mem_singleton.mp hm
      simp [FrameQueue.createNode, FrameNode.zero]

theorem createNodes (answers : List (Option NodeId)) :
    ∀ q, WellFormed format q → q.count ≠ 0 → (answers.filterMap id).Nodup →
      (∀ n ∈ answers.filterMap id, n ∉ q.listed) → WellFormed format (createNodes answers q) := by
  induction answers with
  | nil => exact fun q h _ _ _ => h
  | cons a rest ih =>
    intro q h hc hnd hnew
    cases a with
    | none => exact ih q h hc hnd hnew
    | some n =>
      simp only [id_eq, List.filterMap_cons] at hnd hnew
      obtain ⟨hn, hrest⟩ := List.nodup_cons.mp hnd
      apply ih _ (h.createNode hc (hnew n List.mem_cons_self)) hc hrest
      intro m hm hmem
      rcases mem_listed.mp hmem with hmem | hmem
      · rcases List.mem_append.mp hmem with hmem | hmem
        · exact hnew m (List.mem_cons_of_mem _ hm) (mem_listed_of_free hmem)
        · exact hn (List.mem_singleton.mp hmem ▸ hm)
      · exact hnew m (List.mem_cons_of_mem _ hm) (mem_listed_of_ready hmem)

theorem init (h : WellFormed format q) {semaphore : Bool} {answer : ℕ → Option NodeId}
    (hfresh : (createdNodes format answer).Nodup) :
    WellFormed format (frameQueueV2Init format semaphore answer q).1 := by
  unfold frameQueueV2Init
  split
  · exact h
  · rename_i hindex
    split
    · exact h
    · rename_i hcount
      -- An uninitialised queue has no nodes, so `os_memset` loses no buffer.
      have hlive : q.live = [] := h.live_eq_nil (h.closed (by omega))
      have h₀ : WellFormed format
          { q.memset with count := maxFrameCount format, format := format } :=
        of_empty rfl rfl hlive h.frees_live (fun _ => rfl)
      split
      · refine createNodes _ _ h₀ ?_ (by simpa [createdNodes, List.filterMap_map] using hfresh) ?_
        · cases format <;> simp_all [maxFrameCount, getFrameBufferListIndex]
        · simp [FrameQueueV2.listed, FrameQueueV2.memset, frameListInit]
      · exact h₀

theorem drainFree (fuel : ℕ) :
    ∀ q, WellFormed format q → q.freeList.nodes.length ≤ fuel →
      WellFormed format (drainFree format fuel q) ∧
        (drainFree format fuel q).freeList.nodes = [] := by
  induction fuel with
  | zero => exact fun q h hl => ⟨h, List.length_eq_zero_iff.mp (Nat.le_zero.mp hl)⟩
  | succ fuel ih =>
    intro q h hl
    have hfc := h.freeCount
    rcases hq : q.freeList with ⟨nodes, count⟩
    rw [hq] at hl hfc
    cases nodes with
    | nil => simpa [FrameQueue.drainFree, frameListPopHead, hq] using h
    | cons n rest =>
      simp only [FrameQueue.drainFree, frameListPopHead, hq]
      refine ih _ (h.destroy ?_ rfl rfl rfl rfl rfl ?_ ?_ ?_ h.readyCount) ?_
      · simp [FrameQueueV2.listed, hq]
      · rw [hq]
        exact List.subset_cons_self n rest
      · exact List.Subset.refl _
      · simp_all
      · simpa using hl

theorem drainReady (fuel : ℕ) :
    ∀ q, WellFormed format q → q.readyList.nodes.length ≤ fuel → q.freeList.nodes = [] →
      WellFormed format (drainReady format fuel q) ∧
        (drainReady format fuel q).readyList.nodes = [] ∧
        (drainReady format fuel q).freeList.nodes = [] := by
  induction fuel with
  | zero => exact fun q h hl hf => ⟨h, List.length_eq_zero_iff.mp (Nat.le_zero.mp hl), hf⟩
  | succ fuel ih =>
    intro q h hl hf
    have hrc := h.readyCount
    rcases hq : q.readyList with ⟨nodes, count⟩
    rw [hq] at hl hrc
    cases nodes with
    | nil => simpa [FrameQueue.drainReady, frameListPopHead, hq, hf] using h
    | cons n rest =>
      simp only [FrameQueue.drainReady, frameListPopHead, hq]
      refine ih _ (h.destroy ?_ rfl rfl rfl rfl rfl ?_ ?_ h.freeCount ?_) ?_ ?_
      · simp [FrameQueueV2.listed, hq, hf]
      · exact List.Subset.refl _
      · rw [hq]
        exact List.subset_cons_self n rest
      · simp_all
      · simpa using hl
      · simpa using hf

/-- `deinit` frees every buffer. -/
theorem deinit (h : WellFormed format q) :
    WellFormed format (frameQueueV2Deinit format q).1 ∧
      (frameQueueV2Deinit format q).1.live = [] := by
  unfold frameQueueV2Deinit
  split
  · rename_i hindex
    refine ⟨h, List.eq_nil_iff_forall_not_mem.mpr fun b hb => ?_⟩
    have hk := h.live_kind b hb
    cases format <;> simp_all [bufferKind, getFrameBufferListIndex, fbListMaxCount]
  · split
    · rename_i hc
      exact ⟨h, h.live_eq_nil (h.closed hc)⟩
    · obtain ⟨h₁, hf₁⟩ := h.drainFree _ q le_rfl
      obtain ⟨h₂, hr₂, hf₂⟩ := h₁.drainReady _ _ le_rfl hf₁
      have hlive := h₂.live_eq_nil (by simp [FrameQueueV2.listed, hr₂, hf₂])
      exact ⟨of_empty rfl rfl hlive h₂.frees_live (fun hc => absurd rfl hc), hlive⟩

/-! ## Runs -/

/-- **Every call keeps the invariant.** -/
theorem run (h : WellFormed format q) {call : Call} (hfresh : Fresh format q call) :
    WellFormed format (call.run format q).1 := by
  cases call with
  | init semaphore answer => exact h.init hfresh
  | deinit => exact h.deinit.1
  | clearAll => exact h.clearAll
  | registerConsumer id => exact h.registerConsumer id
  | unregisterConsumer id => exact h.unregisterConsumer id
  | malloc size answer =>
    apply h.malloc
    intro f hf
    subst hf
    exact hfresh
  | complete frame => exact h.complete frame
  | cancel frame => exact h.cancel frame
  | getFrame id waits => exact h.getFrame id waits
  | releaseFrame id frame => exact h.releaseFrame id frame

end WellFormed

theorem wellFormed_initialised {answer : ℕ → Option NodeId} (node : NodeId → FrameNode)
    (h : (createdNodes format answer).Nodup) : WellFormed format (initialised format answer node) :=
  (WellFormed.boot node).init h

/-- Any calls in any order, the allocators keeping their promise. -/
abbrev anyCall (format : ImageFormat) (w : World) (call : Call) : Prop :=
  Fresh format w.queue call

theorem wellFormed_of_reaches {w w' : World} {ok : World → Call → Prop}
    (hok : ∀ w call, ok w call → Fresh format w.queue call)
    (h : Reaches (Guarded (World.step format) ok) w w') (hw : WellFormed format w.queue) :
    WellFormed format w'.queue := by
  refine h.invariant (P := fun w => WellFormed format w.queue) hw ?_
  rintro t call u ht ⟨hcall, rfl⟩
  exact ht.run (hok t call hcall)

/-- **Buffers are neither lost nor freed twice.** In every run from the static queue, with any
calls and arguments, each live buffer is the frame of exactly one node, every free was a free of
a live buffer, and after `deinit` no buffer is live. -/
theorem buffers_neither_leak_nor_double_free (node : NodeId → FrameNode) {w : World}
    (h : Reaches (Guarded (World.step format) (anyCall format))
      ⟨FrameQueueV2.boot node, History.empty⟩ w) :
    (∀ b ∈ w.queue.live, ∃! n, n ∈ w.queue.listed ∧ (w.queue.node n).frame = some b.addr) ∧
      (∀ e ∈ w.queue.frees, e.wasLive = true) ∧
      (Call.run format w.queue .deinit).1.live = [] := by
  have hw : WellFormed format w.queue :=
    wellFormed_of_reaches (fun _ _ hcall => hcall) h (.boot node)
  refine ⟨fun b hb => ?_, hw.frees_live, hw.deinit.2⟩
  obtain ⟨n, hn, hf⟩ := hw.live_frame b hb
  exact ⟨n, ⟨hn, hf⟩, fun m hm => hw.frame_inj m hm.1 n hn _ hm.2 hf⟩

/-- The same for a run that leaves one live buffer. -/
theorem buffers_neither_leak_nor_double_free_h264 :
    ∃ w : World, w.queue.live = [⟨.encode, 1000, 64⟩] ∧
      (∀ b ∈ w.queue.live, ∃! n, n ∈ w.queue.listed ∧ (w.queue.node n).frame = some b.addr) ∧
      (∀ e ∈ w.queue.frees, e.wasLive = true) ∧
      (Call.run .h264 w.queue .deinit).1.live = [] := by
  let w₀ : World := ⟨FrameQueueV2.boot fun _ => FrameNode.zero, History.empty⟩
  let w₁ := w₀.call .h264 (.init true fun i => some (i + 1))
  let w₂ := w₁.call .h264 (.malloc 64 (some 1000))
  have h₁ : anyCall .h264 w₀ (.init true fun i => some (i + 1)) := by
    show (createdNodes .h264 fun i => some (i + 1)).Nodup
    decide
  have h₂ : anyCall .h264 w₁ (.malloc 64 (some 1000)) := by
    show ∀ b ∈ w₁.queue.live, b.addr ≠ 1000
    decide
  exact ⟨w₂, rfl, buffers_neither_leak_nor_double_free _
    (((Reaches.refl w₀).tail ⟨h₁, rfl⟩).tail ⟨h₂, rfl⟩)⟩

end FrameQueue

end YangIpc
