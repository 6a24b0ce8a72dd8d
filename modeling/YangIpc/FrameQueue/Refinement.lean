import YangIpc.FrameQueue.Buffers
import YangIpc.Library.Bits
import YangIpc.Library.Broadcast.Accounting
import YangIpc.Library.Broadcast.Delivery

/-!
# A frame queue is a broadcast queue

The completed frames of a queue, with the history of its clients, are a broadcast queue: the
nodes of `ready_list` are the entries, masks are sets of consumer bits, and a frame is the item
of its node.  Every call on a well-formed queue is one step of the broadcast queue.

## Main definitions

* `World.abstract`: the broadcast queue a world stands for
* `Causes`: the steps a call may stand for

## Main results

* `World.refines`: a call is one step of the broadcast queue
-/

namespace YangIpc

namespace FrameQueue

open Bits Broadcast

variable {format : ImageFormat} {q q' : FrameQueueV2} {w : World} {n : NodeId} {x : FrameNode}
  {id : Mask}

/-- The entry of a completed node. -/
def entryOf (n : NodeId) (x : FrameNode) : Entry NodeId ℕ FrameAddr :=
  ⟨n, x.frame.getD 0, bits x.consumerMask, bits x.accessedMask, x.refCount⟩

/-- The entries of `ready_list`, oldest first. -/
def FrameQueueV2.entries (q : FrameQueueV2) : List (Entry NodeId ℕ FrameAddr) :=
  q.readyList.nodes.map fun n => entryOf n (q.node n)

/-- The broadcast queue a world stands for. -/
def World.abstract (w : World) : State NodeId Mask ℕ FrameAddr where
  active := bits w.queue.activeConsumers
  entries := w.queue.entries
  holds := w.history.holds
  completed := w.history.completed
  stamp := w.history.stamp
  activeAt f := bits (w.history.activeAt f)
  since := w.history.since
  delivered := w.history.delivered

/-- The ids `get_frame` and `release` accept: one of the eight consumer bits is set. -/
def Valid (id : Mask) : Prop := consumerIdx id ≠ none

/-- The steps of the broadcast queue a call may stand for. -/
def Causes (format : ImageFormat) (call : Call) : Event Mask FrameAddr → Prop
  | .publish f => call = .complete (some f)
  | .deliver id _ => ∃ waits, call = .getFrame id waits
  | .release id f => call = .releaseFrame id (some f)
  | .discard _ => format ≠ .h264 ∧ ∃ size answer, call = .malloc size answer
  | .register id => call = .registerConsumer id
  | .unregister id => call = .unregisterConsumer id
  | .clear => call = .clearAll
  | .idle => True

/-! ## The tests on nodes -/

theorem waits_entryOf : (entryOf n x).Waits (bits id) ↔ x.pendingFor id = true := by
  simp only [Entry.Waits, entryOf, FrameNode.pendingFor, Bool.and_eq_true, decide_eq_true_eq]
  exact and_congr and_ne_zero_iff.symm and_eq_zero_iff.symm

theorem done_entryOf : (entryOf n x).Done ↔ x.allAccessed = true := by
  simp only [Entry.Done, entryOf, FrameNode.allAccessed, decide_eq_true_eq]
  exact and_eq_right_iff.symm

theorem wanted_entryOf : (entryOf n x).wanted = ∅ ↔ x.consumerMask = 0 := bits_eq_empty

theorem pending_entryOf : (entryOf n x).pending = bits x.pending :=
  (bits_and_not _ _).symm

/-! ## The entries of a changed queue -/

theorem mem_entries {e : Entry NodeId ℕ FrameAddr} :
    e ∈ q.entries ↔ ∃ n ∈ q.readyList.nodes, entryOf n (q.node n) = e := List.mem_map

/-- The entries only depend on the completed nodes. -/
theorem entries_congr (hready : q'.readyList = q.readyList)
    (hnode : ∀ m ∈ q.readyList.nodes, q'.node m = q.node m) : q'.entries = q.entries := by
  unfold FrameQueueV2.entries
  rw [hready]
  exact List.map_congr_left fun m hm => by rw [hnode m hm]

theorem entries_split {l₁ l₂ : List NodeId} (hl : q.readyList.nodes = l₁ ++ n :: l₂) :
    q.entries = l₁.map (fun m => entryOf m (q.node m)) ++ entryOf n (q.node n) ::
      l₂.map fun m => entryOf m (q.node m) := by
  simp [FrameQueueV2.entries, hl]

/-- One completed node changes. -/
theorem entries_update (q' : FrameQueueV2) {l₁ l₂ : List NodeId}
    (hl : q.readyList.nodes = l₁ ++ n :: l₂)
    (hnd : q.readyList.nodes.Nodup) (hready : q'.readyList = q.readyList)
    (hnode : q'.node = Function.update q.node n x) :
    q'.entries = l₁.map (fun m => entryOf m (q.node m)) ++ entryOf n x ::
      l₂.map fun m => entryOf m (q.node m) := by
  unfold FrameQueueV2.entries
  rw [hready, hnode, hl]
  exact Lists.map_update_split (hl ▸ hnd)

/-- One completed node leaves the list. -/
theorem entries_erase (q' : FrameQueueV2) {l₁ l₂ : List NodeId}
    (hl : q.readyList.nodes = l₁ ++ n :: l₂)
    (hnd : q.readyList.nodes.Nodup) (hready : q'.readyList.nodes = q.readyList.nodes.erase n)
    (hnode : ∀ m, m ≠ n → q'.node m = q.node m) :
    q'.entries = l₁.map (fun m => entryOf m (q.node m)) ++
      l₂.map fun m => entryOf m (q.node m) := by
  unfold FrameQueueV2.entries
  rw [hl] at hnd hready
  rw [hready, Lists.erase_split hnd, ← List.map_append]
  apply List.map_congr_left
  intro m hm
  rw [hnode m]
  rintro rfl
  exact (List.nodup_cons.mp (List.nodup_middle.mp hnd)).1 hm

/-- A sweep keeps the entries its visit keeps. -/
theorem entries_sweep {visit : FrameNode → FrameNode × Bool} {stat : ℕ} (q : FrameQueueV2)
    (hnd : q.readyList.nodes.Nodup) :
    (sweepReady visit stat q.readyList.nodes q).entries =
      q.readyList.nodes.filterMap fun m => (kept visit (q.node m)).map (entryOf m) :=
  sweepReady_view visit stat entryOf q.readyList.nodes [] q rfl hnd

/-! ## The pieces that do not touch `ready_list` -/

/-- Two queues with the same completed nodes and active consumers stand for the same broadcast
queue. -/
theorem abstract_congr {w' : World} (hready : w'.queue.readyList = w.queue.readyList)
    (hnode : ∀ m ∈ w.queue.readyList.nodes, w'.queue.node m = w.queue.node m)
    (hactive : w'.queue.activeConsumers = w.queue.activeConsumers)
    (hhistory : w'.history = w.history) : w'.abstract = w.abstract := by
  unfold World.abstract
  rw [entries_congr hready hnode, hactive, hhistory]

theorem completePost_iterate (k : ℕ) :
    ∃ t, completePost^[k] q = { q with frameReady := t } := by
  induction k generalizing q with
  | zero => exact ⟨q.frameReady, rfl⟩
  | succ k ih =>
    obtain ⟨t, ht⟩ := ih (q := completePost q)
    exact ⟨t, ht⟩

/-- `get_frame` run alone: the tokens it takes change nothing for the search. -/
theorem getLoop_cases (id : Mask) (idx : Fin 8) (waits : ℕ) (q : FrameQueueV2) :
    (∃ t l₁ n l₂, q.readyList.nodes = l₁ ++ n :: l₂ ∧
      (∀ m ∈ l₁, (q.node m).pendingFor id = false) ∧ (q.node n).pendingFor id = true ∧
      getLoop id idx waits q =
        (holdNode id idx { q with frameReady := t } n, (q.node n).frame)) ∨
    (∃ t, getLoop id idx waits q = ({ q with frameReady := t }, none)) := by
  induction waits generalizing q with
  | zero =>
    unfold getLoop
    rcases getSearch_cases id idx q with ⟨l₁, n, l₂, hl, hb, hn, he⟩ | ⟨-, he⟩ <;> simp only [he]
    · exact .inl ⟨q.frameReady, l₁, n, l₂, hl, hb, hn, rfl⟩
    · exact .inr ⟨q.frameReady, rfl⟩
  | succ waits ih =>
    unfold getLoop
    rcases getSearch_cases id idx q with ⟨l₁, n, l₂, hl, hb, hn, he⟩ | ⟨-, he⟩ <;> simp only [he]
    · exact .inl ⟨q.frameReady, l₁, n, l₂, hl, hb, hn, rfl⟩
    · split
      · exact .inr ⟨q.frameReady, rfl⟩
      · exact ih (getToken q)

/-- Cleaning the free nodes leaves every other node alone. -/
theorem cleanFree_node (l : List NodeId) :
    ∀ q, (cleanFree l q).readyList = q.readyList ∧
      (cleanFree l q).activeConsumers = q.activeConsumers ∧
      ∀ m, m ∉ l → (cleanFree l q).node m = q.node m := by
  induction l with
  | nil => exact fun q => ⟨rfl, rfl, fun _ _ => rfl⟩
  | cons n rest ih =>
    intro q
    unfold cleanFree
    obtain ⟨hready, hactive, hnode⟩ := ih
      (((q.setNode n { q.node n with inUse := false }).freeFrame q.format n).clearFrame n)
    refine ⟨hready.trans (by simp [FrameQueueV2.clearFrame]),
      hactive.trans (by simp [FrameQueueV2.clearFrame]), fun m hm => ?_⟩
    have hmn : m ≠ n := fun e => hm (e ▸ List.mem_cons_self)
    refine (hnode m fun h => hm (List.mem_cons_of_mem _ h)).trans ?_
    simp [FrameQueueV2.clearFrame, hmn]

theorem mallocTail_node (q : FrameQueueV2) (n : NodeId) :
    (mallocDone (mallocMask (mallocReset q n) n)).readyList = q.readyList ∧
      (mallocDone (mallocMask (mallocReset q n) n)).activeConsumers = q.activeConsumers ∧
      ∀ m, m ≠ n → (mallocDone (mallocMask (mallocReset q n) n)).node m = q.node m :=
  ⟨rfl, rfl, fun m hm => by simp [mallocMask, mallocReset, hm]⟩

theorem mallocNode_node (format : ImageFormat) (size : ℕ) (answer : Option FrameAddr)
    (q : FrameQueueV2) (n : NodeId) :
    (mallocNode format size answer q n).1.readyList = q.readyList ∧
      (mallocNode format size answer q n).1.activeConsumers = q.activeConsumers ∧
      ∀ m, m ≠ n → (mallocNode format size answer q n).1.node m = q.node m := by
  unfold mallocNode
  rcases mallocFrame_cases format size answer q n with ⟨f, -, he⟩ | ⟨kind, f, -, -, -, he⟩ |
    ⟨-, -, he⟩ <;> rw [he]
  · exact mallocTail_node q n
  · obtain ⟨hready, hactive, hnode⟩ := mallocTail_node
      ((q.frameBufferMalloc kind size f).setNode n { q.node n with frame := some f }) n
    exact ⟨hready, hactive, fun m hm => (hnode m hm).trans (by simp [hm])⟩
  · exact ⟨rfl, rfl, fun m hm => by simp [setInUse, hm]⟩

/-! ## Each call is one step -/

/-- The step of a call that changes neither the completed nodes nor the history. -/
theorem refines_idle {call : Call} (h : (w.call format call).abstract = w.abstract) :
    ∃ ev, Causes format call ev ∧ Step bits Valid w.abstract ev (w.call format call).abstract :=
  ⟨.idle, trivial, h ▸ .idle _⟩

theorem refines_malloc (hw : WellFormed format w.queue) (size : ℕ) (answer : Option FrameAddr) :
    ∃ ev, Causes format (.malloc size answer) ev ∧
      Step bits Valid w.abstract ev (w.call format (.malloc size answer)).abstract := by
  by_cases hu : usable format w.queue = true
  · rcases mallocSearch_cases format w.queue with ⟨n, hn, -, he⟩ |
      ⟨-, hformat, l₁, n, l₂, hl, -, href, he⟩ | ⟨-, -, he⟩
    · -- a free node is reserved: the completed nodes stay as they are
      have hrun : (Call.run format w.queue (.malloc size answer)).1 =
          (mallocNode format size answer (setInUse w.queue n true) n).1 := by
        simp [Call.run, frameQueueV2Malloc, hu, he]
      obtain ⟨hready, hactive, hnode⟩ :=
        mallocNode_node format size answer (setInUse w.queue n true) n
      refine refines_idle (abstract_congr ?_ ?_ ?_ rfl)
      · rw [World.call_queue, hrun, hready]
        rfl
      · intro m hm
        have hmn : m ≠ n := (hw.ne_of_free_ready hn hm).symm
        rw [World.call_queue, hrun, hnode m hmn]
        simp [setInUse, hmn]
      · rw [World.call_queue, hrun, hactive]
        rfl
    · -- a completed node is reused: its entry is discarded
      have hrun : (Call.run format w.queue (.malloc size answer)).1 =
          (mallocNode format size answer (reuseNode w.queue n) n).1 := by
        simp [Call.run, frameQueueV2Malloc, hu, he]
      obtain ⟨hready, hactive, hnode⟩ :=
        mallocNode_node format size answer (reuseNode w.queue n) n
      have hne : format ≠ .h264 := by
        rintro rfl
        simp at hformat
      refine ⟨.discard (entryOf n (w.queue.node n)).item, ⟨hne, size, answer, rfl⟩, ?_⟩
      have hpost : (w.call format (.malloc size answer)).abstract =
          { w.abstract with
            entries := l₁.map (fun m => entryOf m (w.queue.node m)) ++
              l₂.map fun m => entryOf m (w.queue.node m) } := by
        have hentries := entries_erase (w.call format (.malloc size answer)).queue hl
          hw.ready_nodup (by rw [World.call_queue, hrun, hready]; rfl)
          (fun m hm => by rw [World.call_queue, hrun, hnode m hm]; simp [hm])
        have hact : (w.call format (.malloc size answer)).queue.activeConsumers =
            w.queue.activeConsumers := by
          rw [World.call_queue, hrun, hactive]
          rfl
        unfold World.abstract
        rw [hentries, hact]
        rfl
      rw [hpost]
      exact .discard _ _ _ _ (entries_split hl) href
    -- no node is found, and nothing changes
    · refine refines_idle (abstract_congr ?_ ?_ ?_ rfl) <;>
        simp [Call.run, frameQueueV2Malloc, hu, he]
  · refine refines_idle (abstract_congr ?_ ?_ ?_ rfl) <;>
      simp [Call.run, frameQueueV2Malloc, hu]

theorem refines_complete (hw : WellFormed format w.queue) (frame : Option FrameAddr) :
    ∃ ev, Causes format (.complete frame) ev ∧
      Step bits Valid w.abstract ev (w.call format (.complete frame)).abstract := by
  by_cases hu : usable format w.queue = true
  · cases frame with
    | none =>
      refine refines_idle (abstract_congr ?_ ?_ ?_ ?_) <;>
        simp [Call.run, frameQueueV2Complete, hu, History.record]
    | some f =>
      rcases completeFind_cases f w.queue with ⟨n, hn, -, hf, he⟩ | ⟨-, he⟩
      -- the frame is found among the free nodes and becomes the newest entry
      · refine ⟨.publish f, rfl, ?_⟩
        obtain ⟨t, ht⟩ := completePost_iterate (q := publishNode w.queue n)
          (signalCount (countActiveConsumers w.queue.activeConsumers))
        have hrun : Call.run format w.queue (.complete (some f)) =
            (completeDone { publishNode w.queue n with frameReady := t }, .status true) := by
          simp [Call.run, frameQueueV2Complete, hu, he, ht]
        have hentries : (w.call format (.complete (some f))).queue.entries =
            w.queue.entries ++ [⟨n, f, bits w.queue.activeConsumers, ∅, 0⟩] := by
          have hready : ∀ m ∈ w.queue.readyList.nodes, m ≠ n := fun m hm =>
            (hw.ne_of_free_ready hn hm).symm
          rw [World.call_queue, hrun]
          simp only [FrameQueueV2.entries, completeDone_readyList, publishNode_readyList,
            frameListAddTailNolock_nodes, completeDone_node, publishNode_node, List.map_append,
            List.map_cons, List.map_nil]
          rw [Lists.map_update_of_notMem fun hm => hready n hm rfl]
          simp [entryOf, hf, hw.free_ref n hn]
        -- Buffers determine their nodes, and this one belongs to a free node.
        have hfresh : ∀ e ∈ w.queue.entries, e.item ≠ f := by
          intro e he hef
          obtain ⟨m, hm, rfl⟩ := mem_entries.mp he
          obtain ⟨g, hg⟩ := Option.ne_none_iff_exists'.mp (hw.ready_frame m hm)
          have hgf : g = f := by simpa [entryOf, hg] using hef
          exact hw.ne_of_free_ready hn hm (hw.frame_inj n (mem_listed_of_free hn) m
            (mem_listed_of_ready hm) f hf (hgf ▸ hg))
        have hpost : (w.call format (.complete (some f))).abstract =
            { w.abstract with
              entries := w.queue.entries ++ [⟨n, f, bits w.queue.activeConsumers, ∅, 0⟩]
              completed := w.history.completed + 1
              stamp := Function.update w.history.stamp f w.history.completed
              activeAt := Function.update (fun g => bits (w.history.activeAt g)) f
                (bits w.queue.activeConsumers) } := by
          unfold World.abstract
          rw [hentries, World.call_queue, World.call_history, hrun]
          simp only [History.record, completeDone_activeConsumers, publishNode_activeConsumers]
          congr 1
          funext g
          by_cases hg : g = f
          · subst hg
            simp
          · simp [hg]
        rw [hpost]
        exact .publish w.abstract n f hfresh
      · refine refines_idle (abstract_congr ?_ ?_ ?_ ?_) <;>
          simp [Call.run, frameQueueV2Complete, hu, he, History.record]
  · refine refines_idle (abstract_congr ?_ ?_ ?_ ?_) <;>
      simp [Call.run, frameQueueV2Complete, hu, History.record]

theorem refines_cancel (hw : WellFormed format w.queue) (frame : Option FrameAddr) :
    ∃ ev, Causes format (.cancel frame) ev ∧
      Step bits Valid w.abstract ev (w.call format (.cancel frame)).abstract := by
  by_cases hu : usable format w.queue = true
  · cases frame with
    | none =>
      refine refines_idle (abstract_congr ?_ ?_ ?_ rfl) <;>
        simp [Call.run, frameQueueV2Cancel, hu]
    | some f =>
      rcases cancelFind_cases f w.queue with ⟨n, hn, -, -, he⟩ | ⟨-, he⟩
      -- only a free node changes
      · have hrun : (Call.run format w.queue (.cancel (some f))).1 =
            ((setInUse w.queue n false).freeFrame format n).clearFrame n := by
          simp [Call.run, frameQueueV2Cancel, hu, he]
        refine refines_idle (abstract_congr ?_ ?_ ?_ rfl) <;> rw [World.call_queue, hrun]
        · simp [FrameQueueV2.clearFrame, setInUse]
        · intro m hm
          have hmn : m ≠ n := (hw.ne_of_free_ready hn hm).symm
          simp [FrameQueueV2.clearFrame, setInUse, hmn]
        · simp [FrameQueueV2.clearFrame, setInUse]
      · refine refines_idle (abstract_congr ?_ ?_ ?_ rfl) <;>
          simp [Call.run, frameQueueV2Cancel, hu, he]
  · refine refines_idle (abstract_congr ?_ ?_ ?_ rfl) <;>
      simp [Call.run, frameQueueV2Cancel, hu]

theorem valid_of_getEnabled {idx : Fin 8} (h : getEnabled id q = some idx) : Valid id := by
  intro hnone
  simp [getEnabled, hnone] at h

theorem refines_getFrame (hw : WellFormed format w.queue) (id : Mask) (waits : ℕ) :
    ∃ ev, Causes format (.getFrame id waits) ev ∧
      Step bits Valid w.abstract ev (w.call format (.getFrame id waits)).abstract := by
  by_cases hu : usable format w.queue = true
  · cases hidx : getEnabled id w.queue with
    | none =>
      refine refines_idle (abstract_congr ?_ ?_ ?_ ?_) <;>
        simp [Call.run, frameQueueV2GetFrame, hu, hidx, History.record]
    | some idx =>
      rcases getLoop_cases id idx waits w.queue with ⟨t, l₁, n, l₂, hl, hbefore, hn, he⟩ | ⟨t, he⟩
      -- the first entry that waits for the consumer is delivered
      · have hnr : n ∈ w.queue.readyList.nodes := by simp [hl]
        obtain ⟨f, hf⟩ := Option.ne_none_iff_exists'.mp (hw.ready_frame n hnr)
        have hrun : Call.run format w.queue (.getFrame id waits) =
            (holdNode id idx { w.queue with frameReady := t } n, .frame (some f)) := by
          simp [Call.run, frameQueueV2GetFrame, hu, hidx, he, hf]
        have hitem : (entryOf n (w.queue.node n)).item = f := by simp [entryOf, hf]
        refine ⟨.deliver id (entryOf n (w.queue.node n)).item, ⟨waits, rfl⟩, ?_⟩
        have hentries := entries_update
          (holdNode id idx { w.queue with frameReady := t } n) hl hw.ready_nodup rfl rfl
        have hpost : (w.call format (.getFrame id waits)).abstract =
            { w.abstract with
              entries := l₁.map (fun m => entryOf m (w.queue.node m)) ++
                (entryOf n (w.queue.node n)).take (bits id) ::
                  l₂.map fun m => entryOf m (w.queue.node m)
              holds := insert (id, (entryOf n (w.queue.node n)).item) w.history.holds
              delivered := Function.update w.history.delivered id (w.history.delivered id ++
                [w.history.stamp (entryOf n (w.queue.node n)).item]) } := by
          unfold World.abstract
          rw [World.call_queue, World.call_history, hrun, hentries, hitem]
          simp [History.record, entryOf, Entry.take]
        rw [hpost]
        refine .deliver w.abstract id _ _ _ (entries_split hl) ?_ (waits_entryOf.mpr hn)
          (valid_of_getEnabled hidx)
        intro e he
        obtain ⟨m, hm, rfl⟩ := List.mem_map.mp he
        rw [waits_entryOf, hbefore m hm]
        simp
      -- nothing is pending; the tokens taken are not part of the broadcast queue
      · refine refines_idle (abstract_congr ?_ ?_ ?_ ?_) <;>
          simp [Call.run, frameQueueV2GetFrame, hu, hidx, he, History.record]
  · refine refines_idle (abstract_congr ?_ ?_ ?_ ?_) <;>
      simp [Call.run, frameQueueV2GetFrame, hu, History.record]

/-- Nothing is completed on a queue the functions refuse. -/
theorem ready_eq_nil (hw : WellFormed format q) (hu : ¬usable format q = true) :
    q.readyList.nodes = [] := by
  refine List.eq_nil_iff_forall_not_mem.mpr fun n hn => hu ?_
  obtain ⟨f, hf⟩ := Option.ne_none_iff_exists'.mp (hw.ready_frame n hn)
  obtain ⟨b, hb, -⟩ := hw.frame_live n (mem_listed_of_ready hn) f hf
  have hkind := hw.live_kind b hb
  have hcount : q.count ≠ 0 := by
    intro hc
    have := mem_listed_of_ready hn
    rw [hw.closed hc] at this
    simp at this
  cases format <;> simp_all [usable, getFrameBufferListIndex, fbListMaxCount, bufferKind]

/-- The last release run alone: only its node changes. -/
theorem release_tail (format : ImageFormat) (q : FrameQueueV2) (n : NodeId) :
    let q' := releaseDone (releaseAppend
      (releaseReset ((q.freeFrame format n).clearFrame n) n) n)
    q'.readyList = q.readyList ∧ q'.activeConsumers = q.activeConsumers ∧
      ∀ m, m ≠ n → q'.node m = q.node m := by
  refine ⟨?_, ?_, fun m hm => ?_⟩ <;> simp [releaseReset, FrameQueueV2.clearFrame, *]

/-- A release that finds no completed node changes what is held, and nothing else. -/
theorem step_releaseMiss {f : FrameAddr}
    (hqueue : (Call.run format w.queue (.releaseFrame id (some f))).1 = w.queue)
    (hmiss : (∀ e ∈ w.queue.entries, e.item ≠ f) ∨ ¬Valid id) :
    Step bits Valid w.abstract (.release id f)
      (w.call format (.releaseFrame id (some f))).abstract := by
  have hpost : (w.call format (.releaseFrame id (some f))).abstract =
      { w.abstract with holds := w.history.holds.erase (id, f) } := by
    unfold World.abstract
    rw [World.call_queue, hqueue]
    rfl
  rw [hpost]
  exact .releaseMiss w.abstract id f hmiss

/-- The last release: the entry goes. -/
theorem step_releaseLast (idx : Fin 8) {id : Mask} {f : FrameAddr} {l₁ l₂ : List NodeId}
    (hw : WellFormed format w.queue) (hl : w.queue.readyList.nodes = l₁ ++ n :: l₂)
    (hf : (w.queue.node n).frame = some f) (href : (w.queue.node n).refCount - 1 = 0)
    (hall : (w.queue.node n).allAccessed = true)
    (hrun : (Call.run format w.queue (.releaseFrame id (some f))).1 =
      releaseDone (releaseAppend (releaseReset
        (((unlinkReady (dropNode idx w.queue n) n).freeFrame format n).clearFrame n) n) n)) :
    Step bits Valid w.abstract (.release id f)
      (w.call format (.releaseFrame id (some f))).abstract := by
  have hitem : (entryOf n (w.queue.node n)).item = f := by simp [entryOf, hf]
  obtain ⟨hready, hactive, hnode⟩ :=
    release_tail format (unlinkReady (dropNode idx w.queue n) n) n
  have hentries := entries_erase
    (w.call format (.releaseFrame id (some f))).queue hl hw.ready_nodup
    (by rw [World.call_queue, hrun, hready]; rfl)
    (fun m hm => by rw [World.call_queue, hrun, hnode m hm]; simp [hm])
  have hact : (w.call format (.releaseFrame id (some f))).queue.activeConsumers =
      w.queue.activeConsumers := by
    rw [World.call_queue, hrun, hactive]
    rfl
  have hpost : (w.call format (.releaseFrame id (some f))).abstract =
      { w.abstract with
        entries := l₁.map (fun m => entryOf m (w.queue.node m)) ++
          l₂.map fun m => entryOf m (w.queue.node m)
        holds := w.history.holds.erase (id, f) } := by
    unfold World.abstract
    rw [hentries, hact]
    rfl
  rw [hpost, ← hitem]
  exact .releaseLast w.abstract id _ _ _ (entries_split hl) href (done_entryOf.mpr hall)

/-- Another release, while others still hold or wait for the frame: its entry loses a reference. -/
theorem step_releaseMore (idx : Fin 8) {id : Mask} {f : FrameAddr} {l₁ l₂ : List NodeId}
    (hw : WellFormed format w.queue) (hl : w.queue.readyList.nodes = l₁ ++ n :: l₂)
    (hf : (w.queue.node n).frame = some f)
    (hmore : ¬((w.queue.node n).refCount - 1 = 0 ∧ (w.queue.node n).allAccessed = true))
    (hrun : (Call.run format w.queue (.releaseFrame id (some f))).1 = dropNode idx w.queue n) :
    Step bits Valid w.abstract (.release id f)
      (w.call format (.releaseFrame id (some f))).abstract := by
  have hitem : (entryOf n (w.queue.node n)).item = f := by simp [entryOf, hf]
  have hentries := entries_update (dropNode idx w.queue n) hl hw.ready_nodup rfl rfl
  have hpost : (w.call format (.releaseFrame id (some f))).abstract =
      { w.abstract with
        entries := l₁.map (fun m => entryOf m (w.queue.node m)) ++
          (entryOf n (w.queue.node n)).drop :: l₂.map fun m => entryOf m (w.queue.node m)
        holds := w.history.holds.erase (id, f) } := by
    have hdrop : (if 0 < (w.queue.node n).refCount then (w.queue.node n).refCount - 1
        else (w.queue.node n).refCount) = (w.queue.node n).refCount - 1 := by
      split <;> omega
    unfold World.abstract
    rw [World.call_queue, hrun, hentries, hdrop]
    rfl
  rw [hpost, ← hitem]
  exact .release w.abstract id _ _ _ (entries_split hl)
    fun h => hmore ⟨h.1, done_entryOf.mp h.2⟩

theorem refines_releaseFrame (hw : WellFormed format w.queue) (id : Mask)
    (frame : Option FrameAddr) :
    ∃ ev, Causes format (.releaseFrame id frame) ev ∧
      Step bits Valid w.abstract ev (w.call format (.releaseFrame id frame)).abstract := by
  cases frame with
  | none =>
    refine refines_idle (abstract_congr ?_ ?_ ?_ ?_) <;>
      simp [Call.run, frameQueueV2ReleaseFrame, History.record]
  | some f =>
    refine ⟨.release id f, rfl, ?_⟩
    by_cases hu : ¬usable format w.queue = true
    · refine step_releaseMiss (by simp [Call.run, frameQueueV2ReleaseFrame, hu])
        (.inl fun e he => ?_)
      obtain ⟨m, hm, -⟩ := mem_entries.mp he
      simp [ready_eq_nil hw hu] at hm
    rw [not_not] at hu
    cases hidx : consumerIdx id with
    | none =>
      exact step_releaseMiss (by simp [Call.run, frameQueueV2ReleaseFrame, hidx])
        (.inr fun hv => hv hidx)
    | some idx =>
      rcases releaseFind_cases idx f w.queue with
        ⟨l₁, n, l₂, hl, -, hf, ⟨href, hall, he⟩ | ⟨hmore, he⟩⟩ | ⟨hmiss, he⟩
      · exact step_releaseLast idx hw hl hf href hall
          (by simp [Call.run, frameQueueV2ReleaseFrame, hu, hidx, he])
      · exact step_releaseMore idx hw hl hf hmore
          (by simp [Call.run, frameQueueV2ReleaseFrame, hu, hidx, he])
      -- no completed node has this frame
      · refine step_releaseMiss (by simp [Call.run, frameQueueV2ReleaseFrame, hu, hidx, he])
          (.inl fun e he hef => ?_)
        obtain ⟨m, hm, rfl⟩ := mem_entries.mp he
        obtain ⟨g, hg⟩ := Option.ne_none_iff_exists'.mp (hw.ready_frame m hm)
        exact hmiss m hm (by simpa [entryOf, hg] using hef)

/-- Registering drops the frames meant for nobody and held by nobody. -/
theorem registerSection_entries (hw : WellFormed format q) (id : Mask) (idx : Fin 8) :
    (registerSection id idx q).entries =
      q.entries.filter fun e => ¬(e.wanted = ∅ ∧ e.refs = 0) := by
  refine (entries_sweep { q with
    consumers := Function.update q.consumers idx ⟨id, 0, 0, true⟩
    activeConsumers := q.activeConsumers ||| id } hw.ready_nodup).trans ?_
  rw [FrameQueueV2.entries, ← List.filterMap_eq_filter, List.filterMap_map]
  apply List.filterMap_congr
  intro m _
  by_cases hd : (q.node m).consumerMask = 0#32 ∧ (q.node m).refCount = 0
  · simp [kept, registerVisit, Option.guard, hd, entryOf]
  · simp only [kept, registerVisit, Option.guard, entryOf, Function.comp_apply, bits_eq_empty]
    simp [hd, entryOf]

theorem refines_registerConsumer (hw : WellFormed format w.queue) (id : Mask) :
    ∃ ev, Causes format (.registerConsumer id) ev ∧
      Step bits Valid w.abstract ev (w.call format (.registerConsumer id)).abstract := by
  by_cases hu : usable format w.queue = true
  · cases hidx : consumerIdx id with
    | none =>
      refine refines_idle (abstract_congr ?_ ?_ ?_ ?_) <;>
        simp [Call.run, frameQueueV2RegisterConsumer, hu, hidx, History.record]
    | some idx =>
      refine ⟨.register id, rfl, ?_⟩
      have hrun : Call.run format w.queue (.registerConsumer id) =
          (registerSection id idx w.queue, .status true) := by
        simp [Call.run, frameQueueV2RegisterConsumer, hu, hidx]
      have hentries := registerSection_entries hw id idx
      have hactive : (registerSection id idx w.queue).activeConsumers =
          w.queue.activeConsumers ||| id := by
        unfold registerSection
        rw [sweepReady_activeConsumers]
      have hpost : (w.call format (.registerConsumer id)).abstract = w.abstract.join bits id := by
        unfold World.abstract State.join
        rw [World.call_queue, World.call_history, hrun, hentries, hactive]
        have hfresh := and_eq_zero_iff (x := w.queue.activeConsumers) (y := id)
        -- a consumer that is registered already begins no new period
        by_cases hz : w.queue.activeConsumers &&& id = 0#32
        · simp [History.record, hz, hfresh.mp hz]
        · simp [History.record, hz, mt hfresh.mpr hz]
      rw [hpost]
      exact .register _ id
  · refine refines_idle (abstract_congr ?_ ?_ ?_ ?_) <;>
      simp [Call.run, frameQueueV2RegisterConsumer, hu, History.record]

theorem leave_entryOf (n : NodeId) (x : FrameNode) :
    (entryOf n x).leave (bits id) = (kept (unregisterVisit id) x).map (entryOf n) := by
  by_cases hp : x.pendingFor id = true
  · have hforget : (entryOf n x).forget (bits id) =
        entryOf n { x with consumerMask := x.consumerMask &&& ~~~id } := by
      simp only [Entry.forget, entryOf, bits_and_not]
    have hdone : ((entryOf n x).refs = 0 ∧ ((entryOf n x).forget (bits id)).Done) ↔
        x.refCount = 0 ∧
          (x.consumerMask &&& ~~~id = 0 ∨
            { x with consumerMask := x.consumerMask &&& ~~~id }.allAccessed = true) := by
      -- The test for an empty mask is covered by the test for all accesses.
      rw [hforget, done_entryOf]
      refine and_congr Iff.rfl ⟨.inr, ?_⟩
      rintro (h0 | hall)
      · simp [FrameNode.allAccessed, h0]
      · exact hall
    unfold Entry.leave kept unregisterVisit
    rw [if_pos (waits_entryOf.mpr hp), if_pos hp]
    by_cases hd : x.refCount = 0 ∧ (x.consumerMask &&& ~~~id = 0 ∨
        ({ x with consumerMask := x.consumerMask &&& ~~~id } : FrameNode).allAccessed = true)
    · rw [if_pos (hdone.mpr hd), if_pos (by simpa using hd)]
      rfl
    · rw [if_neg (mt hdone.mp hd), if_neg (by simpa using hd), hforget]
      rfl
  · unfold Entry.leave kept unregisterVisit
    rw [if_neg (mt waits_entryOf.mp hp), if_neg hp]
    rfl

theorem refines_unregisterConsumer (hw : WellFormed format w.queue) (id : Mask) :
    ∃ ev, Causes format (.unregisterConsumer id) ev ∧
      Step bits Valid w.abstract ev (w.call format (.unregisterConsumer id)).abstract := by
  by_cases hu : usable format w.queue = true
  · cases hidx : consumerIdx id with
    | none =>
      refine refines_idle (abstract_congr ?_ ?_ ?_ ?_) <;>
        simp [Call.run, frameQueueV2UnregisterConsumer, hu, hidx, History.record]
    | some idx =>
      refine ⟨.unregister id, rfl, ?_⟩
      have hrun : (Call.run format w.queue (.unregisterConsumer id)).1 =
          unregisterSection id idx w.queue := by
        simp [Call.run, frameQueueV2UnregisterConsumer, hu, hidx]
      -- the sweep visits every entry as the broadcast queue does
      have hentries : (unregisterSection id idx w.queue).entries =
          w.queue.entries.filterMap (Entry.leave (bits id)) := by
        refine (entries_sweep { w.queue with
          activeConsumers := w.queue.activeConsumers &&& ~~~id
          consumers := Function.update w.queue.consumers idx
            { w.queue.consumers idx with enabled := false } } hw.ready_nodup).trans ?_
        rw [FrameQueueV2.entries, List.filterMap_map]
        exact List.filterMap_congr fun m _ => (leave_entryOf m _).symm
      have hactive : (unregisterSection id idx w.queue).activeConsumers =
          w.queue.activeConsumers &&& ~~~id := by
        unfold unregisterSection
        rw [sweepReady_activeConsumers]
      have hpost : (w.call format (.unregisterConsumer id)).abstract =
          { w.abstract with
            active := bits w.queue.activeConsumers \ bits id
            entries := w.queue.entries.filterMap (Entry.leave (bits id)) } := by
        unfold World.abstract
        rw [World.call_queue, World.call_history, hrun, hentries, hactive, bits_and_not]
        rfl
      rw [hpost]
      exact .unregister w.abstract id
  · refine refines_idle (abstract_congr ?_ ?_ ?_ ?_) <;>
      simp [Call.run, frameQueueV2UnregisterConsumer, hu, History.record]

theorem refines_clearAll (hw : WellFormed format w.queue) :
    ∃ ev, Causes format .clearAll ev ∧
      Step bits Valid w.abstract ev (w.call format .clearAll).abstract := by
  by_cases hc : w.queue.count = 0
  · refine refines_idle (abstract_congr ?_ ?_ ?_ rfl) <;>
      simp [Call.run, frameQueueV2ClearAll, hc]
  · refine ⟨.clear, rfl, ?_⟩
    have hrun : (Call.run format w.queue .clearAll).1 = clearFree (clearReady w.queue) := by
      simp [Call.run, frameQueueV2ClearAll, hc]
    have hclear : WellFormed format (clearReady w.queue) :=
      hw.sweepReady (fun _ => rfl) (fun _ => rfl)
    obtain ⟨hready, hactive, hnode⟩ :=
      cleanFree_node (clearReady w.queue).freeList.nodes (clearReady w.queue)
    have hentries : (clearFree (clearReady w.queue)).entries =
        w.queue.entries.filter fun e => e.refs ≠ 0 := by
      -- The second section touches free nodes only.
      have hkeep : (clearFree (clearReady w.queue)).entries = (clearReady w.queue).entries :=
        entries_congr hready fun m hm => hnode m fun hf => hclear.notMem_ready hf hm
      rw [hkeep]
      rw [clearReady, entries_sweep w.queue hw.ready_nodup, FrameQueueV2.entries,
        ← List.filterMap_eq_filter, List.filterMap_map]
      apply List.filterMap_congr
      intro m _
      by_cases hd : (w.queue.node m).refCount = 0
      · simp [kept, clearAllVisit, Option.guard, hd, entryOf]
      · simp [kept, clearAllVisit, Option.guard, hd, entryOf]
    have hact : (clearFree (clearReady w.queue)).activeConsumers = w.queue.activeConsumers :=
      hactive.trans (sweepReady_activeConsumers _ _)
    have hpost : (w.call format .clearAll).abstract =
        { w.abstract with entries := w.queue.entries.filter fun e => e.refs ≠ 0 } := by
      unfold World.abstract
      rw [World.call_queue, World.call_history, hrun, hentries, hact]
      rfl
    rw [hpost]
    exact .clear w.abstract

/-- **A call is one step of the broadcast queue.** -/
theorem World.refines (hw : WellFormed format w.queue) {call : Call} (hcall : Running call) :
    ∃ ev, Causes format call ev ∧ Step bits Valid w.abstract ev (w.call format call).abstract := by
  cases call with
  | init semaphore answer => exact hcall.elim
  | deinit => exact hcall.elim
  | clearAll => exact refines_clearAll hw
  | registerConsumer id => exact refines_registerConsumer hw id
  | unregisterConsumer id => exact refines_unregisterConsumer hw id
  | malloc size answer => exact refines_malloc hw size answer
  | complete frame => exact refines_complete hw frame
  | cancel frame => exact refines_cancel hw frame
  | getFrame id waits => exact refines_getFrame hw id waits
  | releaseFrame id frame => exact refines_releaseFrame hw id frame

end FrameQueue

end YangIpc
