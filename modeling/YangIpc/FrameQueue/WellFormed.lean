import YangIpc.FrameQueue.Operations
import YangIpc.Library.Lists
import Mathlib.Data.List.Perm.Lattice

/-!
# Well-formed queues

The invariant of a queue between two calls: no node is linked twice, the counts are right,
buffers and nodes with a buffer correspond one to one, a completed node has a buffer and no
producer, and a free node has no holder.

The functions change a queue by a few elementary moves: a node changes without its buffer, moves
between the lists, receives a buffer or loses it.  Each move keeps the invariant.

## Main results

* `WellFormed.move`: any rearrangement of the lists that leaves the buffers alone
* `WellFormed.attach`, `WellFormed.detach`: a buffer is obtained or freed
* `WellFormed.destroy`: a node is freed together with its buffer
-/

namespace YangIpc

namespace FrameQueue

/-- The invariant between two calls of one queue of the given format. -/
structure WellFormed (format : ImageFormat) (q : FrameQueueV2) : Prop where
  nodup : q.listed.Nodup
  freeCount : q.freeList.count = q.freeList.nodes.length
  readyCount : q.readyList.count = q.readyList.nodes.length
  frame_inj : ∀ n ∈ q.listed, ∀ m ∈ q.listed, ∀ f,
    (q.node n).frame = some f → (q.node m).frame = some f → n = m
  frame_live : ∀ n ∈ q.listed, ∀ f, (q.node n).frame = some f → ∃ b ∈ q.live, b.addr = f
  live_frame : ∀ b ∈ q.live, ∃ n ∈ q.listed, (q.node n).frame = some b.addr
  live_nodup : (q.live.map Buffer.addr).Nodup
  live_kind : ∀ b ∈ q.live, bufferKind format = some b.kind
  frees_live : ∀ e ∈ q.frees, e.wasLive = true
  ready_frame : ∀ n ∈ q.readyList.nodes, (q.node n).frame ≠ none
  ready_idle : ∀ n ∈ q.readyList.nodes, (q.node n).inUse = false
  free_ref : ∀ n ∈ q.freeList.nodes, (q.node n).refCount = 0
  format_eq : q.count ≠ 0 → q.format = format
  closed : q.count = 0 → q.listed = []

variable {format : ImageFormat} {q q' : FrameQueueV2} {n : NodeId} {f : FrameAddr}

theorem mem_listed : n ∈ q.listed ↔ n ∈ q.freeList.nodes ∨ n ∈ q.readyList.nodes :=
  List.mem_append

theorem mem_listed_of_free (h : n ∈ q.freeList.nodes) : n ∈ q.listed := mem_listed.mpr (.inl h)

theorem mem_listed_of_ready (h : n ∈ q.readyList.nodes) : n ∈ q.listed := mem_listed.mpr (.inr h)

/-- A node that is stored with the buffer it has. -/
theorem frame_update {node : NodeId → FrameNode} {x : FrameNode} (hx : x.frame = (node n).frame)
    (m : NodeId) : (Function.update node n x m).frame = (node m).frame := by
  by_cases hm : m = n
  · subst hm
    simp [hx]
  · simp [hm]

namespace WellFormed

theorem free_nodup (h : WellFormed format q) : q.freeList.nodes.Nodup :=
  (List.nodup_append.mp h.nodup).1

theorem ready_nodup (h : WellFormed format q) : q.readyList.nodes.Nodup :=
  (List.nodup_append.mp h.nodup).2.1

theorem ne_of_free_ready (h : WellFormed format q) {m : NodeId} (hn : n ∈ q.freeList.nodes)
    (hm : m ∈ q.readyList.nodes) : n ≠ m :=
  (List.nodup_append.mp h.nodup).2.2 n hn m hm

theorem notMem_ready (h : WellFormed format q) (hn : n ∈ q.freeList.nodes) :
    n ∉ q.readyList.nodes := fun hm => h.ne_of_free_ready hn hm rfl

theorem notMem_free (h : WellFormed format q) (hn : n ∈ q.readyList.nodes) :
    n ∉ q.freeList.nodes := fun hm => h.ne_of_free_ready hm hn rfl

/-! ## The elementary moves -/

/-- **Moves that leave the buffers alone.** The lists are rearranged, the nodes keep their
buffers, and the conditions on completed and free nodes hold again. -/
theorem move (h : WellFormed format q) (hp : q'.listed.Perm q.listed)
    (hlive : q'.live = q.live) (hfrees : q'.frees = q.frees)
    (hcount : q'.count = q.count) (hformat : q'.format = q.format)
    (hframe : ∀ n, (q'.node n).frame = (q.node n).frame)
    (hfc : q'.freeList.count = q'.freeList.nodes.length)
    (hrc : q'.readyList.count = q'.readyList.nodes.length)
    (hrf : ∀ n ∈ q'.readyList.nodes, (q.node n).frame ≠ none)
    (hri : ∀ n ∈ q'.readyList.nodes, (q'.node n).inUse = false)
    (hfr : ∀ n ∈ q'.freeList.nodes, (q'.node n).refCount = 0) : WellFormed format q' where
  nodup := hp.nodup_iff.mpr h.nodup
  freeCount := hfc
  readyCount := hrc
  frame_inj n hn m hm f hnf hmf := by
    rw [hframe] at hnf hmf
    exact h.frame_inj n (hp.mem_iff.mp hn) m (hp.mem_iff.mp hm) f hnf hmf
  frame_live n hn f hnf := by
    rw [hframe] at hnf
    rw [hlive]
    exact h.frame_live n (hp.mem_iff.mp hn) f hnf
  live_frame b hb := by
    rw [hlive] at hb
    obtain ⟨n, hn, hnf⟩ := h.live_frame b hb
    exact ⟨n, hp.mem_iff.mpr hn, (hframe n).trans hnf⟩
  live_nodup := by rw [hlive]; exact h.live_nodup
  live_kind := by rw [hlive]; exact h.live_kind
  frees_live := by rw [hfrees]; exact h.frees_live
  ready_frame n hn := by
    rw [hframe]
    exact hrf n hn
  ready_idle := hri
  free_ref := hfr
  format_eq := by rw [hcount, hformat]; exact h.format_eq
  closed hc := by
    rw [hcount] at hc
    exact List.Perm.eq_nil (hp.trans (.of_eq (h.closed hc)))

/-- What is left on `ready_list` without a node has no producer. -/
theorem ready_idle_erase (h : WellFormed format q) {x : FrameNode} {m : NodeId}
    (hm : m ∈ q.readyList.nodes.erase n) : (Function.update q.node n x m).inUse = false := by
  have hmn : m ≠ n := by
    rintro rfl
    exact h.ready_nodup.not_mem_erase hm
  rw [Function.update_of_ne hmn]
  exact h.ready_idle m (List.mem_of_mem_erase hm)

/-- A node changes without its buffer. -/
theorem setNode (h : WellFormed format q) {x : FrameNode} (hx : x.frame = (q.node n).frame)
    (hready : n ∈ q.readyList.nodes → x.inUse = false)
    (hfree : n ∈ q.freeList.nodes → x.refCount = 0) : WellFormed format (q.setNode n x) := by
  refine h.move (.refl _) rfl rfl rfl rfl (frame_update hx) h.freeCount h.readyCount
    h.ready_frame ?_ ?_
  · intro m hm
    by_cases hmn : m = n
    · subst hmn
      simpa using hready hm
    · simpa [hmn] using h.ready_idle m hm
  · intro m hm
    by_cases hmn : m = n
    · subst hmn
      simpa using hfree hm
    · simpa [hmn] using h.free_ref m hm

/-- A node of `ready_list` goes to the tail of `free_list`. -/
theorem recycleNode (h : WellFormed format q) (hn : n ∈ q.readyList.nodes) :
    WellFormed format (recycleNode q n) := by
  refine h.move (Lists.perm_move_tail hn) rfl rfl rfl rfl (frame_update rfl) ?_ ?_ ?_ ?_ ?_
  · simp [h.freeCount]
  · simp [h.readyCount, List.length_erase_of_mem hn]
  · exact fun m hm => h.ready_frame m (List.mem_of_mem_erase hm)
  · exact fun m hm => h.ready_idle_erase hm
  · intro m hm
    rcases List.mem_append.mp hm with hm | hm
    · have hmn := h.ne_of_free_ready hm hn
      simpa [hmn] using h.free_ref m hm
    · obtain rfl := List.mem_singleton.mp hm
      simp

/-- A buffer obtained from the allocator is attached to a node of `free_list`. -/
theorem attach (h : WellFormed format q) {kind : BufferKind} {size : ℕ}
    (hn : n ∈ q.freeList.nodes) (hnone : (q.node n).frame = none)
    (hkind : bufferKind format = some kind) (hf : ∀ b ∈ q.live, b.addr ≠ f) :
    WellFormed format ((q.frameBufferMalloc kind size f).setNode n
      { q.node n with frame := some f }) where
  nodup := h.nodup
  freeCount := h.freeCount
  readyCount := h.readyCount
  frame_inj m hm m' hm' f' hmf hmf' := by
    -- A buffer of a linked node is live, and the new one is not.
    have hfresh : ∀ m ∈ q.listed, (q.node m).frame ≠ some f := by
      intro m hm hmf
      obtain ⟨b, hb, hbf⟩ := h.frame_live m hm f hmf
      exact hf b hb hbf
    -- two nodes with one buffer: both new, one new, both old
    by_cases e : m = n <;> by_cases e' : m' = n
    · rw [e, e']
    · subst e
      simp [e'] at hmf hmf'
      exact absurd (hmf ▸ hmf') (hfresh m' hm')
    · subst e'
      simp [e] at hmf hmf'
      exact absurd (hmf' ▸ hmf) (hfresh m hm)
    · simp [e, e'] at hmf hmf'
      exact h.frame_inj m hm m' hm' f' hmf hmf'
  frame_live m hm f' hmf := by
    by_cases e : m = n
    · subst e
      simp at hmf
      exact ⟨_, List.mem_cons_self, hmf⟩
    · simp [e] at hmf
      obtain ⟨b, hb, hbf⟩ := h.frame_live m hm f' hmf
      exact ⟨b, List.mem_cons_of_mem _ hb, hbf⟩
  live_frame b hb := by
    rcases List.mem_cons.mp hb with rfl | hb
    · exact ⟨n, mem_listed_of_free hn, by simp⟩
    · obtain ⟨m, hm, hmf⟩ := h.live_frame b hb
      have e : m ≠ n := by
        rintro rfl
        simp [hnone] at hmf
      exact ⟨m, hm, by simpa [e] using hmf⟩
  live_nodup := by
    refine List.nodup_cons.mpr ⟨fun hm => ?_, h.live_nodup⟩
    obtain ⟨b, hb, hbf⟩ := List.mem_map.mp hm
    exact hf b hb hbf
  live_kind b hb := by
    rcases List.mem_cons.mp hb with rfl | hb
    · exact hkind
    · exact h.live_kind b hb
  frees_live := h.frees_live
  ready_frame m hm := by
    have e : m ≠ n := (h.ne_of_free_ready hn hm).symm
    simpa [e] using h.ready_frame m hm
  ready_idle m hm := by
    have e : m ≠ n := (h.ne_of_free_ready hn hm).symm
    simpa [e] using h.ready_idle m hm
  free_ref m hm := by
    by_cases e : m = n
    · subst e
      simpa using h.free_ref m hm
    · simpa [e] using h.free_ref m hm
  format_eq := h.format_eq
  closed := h.closed

/-! ## Freeing a buffer -/

theorem freeFrame_none (hn : (q.node n).frame = none) : q.freeFrame format n = q := by
  simp [FrameQueueV2.freeFrame, hn]

theorem freeFrame_some {kind : BufferKind} (hn : (q.node n).frame = some f)
    (hk : bufferKind format = some kind) :
    q.freeFrame format n = q.frameBufferFree kind f := by
  simp [FrameQueueV2.freeFrame, hn, hk]

/-- The buffer of a linked node is live, and of the kind its queue frees. -/
theorem exists_buffer (h : WellFormed format q) (hn : n ∈ q.listed)
    (hf : (q.node n).frame = some f) :
    ∃ b ∈ q.live, b.addr = f ∧ bufferKind format = some b.kind := by
  obtain ⟨b, hb, hbf⟩ := h.frame_live n hn f hf
  exact ⟨b, hb, hbf, h.live_kind b hb⟩

/-- What the free of the buffer of a linked node leaves live. -/
theorem mem_live_freeFrame (h : WellFormed format q) (hn : n ∈ q.listed) (b : Buffer) :
    b ∈ (q.freeFrame format n).live ↔ b ∈ q.live ∧ (q.node n).frame ≠ some b.addr := by
  cases hf : (q.node n).frame with
  | none => simp [freeFrame_none hf]
  | some f =>
    obtain ⟨b₀, -, -, hk⟩ := h.exists_buffer hn hf
    rw [freeFrame_some hf hk]
    simp only [FrameQueueV2.frameBufferFree_live, List.mem_filter, decide_eq_true_eq, not_and]
    constructor
    · rintro ⟨hb, hne⟩
      have hkind := Option.some.inj ((h.live_kind b hb).symm.trans hk)
      exact ⟨hb, fun e => hne hkind (Option.some.inj e).symm⟩
    · rintro ⟨hb, hne⟩
      exact ⟨hb, fun _ e => hne (congrArg some e.symm)⟩

/-- It is a free of a live buffer. -/
theorem frees_live_freeFrame (h : WellFormed format q) (hn : n ∈ q.listed) :
    ∀ e ∈ (q.freeFrame format n).frees, e.wasLive = true := by
  cases hf : (q.node n).frame with
  | none =>
    rw [freeFrame_none hf]
    exact h.frees_live
  | some f =>
    obtain ⟨b, hb, hbf, hk⟩ := h.exists_buffer hn hf
    rw [freeFrame_some hf hk]
    intro e he
    rcases List.mem_cons.mp he with rfl | he
    · simpa using ⟨b, hb, rfl, hbf⟩
    · exact h.frees_live e he

theorem freeFrame_live_sublist : (q.freeFrame format n).live.Sublist q.live := by
  unfold FrameQueueV2.freeFrame
  split
  · exact List.filter_sublist
  · exact List.Sublist.refl _

/-- A free looks at the nodes and the live buffers only. -/
theorem freeFrame_live_congr (hnode : q'.node = q.node) (hlive : q'.live = q.live) :
    (q'.freeFrame format n).live = (q.freeFrame format n).live := by
  simp only [FrameQueueV2.freeFrame, hnode]
  split <;> simp [hlive]

theorem freeFrame_frees_congr (hnode : q'.node = q.node) (hlive : q'.live = q.live)
    (hfrees : q'.frees = q.frees) :
    (q'.freeFrame format n).frees = (q.freeFrame format n).frees := by
  simp only [FrameQueueV2.freeFrame, hnode]
  split <;> simp [hlive, hfrees]

/-- The buffer of a node of `free_list` is freed, and the node forgets it. -/
theorem detach (h : WellFormed format q) (hn : n ∈ q.freeList.nodes) :
    WellFormed format ((q.freeFrame format n).clearFrame n) := by
  have hl := mem_listed_of_free hn
  have hlists : ((q.freeFrame format n).clearFrame n).listed = q.listed := by
    simp [FrameQueueV2.listed, FrameQueueV2.clearFrame]
  have hnode : ∀ m, m ≠ n → ((q.freeFrame format n).clearFrame n).node m = q.node m := by
    intro m hm
    simp [FrameQueueV2.clearFrame, hm]
  -- a node that still has a buffer is another node
  have hold : ∀ m f, (((q.freeFrame format n).clearFrame n).node m).frame = some f →
      m ≠ n ∧ (q.node m).frame = some f := by
    intro m f hmf
    have hmn : m ≠ n := by
      rintro rfl
      simp [FrameQueueV2.clearFrame] at hmf
    exact ⟨hmn, by rwa [hnode m hmn] at hmf⟩
  refine ⟨?_, ?_, ?_, ?_, ?_, ?_, ?_, ?_, h.frees_live_freeFrame hl, ?_, ?_, ?_, ?_, ?_⟩
  · rw [hlists]
    exact h.nodup
  · simpa [FrameQueueV2.clearFrame] using h.freeCount
  · simpa [FrameQueueV2.clearFrame] using h.readyCount
  · intro m hm m' hm' f hmf hmf'
    rw [hlists] at hm hm'
    exact h.frame_inj m hm m' hm' f (hold m f hmf).2 (hold m' f hmf').2
  -- the buffer of another node is another buffer, so it is still live
  · intro m hm f hmf
    rw [hlists] at hm
    obtain ⟨hmn, hqf⟩ := hold m f hmf
    obtain ⟨b, hb, rfl⟩ := h.frame_live m hm f hqf
    exact ⟨b, (h.mem_live_freeFrame hl b).mpr
      ⟨hb, fun hnf => hmn (h.frame_inj m hm n hl b.addr hqf hnf)⟩, rfl⟩
  -- what is still live is the buffer of another node
  · intro b hb
    obtain ⟨hb, hbf⟩ := (h.mem_live_freeFrame hl b).mp hb
    obtain ⟨m, hm, hmf⟩ := h.live_frame b hb
    have hmn : m ≠ n := by
      rintro rfl
      exact hbf hmf
    exact ⟨m, hlists ▸ hm, by rw [hnode m hmn, hmf]⟩
  · exact h.live_nodup.sublist (List.Sublist.map _ freeFrame_live_sublist)
  · exact fun b hb => h.live_kind b ((h.mem_live_freeFrame hl b).mp hb).1
  · intro m hm
    simp only [FrameQueueV2.clearFrame, FrameQueueV2.setNode_readyList,
      FrameQueueV2.freeFrame_readyList] at hm
    rw [hnode m (h.ne_of_free_ready hn hm).symm]
    exact h.ready_frame m hm
  · intro m hm
    simp only [FrameQueueV2.clearFrame, FrameQueueV2.setNode_readyList,
      FrameQueueV2.freeFrame_readyList] at hm
    rw [hnode m (h.ne_of_free_ready hn hm).symm]
    exact h.ready_idle m hm
  · intro m hm
    simp only [FrameQueueV2.clearFrame, FrameQueueV2.setNode_freeList,
      FrameQueueV2.freeFrame_freeList] at hm
    by_cases hmn : m = n
    · subst hmn
      simpa [FrameQueueV2.clearFrame] using h.free_ref m hm
    · rw [hnode m hmn]
      exact h.free_ref m hm
  · simpa [FrameQueueV2.clearFrame] using h.format_eq
  · rw [hlists]
    simpa [FrameQueueV2.clearFrame] using h.closed

/-- A node leaves the lists and its buffer is freed. -/
theorem destroy (h : WellFormed format q) (hp : (n :: q'.listed).Perm q.listed)
    (hq : q'.node = q.node) (hlive : q'.live = q.live) (hfrees : q'.frees = q.frees)
    (hcount : q'.count = q.count) (hformat : q'.format = q.format)
    (hfree : q'.freeList.nodes ⊆ q.freeList.nodes)
    (hready : q'.readyList.nodes ⊆ q.readyList.nodes)
    (hfc : q'.freeList.count = q'.freeList.nodes.length)
    (hrc : q'.readyList.count = q'.readyList.nodes.length) :
    WellFormed format (q'.freeFrame format n) := by
  have hn : n ∈ q.listed := hp.mem_iff.mp List.mem_cons_self
  have hnd : (n :: q'.listed).Nodup := hp.nodup_iff.mpr h.nodup
  have hlists : (q'.freeFrame format n).listed = q'.listed := by simp [FrameQueueV2.listed]
  -- the nodes left are the other nodes
  have hsub : ∀ m ∈ q'.listed, m ∈ q.listed ∧ m ≠ n := by
    intro m hm
    refine ⟨hp.mem_iff.mp (List.mem_cons_of_mem _ hm), ?_⟩
    rintro rfl
    exact (List.nodup_cons.mp hnd).1 hm
  have hback : ∀ m ∈ q.listed, m ≠ n → m ∈ q'.listed := fun m hm hmn =>
    (List.mem_cons.mp (hp.mem_iff.mpr hm)).resolve_left hmn
  have hlive' : (q'.freeFrame format n).live = (q.freeFrame format n).live :=
    freeFrame_live_congr hq hlive
  refine ⟨?_, ?_, ?_, ?_, ?_, ?_, ?_, ?_, ?_, ?_, ?_, ?_, ?_, ?_⟩
  · rw [hlists]
    exact (List.nodup_cons.mp hnd).2
  · simpa using hfc
  · simpa using hrc
  · rw [hlists, FrameQueueV2.freeFrame_node, hq]
    exact fun m hm m' hm' => h.frame_inj m (hsub m hm).1 m' (hsub m' hm').1
  · rw [hlists, FrameQueueV2.freeFrame_node, hq, hlive']
    intro m hm f hmf
    obtain ⟨hm, hmn⟩ := hsub m hm
    obtain ⟨b, hb, rfl⟩ := h.frame_live m hm f hmf
    exact ⟨b, (h.mem_live_freeFrame hn b).mpr
      ⟨hb, fun hnf => hmn (h.frame_inj m hm n hn b.addr hmf hnf)⟩, rfl⟩
  · rw [hlists, FrameQueueV2.freeFrame_node, hq, hlive']
    intro b hb
    obtain ⟨hb, hbf⟩ := (h.mem_live_freeFrame hn b).mp hb
    obtain ⟨m, hm, hmf⟩ := h.live_frame b hb
    refine ⟨m, hback m hm ?_, hmf⟩
    rintro rfl
    exact hbf hmf
  · rw [hlive']
    exact h.live_nodup.sublist (List.Sublist.map _ freeFrame_live_sublist)
  · rw [hlive']
    exact fun b hb => h.live_kind b ((h.mem_live_freeFrame hn b).mp hb).1
  · rw [freeFrame_frees_congr hq hlive hfrees]
    exact h.frees_live_freeFrame hn
  · simp only [FrameQueueV2.freeFrame_node, FrameQueueV2.freeFrame_readyList, hq]
    exact fun m hm => h.ready_frame m (hready hm)
  · simp only [FrameQueueV2.freeFrame_node, FrameQueueV2.freeFrame_readyList, hq]
    exact fun m hm => h.ready_idle m (hready hm)
  · simp only [FrameQueueV2.freeFrame_node, FrameQueueV2.freeFrame_freeList, hq]
    exact fun m hm => h.free_ref m (hfree hm)
  · simpa [hcount, hformat] using h.format_eq
  · intro hc
    simp only [FrameQueueV2.freeFrame_count, hcount] at hc
    rw [h.closed hc] at hn
    simp at hn

end WellFormed

end FrameQueue

end YangIpc
