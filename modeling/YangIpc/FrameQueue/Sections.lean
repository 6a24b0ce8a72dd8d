import YangIpc.FrameQueue.WellFormed

/-!
# What each piece of an operation does

One statement for each piece of `Operations`: the cases of a search, with everything the code
knows in each of them, and the effect of the loops over the lists.  The proofs about runs use
these statements and never unfold a piece.

## Main results

* `mallocSearch_cases`, `completeFind_cases`, `getSearch_cases`, `releaseFind_cases`: the searches
* `sweepReady_induction`: a property kept by the visit of each node is kept by the sweep
* `sweepReady_view`: the completed nodes after a sweep, in order
* `registerSection_conserves`, `unregisterSection_conserves`: the sweeps keep every linked node
-/

namespace YangIpc

namespace FrameQueue

variable {format : ImageFormat} {q q' : FrameQueueV2} {n : NodeId} {f : FrameAddr}

/-! ## The searches -/

/-- The search of `malloc` reserves a free node, or reuses the oldest unheld completed node, or
finds that every free node is reserved and no completed node may be reused. -/
theorem mallocSearch_cases (format : ImageFormat) (q : FrameQueueV2) :
    (∃ n ∈ q.freeList.nodes, (q.node n).inUse = false ∧
      mallocSearch format q = (setInUse q n true, some n)) ∨
    ((∀ m ∈ q.freeList.nodes, (q.node m).inUse = true) ∧ (format = .mjpeg ∨ format = .yuv) ∧
      ∃ l₁ n l₂, q.readyList.nodes = l₁ ++ n :: l₂ ∧ (∀ m ∈ l₁, (q.node m).refCount ≠ 0) ∧
        (q.node n).refCount = 0 ∧ mallocSearch format q = (reuseNode q n, some n)) ∨
    ((∀ m ∈ q.freeList.nodes, (q.node m).inUse = true) ∧
      (format = .mjpeg ∨ format = .yuv → ∀ m ∈ q.readyList.nodes, (q.node m).refCount ≠ 0) ∧
      mallocSearch format q = (q, none)) := by
  unfold mallocSearch
  cases hfind : q.freeList.nodes.find? fun n => !(q.node n).inUse with
  | some n =>
    obtain ⟨hn, l₁, l₂, hl, -⟩ := Lists.find?_split hfind
    exact .inl ⟨n, by simp [hl], by simpa using hn, rfl⟩
  | none =>
    have hall : ∀ m ∈ q.freeList.nodes, (q.node m).inUse = true := by
      simpa [List.find?_eq_none] using hfind
    by_cases hformat : format = .mjpeg ∨ format = .yuv
    · cases hready : q.readyList.nodes.find? fun n => (q.node n).refCount = 0 with
      | some n =>
        obtain ⟨hn, l₁, l₂, hl, hbefore⟩ := Lists.find?_split hready
        exact .inr (.inl ⟨hall, hformat, l₁, n, l₂, hl, by simpa using hbefore,
          by simpa using hn, by simp [hformat]⟩)
      | none =>
        exact .inr (.inr ⟨hall, fun _ => by simpa [List.find?_eq_none] using hready,
          by simp [hformat]⟩)
    · exact .inr (.inr ⟨hall, fun h => absurd h hformat, by simp [hformat]⟩)

/-- The reserved node keeps its buffer, or gets a new one, or is given back. -/
theorem mallocFrame_cases (format : ImageFormat) (size : ℕ) (answer : Option FrameAddr)
    (q : FrameQueueV2) (n : NodeId) :
    (∃ f, (q.node n).frame = some f ∧ mallocFrame format size answer q n = (q, some f)) ∨
    (∃ kind f, (q.node n).frame = none ∧ bufferKind format = some kind ∧ answer = some f ∧
      mallocFrame format size answer q n =
        ((q.frameBufferMalloc kind size f).setNode n { q.node n with frame := some f }, some f)) ∨
    ((q.node n).frame = none ∧ (bufferKind format = none ∨ answer = none) ∧
      mallocFrame format size answer q n = (setInUse q n false, none)) := by
  unfold mallocFrame
  cases hf : (q.node n).frame with
  | some f => exact .inl ⟨f, rfl, rfl⟩
  | none =>
    cases hk : bufferKind format with
    | none => exact .inr (.inr ⟨rfl, .inl rfl, by simp [mallocAlloc, hk, mallocAttach]⟩)
    | some kind =>
      cases answer with
      | none => exact .inr (.inr ⟨rfl, .inr rfl, by simp [mallocAlloc, hk, mallocAttach]⟩)
      | some f =>
        refine .inr (.inl ⟨kind, f, rfl, rfl, rfl, ?_⟩)
        simp [mallocAlloc, hk, mallocAttach]

theorem findReserved_some (h : findReserved f q = some n) :
    n ∈ q.freeList.nodes ∧ (q.node n).inUse = true ∧ (q.node n).frame = some f := by
  obtain ⟨hn, l₁, l₂, hl, -⟩ := Lists.find?_split h
  simp only [Bool.and_eq_true, decide_eq_true_eq] at hn
  exact ⟨by simp [hl], hn.1, hn.2⟩

theorem findReserved_none (h : findReserved f q = none) :
    ∀ n ∈ q.freeList.nodes, (q.node n).inUse = true → (q.node n).frame ≠ some f := by
  simpa [findReserved, List.find?_eq_none] using h

/-- `complete` publishes a reserved node with its buffer, or changes nothing. -/
theorem completeFind_cases (f : FrameAddr) (q : FrameQueueV2) :
    (∃ n ∈ q.freeList.nodes, (q.node n).inUse = true ∧ (q.node n).frame = some f ∧
      completeFind f q = (publishNode q n, some (countActiveConsumers q.activeConsumers))) ∨
    ((∀ n ∈ q.freeList.nodes, (q.node n).inUse = true → (q.node n).frame ≠ some f) ∧
      completeFind f q = (q, none)) := by
  unfold completeFind
  cases h : findReserved f q with
  | some n =>
    obtain ⟨hn, hu, hf⟩ := findReserved_some h
    exact .inl ⟨n, hn, hu, hf, rfl⟩
  | none => exact .inr ⟨findReserved_none h, rfl⟩

/-- `cancel` gives a reserved node with its buffer back, or changes nothing. -/
theorem cancelFind_cases (f : FrameAddr) (q : FrameQueueV2) :
    (∃ n ∈ q.freeList.nodes, (q.node n).inUse = true ∧ (q.node n).frame = some f ∧
      cancelFind f q = (setInUse q n false, some n)) ∨
    ((∀ n ∈ q.freeList.nodes, (q.node n).inUse = true → (q.node n).frame ≠ some f) ∧
      cancelFind f q = (q, none)) := by
  unfold cancelFind
  cases h : findReserved f q with
  | some n =>
    obtain ⟨hn, hu, hf⟩ := findReserved_some h
    exact .inl ⟨n, hn, hu, hf, rfl⟩
  | none => exact .inr ⟨findReserved_none h, rfl⟩

/-- `get_frame` takes the first pending node, or finds none pending. -/
theorem getSearch_cases (id : Mask) (idx : Fin 8) (q : FrameQueueV2) :
    (∃ l₁ n l₂, q.readyList.nodes = l₁ ++ n :: l₂ ∧
      (∀ m ∈ l₁, (q.node m).pendingFor id = false) ∧ (q.node n).pendingFor id = true ∧
      getSearch id idx q = (holdNode id idx q n, some (q.node n).frame)) ∨
    ((∀ m ∈ q.readyList.nodes, (q.node m).pendingFor id = false) ∧
      getSearch id idx q = (q, none)) := by
  unfold getSearch
  cases h : q.readyList.nodes.find? fun n => (q.node n).pendingFor id with
  | some n =>
    obtain ⟨hn, l₁, l₂, hl, hbefore⟩ := Lists.find?_split h
    exact .inl ⟨l₁, n, l₂, hl, hbefore, hn, rfl⟩
  | none => exact .inr ⟨by simpa [List.find?_eq_none] using h, rfl⟩

/-- `release` drops a reference to the first node with this buffer, and unlinks the node when
that was the last release; or the buffer is on no completed node. -/
theorem releaseFind_cases (idx : Fin 8) (f : FrameAddr) (q : FrameQueueV2) :
    (∃ l₁ n l₂, q.readyList.nodes = l₁ ++ n :: l₂ ∧ (∀ m ∈ l₁, (q.node m).frame ≠ some f) ∧
      (q.node n).frame = some f ∧
      (((q.node n).refCount - 1 = 0 ∧ (q.node n).allAccessed = true ∧
          releaseFind idx f q = (unlinkReady (dropNode idx q n) n, some n)) ∨
        (¬((q.node n).refCount - 1 = 0 ∧ (q.node n).allAccessed = true) ∧
          releaseFind idx f q = (dropNode idx q n, none)))) ∨
    ((∀ m ∈ q.readyList.nodes, (q.node m).frame ≠ some f) ∧ releaseFind idx f q = (q, none)) := by
  unfold releaseFind
  cases h : q.readyList.nodes.find? fun n => (q.node n).frame = some f with
  | some n =>
    obtain ⟨hn, l₁, l₂, hl, hbefore⟩ := Lists.find?_split h
    refine .inl ⟨l₁, n, l₂, hl, by simpa using hbefore, by simpa using hn, ?_⟩
    have href : ((dropNode idx q n).node n).refCount = (q.node n).refCount - 1 := by
      simp only [dropNode_node, Function.update_self]
      split <;> omega
    have hall : ((dropNode idx q n).node n).allAccessed = (q.node n).allAccessed := by
      simp [FrameNode.allAccessed]
    simp only [href, hall]
    -- `should_final_release`
    by_cases hlast : (q.node n).refCount - 1 = 0 ∧ (q.node n).allAccessed = true
    · exact .inl ⟨hlast.1, hlast.2, by simp [hlast]⟩
    · exact .inr ⟨hlast, by simp only [if_neg hlast]⟩
  | none => exact .inr ⟨by simpa [List.find?_eq_none] using h, rfl⟩

/-! ## The sweep over `ready_list` -/

section Sweep

variable {visit : FrameNode → FrameNode × Bool} {stat : ℕ}

/-- The state after the visit of one node. -/
def sweepNode (visit : FrameNode → FrameNode × Bool) (stat : ℕ) (q : FrameQueueV2) (n : NodeId) :
    FrameQueueV2 :=
  if (visit (q.node n)).2 then
    { recycleNode (q.setNode n (visit (q.node n)).1) n with totalFree := q.totalFree + stat }
  else q.setNode n (visit (q.node n)).1

theorem sweepReady_cons (rest : List NodeId) :
    sweepReady visit stat (n :: rest) q =
      sweepReady visit stat rest (sweepNode visit stat q n) := by
  simp only [sweepReady, sweepNode]
  split <;> simp [*]

theorem sweepNode_node : (sweepNode visit stat q n).node = Function.update q.node n
    (if (visit (q.node n)).2 then (visit (q.node n)).1.reset else (visit (q.node n)).1) := by
  unfold sweepNode
  split
  · funext m
    by_cases hm : m = n
    · subst hm
      simp
    · simp [hm]
  · rfl

theorem sweepNode_readyList : (sweepNode visit stat q n).readyList.nodes =
    if (visit (q.node n)).2 then q.readyList.nodes.erase n else q.readyList.nodes := by
  unfold sweepNode
  split <;> rfl

theorem sweepNode_ready {m : NodeId} (hm : m ∈ q.readyList.nodes) (hmn : m ≠ n) :
    m ∈ (sweepNode visit stat q n).readyList.nodes := by
  unfold sweepNode
  split
  · exact (List.mem_erase_of_ne hmn).mpr hm
  · exact hm

variable (visit stat) in
/-- **The rule for sweeps.** A property that the visit of a completed node keeps is kept by the
sweep over distinct completed nodes. -/
theorem sweepReady_induction {P : FrameQueueV2 → Prop}
    (hstep : ∀ q n, P q → n ∈ q.readyList.nodes → P (sweepNode visit stat q n)) :
    ∀ (l : List NodeId) (q : FrameQueueV2), l.Nodup → (∀ m ∈ l, m ∈ q.readyList.nodes) → P q →
      P (sweepReady visit stat l q) := by
  intro l
  induction l with
  | nil => exact fun q _ _ hq => hq
  | cons n rest ih =>
    intro q hnd hl hq
    -- the nodes still to be visited are other nodes, so they stay on `ready_list`
    rw [sweepReady_cons]
    have hn := List.nodup_cons.mp hnd
    refine ih _ hn.2 (fun m hm => ?_) (hstep q n hq (hl n List.mem_cons_self))
    exact sweepNode_ready (hl m (List.mem_cons_of_mem _ hm)) fun e => hn.1 (e ▸ hm)

/-- What a sweep leaves of one completed node: nothing, or the visited node. -/
def kept (visit : FrameNode → FrameNode × Bool) (x : FrameNode) : Option FrameNode :=
  if (visit x).2 then none else some (visit x).1

variable (visit stat) in
/-- The completed nodes after a sweep, oldest first, seen through a function of the node's
address and contents. -/
theorem sweepReady_view {γ : Type*} (g : NodeId → FrameNode → γ) :
    ∀ (l pre : List NodeId) (q : FrameQueueV2), q.readyList.nodes = pre ++ l →
      (pre ++ l).Nodup →
      (sweepReady visit stat l q).readyList.nodes.map
          (fun m => g m ((sweepReady visit stat l q).node m)) =
        pre.map (fun m => g m (q.node m)) ++
          l.filterMap fun m => (kept visit (q.node m)).map (g m) := by
  -- Induction on the nodes still to be visited; `pre` are those visited and kept.
  intro l
  induction l with
  | nil =>
    intro pre q hl _
    simp [sweepReady, hl]
  | cons n rest ih =>
    intro pre q hl hnd
    rw [sweepReady_cons]
    have hpre : n ∉ pre := fun hn => (List.nodup_append.mp hnd).2.2 n hn n (by simp) rfl
    have hrest : n ∉ rest := (List.nodup_cons.mp (List.nodup_append.mp hnd).2.1).1
    -- The visit of `n` does not change what a later visit sees.
    have hkept : ∀ x, rest.filterMap (fun m =>
          (kept visit (Function.update q.node n x m)).map (g m)) =
        rest.filterMap fun m => (kept visit (q.node m)).map (g m) := by
      intro x
      apply List.filterMap_congr
      intro m hm
      have hmn : m ≠ n := by
        rintro rfl
        exact hrest hm
      rw [Function.update_of_ne hmn]
    by_cases hdead : (visit (q.node n)).2 = true
    · -- the node is recycled
      have hready : (sweepNode visit stat q n).readyList.nodes = pre ++ rest := by
        rw [sweepNode_readyList, if_pos hdead, hl, Lists.erase_split hnd]
      rw [ih pre _ hready (hnd.sublist (by simp)), sweepNode_node, if_pos hdead,
        Lists.map_update_of_notMem hpre, hkept]
      simp [kept, hdead]
    · -- the node stays, and joins those already visited
      have hready : (sweepNode visit stat q n).readyList.nodes = (pre ++ [n]) ++ rest := by
        rw [sweepNode_readyList, if_neg hdead]
        simpa using hl
      rw [ih (pre ++ [n]) _ hready (by simpa using hnd), sweepNode_node, if_neg hdead, hkept,
        List.map_append, Lists.map_update_of_notMem hpre]
      simp [kept, hdead]

theorem sweepNode_perm (hn : n ∈ q.readyList.nodes) :
    (sweepNode visit stat q n).listed.Perm q.listed := by
  unfold sweepNode
  split
  · exact Lists.perm_move_tail hn
  · exact .refl _

theorem sweepNode_counted (hn : n ∈ q.readyList.nodes) (hc : q.Counted) :
    (sweepNode visit stat q n).Counted := by
  unfold sweepNode
  split
  · simp [FrameQueueV2.Counted, hc.1, hc.2, List.length_erase_of_mem hn]
  · exact hc

/-- A sweep loses no node. -/
theorem sweepReady_perm (h : q.readyList.nodes.Nodup) :
    (sweepReady visit stat q.readyList.nodes q).listed.Perm q.listed :=
  sweepReady_induction _ _ (P := fun q' => q'.listed.Perm q.listed)
    (fun _ _ hp hn => (sweepNode_perm hn).trans hp) _ q h (fun _ hm => hm) (.refl _)

/-- A sweep keeps the counts. -/
theorem sweepReady_counted (h : q.readyList.nodes.Nodup) (hc : q.Counted) :
    (sweepReady visit stat q.readyList.nodes q).Counted :=
  sweepReady_induction _ _ (P := FrameQueueV2.Counted)
    (fun _ _ hc hn => sweepNode_counted hn hc) _ q h (fun _ hm => hm) hc

/-- A sweep keeps whatever the visit of one node keeps. -/
theorem sweepReady_congr {γ : Type*} (g : FrameQueueV2 → γ)
    (hg : ∀ q n, g (sweepNode visit stat q n) = g q) (l : List NodeId) :
    ∀ q, g (sweepReady visit stat l q) = g q := by
  induction l with
  | nil => exact fun _ => rfl
  | cons n rest ih =>
    intro q
    rw [sweepReady_cons, ih, hg]

theorem sweepReady_frees (l : List NodeId) (q : FrameQueueV2) :
    (sweepReady visit stat l q).frees = q.frees := by
  refine sweepReady_congr FrameQueueV2.frees (fun q n => ?_) l q
  unfold sweepNode
  split <;> rfl

theorem sweepReady_activeConsumers (l : List NodeId) (q : FrameQueueV2) :
    (sweepReady visit stat l q).activeConsumers = q.activeConsumers := by
  refine sweepReady_congr FrameQueueV2.activeConsumers (fun q n => ?_) l q
  unfold sweepNode
  split <;> rfl

theorem sweepReady_count (l : List NodeId) (q : FrameQueueV2) :
    (sweepReady visit stat l q).count = q.count := by
  refine sweepReady_congr FrameQueueV2.count (fun q n => ?_) l q
  unfold sweepNode
  split <;> rfl

end Sweep

theorem cleanFree_lists (l : List NodeId) :
    ∀ q, (cleanFree l q).freeList = q.freeList ∧ (cleanFree l q).readyList = q.readyList := by
  induction l with
  | nil => exact fun _ => ⟨rfl, rfl⟩
  | cons n rest ih =>
    intro q
    obtain ⟨hf, hr⟩ :=
      ih (((q.setNode n { q.node n with inUse := false }).freeFrame q.format n).clearFrame n)
    exact ⟨hf.trans (by simp [FrameQueueV2.clearFrame]),
      hr.trans (by simp [FrameQueueV2.clearFrame])⟩

theorem cleanFree_masks (l : List NodeId) :
    ∀ q, (cleanFree l q).activeConsumers = q.activeConsumers ∧
      (cleanFree l q).count = q.count := by
  induction l with
  | nil => exact fun _ => ⟨rfl, rfl⟩
  | cons n rest ih =>
    intro q
    obtain ⟨ha, hc⟩ :=
      ih (((q.setNode n { q.node n with inUse := false }).freeFrame q.format n).clearFrame n)
    exact ⟨ha.trans (by simp [FrameQueueV2.clearFrame]),
      hc.trans (by simp [FrameQueueV2.clearFrame])⟩

/-- Registering loses no node and keeps the counts. -/
theorem registerSection_conserves (id : Mask) (idx : Fin 8) (h : q.readyList.nodes.Nodup)
    (hc : q.Counted) :
    (registerSection id idx q).listed.Perm q.listed ∧ (registerSection id idx q).Counted := by
  let q₁ := { q with
    consumers := Function.update q.consumers idx ⟨id, 0, 0, true⟩
    activeConsumers := q.activeConsumers ||| id }
  exact ⟨sweepReady_perm (q := q₁) h, sweepReady_counted (q := q₁) h hc⟩

/-- Unregistering loses no node and keeps the counts. -/
theorem unregisterSection_conserves (id : Mask) (idx : Fin 8) (h : q.readyList.nodes.Nodup)
    (hc : q.Counted) :
    (unregisterSection id idx q).listed.Perm q.listed ∧ (unregisterSection id idx q).Counted := by
  let q₁ := { q with
    activeConsumers := q.activeConsumers &&& ~~~id
    consumers := Function.update q.consumers idx { q.consumers idx with enabled := false } }
  exact ⟨sweepReady_perm (q := q₁) h, sweepReady_counted (q := q₁) h hc⟩

end FrameQueue

end YangIpc
