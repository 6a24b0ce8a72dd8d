import YangIpc.FrameQueue.Refinement
import YangIpc.FrameQueue.Wakeup

/-!
# Where interleaved calls take effect

An interleaved call has at most one piece that matters to the completed frames: the search of
`malloc`, `complete`, `get_frame` or `release`, or the section of `register` or `unregister`.  There
it does to the broadcast queue what the call does when it is run alone, however its other pieces
are mixed with those of other calls; they only touch nodes that are not on `ready_list`.

## Main definitions

* `Aside`: what a piece does that does not touch the completed frames
* `Effect`: everything a piece can do
* `Tidy`: what is left, between two pieces, of the invariant of a queue between two calls
* `Leaves`: what a piece leaves to the next
* `Pc.record`: what the history learns from a piece

## Main results

* `exec_effect`: what each piece does
* `Effect.refines`: a piece is at most one step of the broadcast queue
* `Effect.leaves`: what each piece preserves
-/

namespace YangIpc

namespace FrameQueue

open Transition Bits Broadcast

variable {format : ImageFormat} {q q' : FrameQueueV2} {env : Env} {pc : Pc} {next : Next}
  {n m : NodeId} {f : FrameAddr} {id : Mask} {idx : Fin 8} {h : History}

/-! ## The history of interleaved calls -/

/-- What the history learns from a piece.  A call is recorded at its search or section. -/
def Pc.record (q : FrameQueueV2) (h : History) : Pc → Next → History
  | .completeFind f, .goto _ => h.record q (.complete (some f)) (.status true)
  | .getSearch id _, .done result => h.record q (.getFrame id 0) result
  | .releaseFind idx f, _ => h.record q (.releaseFrame (consumerBit idx) (some f)) .unit
  | .register id _, _ => h.record q (.registerConsumer id) (.status true)
  | _, _ => h

/-! ## What a piece can do -/

/-- A piece that leaves `ready_list`, its nodes and the consumers alone.  A node it puts on
`free_list` is one that `release` has reset. -/
structure Aside (pc : Pc) (q q' : FrameQueueV2) (next : Next) : Prop where
  ready : q'.readyList = q.readyList
  active : q'.activeConsumers = q.activeConsumers
  completed : ∀ m ∈ q.readyList.nodes, q'.node m = q.node m
  unlisted : ∀ m, m ∉ q.listed → pc.role.looseNode ≠ some m → q'.node m = q.node m
  free : ∀ m ∈ q'.freeList.nodes, (m ∈ q.freeList.nodes ∧
    ((q'.node m).refCount = (q.node m).refCount ∨ (q'.node m).refCount = 0)) ∨
      pc = .releaseAppend m ∧ q'.node m = q.node m
  reset : ∀ m, next = .goto (.releaseAppend m) → (q'.node m).refCount = 0
  unrecorded : ∀ h, pc.record q h next = h

/-- Everything a piece can do. -/
inductive Effect (format : ImageFormat) (q : FrameQueueV2) : Pc → FrameQueueV2 → Next → Prop
  | aside (pc : Pc) (q' : FrameQueueV2) (next : Next) (aside : Aside pc q q' next) :
      Effect format q pc q' next
  /-- `complete` publishes a node -/
  | publish (f : FrameAddr) (n : NodeId) (free : n ∈ q.freeList.nodes)
      (frame : (q.node n).frame = some f) :
      Effect format q (.completeFind f) (publishNode q n)
        (.goto (.completePost (signalCount (countActiveConsumers q.activeConsumers))))
  /-- `get_frame` takes the first node pending for the consumer -/
  | hold (id : Mask) (idx : Fin 8) (l₁ : List NodeId) (n : NodeId) (l₂ : List NodeId)
      (split : q.readyList.nodes = l₁ ++ n :: l₂)
      (before : ∀ m ∈ l₁, (q.node m).pendingFor id = false)
      (pending : (q.node n).pendingFor id = true) :
      Effect format q (.getSearch id idx) (holdNode id idx q n)
        (.done (.frame (q.node n).frame))
  /-- `release` drops a reference that is not the last -/
  | drop (idx : Fin 8) (f : FrameAddr) (l₁ : List NodeId) (n : NodeId) (l₂ : List NodeId)
      (split : q.readyList.nodes = l₁ ++ n :: l₂) (frame : (q.node n).frame = some f)
      (more : ¬((q.node n).refCount - 1 = 0 ∧ (q.node n).allAccessed = true)) :
      Effect format q (.releaseFind idx f) (dropNode idx q n) (.done .unit)
  /-- `release` unlinks the node after its last reference -/
  | unlink (idx : Fin 8) (f : FrameAddr) (l₁ : List NodeId) (n : NodeId) (l₂ : List NodeId)
      (split : q.readyList.nodes = l₁ ++ n :: l₂) (frame : (q.node n).frame = some f)
      (last : (q.node n).refCount - 1 = 0) (done : (q.node n).allAccessed = true) :
      Effect format q (.releaseFind idx f) (unlinkReady (dropNode idx q n) n)
        (.goto (.releaseFree n))
  /-- `release` finds no node -/
  | miss (idx : Fin 8) (f : FrameAddr) (none : ∀ m ∈ q.readyList.nodes, (q.node m).frame ≠ some f) :
      Effect format q (.releaseFind idx f) q (.done .unit)
  /-- `malloc` takes a completed node that nobody holds -/
  | reuse (size : ℕ) (l₁ : List NodeId) (n : NodeId) (l₂ : List NodeId)
      (split : q.readyList.nodes = l₁ ++ n :: l₂) (unheld : (q.node n).refCount = 0)
      (reuses : format ≠ .h264) :
      Effect format q (.mallocSearch size) (reuseNode q n) (.goto (.mallocFrame size n))
  | register (id : Mask) (idx : Fin 8) :
      Effect format q (.register id idx) (registerSection id idx q) (.done (.status true))
  | unregister (id : Mask) (idx : Fin 8) :
      Effect format q (.unregister id idx) (unregisterSection id idx q) (.done (.status true))

/-! ## Pieces that stay aside -/

/-- A piece that changes neither the lists nor a node. -/
theorem Effect.same (hfree : q'.freeList = q.freeList) (hready : q'.readyList = q.readyList)
    (hnode : q'.node = q.node) (hactive : q'.activeConsumers = q.activeConsumers)
    (hreset : ∀ m, next ≠ .goto (.releaseAppend m)) (hrecord : ∀ h, pc.record q h next = h) :
    Effect format q pc q' next := by
  refine .aside _ _ _ ⟨hready, hactive, fun m _ => congrFun hnode m, fun m _ _ => congrFun hnode m,
    fun m hm => .inl ⟨hfree ▸ hm, .inl ?_⟩, fun m hm => absurd hm (hreset m), hrecord⟩
  rw [hnode]

/-- A piece that stores a node of `free_list`. -/
theorem Effect.setNode {x : FrameNode} (hnd : q.listed.Nodup) (hn : n ∈ q.freeList.nodes)
    (hx : x.refCount = (q.node n).refCount ∨ x.refCount = 0)
    (hreset : ∀ m, next ≠ .goto (.releaseAppend m)) (hrecord : ∀ h, pc.record q h next = h) :
    Effect format q pc (q.setNode n x) next := by
  have hother : ∀ m, m ∈ q.readyList.nodes ∨ m ∉ q.listed → m ≠ n := by
    rintro m (hm | hm) rfl
    · exact (List.nodup_append.mp hnd).2.2 m hn m hm rfl
    · exact hm (mem_listed_of_free hn)
  refine .aside _ _ _ ⟨rfl, rfl, fun m hm => Function.update_of_ne (hother m (.inl hm)) _ _,
    fun m hm _ => Function.update_of_ne (hother m (.inr hm)) _ _, fun m hm => .inl ⟨hm, ?_⟩,
    fun m hm => absurd hm (hreset m), hrecord⟩
  by_cases hmn : m = n
  · subst hmn
    simpa using hx
  · exact .inl (by simp [hmn])

/-- A piece of `release` that stores the node it has unlinked. -/
theorem Effect.loose {x : FrameNode} (hloose : pc.role.looseNode = some n) (hn : n ∉ q.listed)
    (hreset : ∀ m, next = .goto (.releaseAppend m) → m = n ∧ x.refCount = 0)
    (hrecord : ∀ h, pc.record q h next = h) : Effect format q pc (q.setNode n x) next := by
  have hother : ∀ m, m ∈ q.listed ∨ pc.role.looseNode ≠ some m → m ≠ n := by
    rintro m (hm | hm) rfl
    · exact hn hm
    · exact hm hloose
  refine .aside _ _ _ ⟨rfl, rfl,
    fun m hm => Function.update_of_ne (hother m (.inl (mem_listed_of_ready hm))) _ _,
    fun m _ hm => Function.update_of_ne (hother m (.inr hm)) _ _,
    fun m hm => .inl ⟨hm, .inl ?_⟩, fun m hm => ?_, hrecord⟩
  · simp [hother m (.inl (mem_listed_of_free hm))]
  · obtain ⟨rfl, hx⟩ := hreset m hm
    simpa using hx

variable (format env) in
/-- **What each piece does.** -/
theorem exec_effect {strict : Prop} (hnd : q.listed.Nodup) (hs : pc.role.Sound strict q) :
    Effect format q pc (pc.exec format env q).1 (pc.exec format env q).2 := by
  cases pc with
  -- a free node is only reserved; a completed one leaves `ready_list`
  | mallocSearch size =>
    rcases mallocSearch_cases format q with ⟨n, hn, -, he⟩ |
      ⟨-, hformat, l₁, n, l₂, hl, -, href, he⟩ | ⟨-, -, he⟩ <;> simp only [Pc.exec, he]
    · exact .setNode hnd hn (.inl rfl) (by simp) fun _ => rfl
    · refine .reuse size l₁ n l₂ hl href ?_
      rintro rfl
      simp at hformat
    · exact .same rfl rfl rfl rfl (by simp) fun _ => rfl
  | mallocFrame size n =>
    cases hf : (q.node n).frame <;> simp only [Pc.exec, hf] <;>
      exact .same rfl rfl rfl rfl (by simp) fun _ => rfl
  | mallocAlloc size n =>
    simp only [Pc.exec, FrameQueue.mallocAlloc]
    split <;> exact .same rfl rfl rfl rfl (by simp) fun _ => rfl
  -- the node of a `malloc` in flight stays on `free_list`, where consumers do not look
  | mallocAttach n answer =>
    have hn := (hs.malloc n rfl).1
    cases answer <;>
      exact .setNode hnd hn (.inl rfl) (by simp [Pc.exec, FrameQueue.mallocAttach])
        fun _ => rfl
  | mallocReset n frame =>
    exact .setNode hnd (hs.malloc n rfl).1 (.inr rfl) (by simp [Pc.exec]) fun _ => rfl
  | mallocMask n frame =>
    exact .setNode hnd (hs.malloc n rfl).1 (.inl rfl) (by simp [Pc.exec]) fun _ => rfl
  | mallocDone frame => exact .same rfl rfl rfl rfl (by simp [Pc.exec]) fun _ => rfl
  | completeFind frame =>
    rcases completeFind_cases frame q with ⟨n, hn, -, hf, he⟩ | ⟨-, he⟩ <;> simp only [Pc.exec, he]
    · exact .publish frame n hn hf
    · exact .same rfl rfl rfl rfl (by simp) fun _ => rfl
  | completePost left =>
    cases left <;> exact .same rfl rfl rfl rfl (by simp [Pc.exec]) fun _ => rfl
  | completeDone => exact .same rfl rfl rfl rfl (by simp [Pc.exec]) fun _ => rfl
  | cancelFind frame =>
    rcases cancelFind_cases frame q with ⟨n, hn, -, -, he⟩ | ⟨-, he⟩ <;> simp only [Pc.exec, he]
    · exact .setNode hnd hn (.inl rfl) (by simp) fun _ => rfl
    · exact .same rfl rfl rfl rfl (by simp) fun _ => rfl
  | cancelFree n =>
    cases hf : (q.node n).frame <;> simp only [Pc.exec, hf] <;>
      exact .same (by simp) (by simp) (by simp) (by simp) (by simp) fun _ => rfl
  | cancelClear n =>
    exact .setNode hnd (hs.cancel n rfl) (.inl rfl) (by simp [Pc.exec]) fun _ => rfl
  | getEnabled id =>
    cases he : FrameQueue.getEnabled id q <;> simp only [Pc.exec, he] <;>
      exact .same rfl rfl rfl rfl (by simp) fun _ => rfl
  | getSearch id idx =>
    rcases getSearch_cases id idx q with ⟨l₁, n, l₂, hl, hb, hn, he⟩ | ⟨-, he⟩ <;>
      simp only [Pc.exec, he]
    · exact .hold id idx l₁ n l₂ hl hb hn
    · exact .same rfl rfl rfl rfl (by simp) fun _ => rfl
  | getWait id idx =>
    simp only [Pc.exec]
    split
    · exact .same rfl rfl rfl rfl (by simp) fun _ => rfl
    · split <;> exact .same rfl rfl rfl rfl (by simp) fun _ => rfl
  | releaseFind idx frame =>
    rcases releaseFind_cases idx frame q with
      ⟨l₁, n, l₂, hl, -, hf, ⟨href, hall, he⟩ | ⟨hmore, he⟩⟩ | ⟨hmiss, he⟩ <;>
      simp only [Pc.exec, he]
    · exact .unlink idx frame l₁ n l₂ hl hf href hall
    · exact .drop idx frame l₁ n l₂ hl hf hmore
    · exact .miss idx frame hmiss
  | releaseFree n =>
    cases hf : (q.node n).frame <;> simp only [Pc.exec, hf] <;>
      exact .same (by simp) (by simp) (by simp) (by simp) (by simp) fun _ => rfl
  -- from here on the node is on no list until it is appended
  | releaseClear n =>
    exact .loose rfl (hs.loose n rfl) (by simp [Pc.exec]) fun _ => rfl
  | releaseReset n =>
    refine .loose rfl (hs.loose n rfl) (fun m hm => ?_) fun _ => rfl
    obtain rfl : n = m := by simpa [Pc.exec] using hm
    exact ⟨rfl, rfl⟩
  | releaseAppend n =>
    refine .aside _ _ _ ⟨rfl, rfl, fun _ _ => rfl, fun _ _ _ => rfl, fun m hm => ?_,
      by simp [Pc.exec], fun _ => rfl⟩
    rcases List.mem_append.mp hm with hm | hm
    · exact .inl ⟨hm, .inl rfl⟩
    · obtain rfl := List.mem_singleton.mp hm
      exact .inr ⟨rfl, rfl⟩
  | releaseDone => exact .same rfl rfl rfl rfl (by simp [Pc.exec]) fun _ => rfl
  | register id idx => exact .register id idx
  | unregister id idx => exact .unregister id idx
  -- `clear_all` does not run among other calls
  | clearReady => exact absurd rfl hs.wipe
  | clearFree => exact absurd rfl hs.wipe

/-! ## Steps of the broadcast queue -/

/-- Completed nodes have a buffer, and free nodes have no holder. -/
structure Filled (q : FrameQueueV2) : Prop where
  ready_frame : ∀ n ∈ q.readyList.nodes, (q.node n).frame ≠ none
  free_ref : ∀ n ∈ q.freeList.nodes, (q.node n).refCount = 0

/-- What holds of a queue between two pieces: besides, nodes are linked once, and linked nodes have
different buffers. -/
structure Tidy (q : FrameQueueV2) : Prop extends Filled q where
  nodup : q.listed.Nodup
  frame_inj : ∀ n ∈ q.listed, ∀ m ∈ q.listed, ∀ f,
    (q.node n).frame = some f → (q.node m).frame = some f → n = m

/-- The steps of the broadcast queue a piece may stand for. -/
def Pc.Causes (format : ImageFormat) (pc : Pc) : Event Mask FrameAddr → Prop
  | .publish f => pc = .completeFind f
  | .deliver id _ => ∃ idx, pc = .getSearch id idx
  | .release id f => ∃ idx, id = consumerBit idx ∧ pc = .releaseFind idx f
  | .discard _ => format ≠ .h264 ∧ ∃ size, pc = .mallocSearch size
  | .register id => ∃ idx, pc = .register id idx
  | .unregister id => ∃ idx, pc = .unregister id idx
  | .clear => False
  | .idle => True

/-- Every index belongs to a valid id. -/
theorem consumerIdx_consumerBit : ∀ idx : Fin 8, consumerIdx (consumerBit idx) = some idx := by
  decide

theorem valid_consumerBit (idx : Fin 8) : Valid (consumerBit idx) := by
  rw [Valid, consumerIdx_consumerBit]
  exact Option.some_ne_none idx

namespace Tidy

variable {l₁ l₂ : List NodeId}

theorem ready_nodup (hq : Tidy q) : q.readyList.nodes.Nodup :=
  (List.nodup_append.mp hq.nodup).2.1

theorem notMem_ready (hq : Tidy q) (hn : n ∈ q.freeList.nodes) : n ∉ q.readyList.nodes :=
  fun hm => (List.nodup_append.mp hq.nodup).2.2 n hn n hm rfl

/-- The item of the entry of a completed node is its buffer. -/
theorem item_eq_iff (hq : Tidy q) (hn : n ∈ q.readyList.nodes) :
    (entryOf n (q.node n)).item = f ↔ (q.node n).frame = some f := by
  obtain ⟨g, hg⟩ := Option.ne_none_iff_exists'.mp (hq.ready_frame n hn)
  simp [entryOf, hg]

/-- `complete` publishes. -/
theorem step_publish (hq : Tidy q) (hn : n ∈ q.freeList.nodes) (hf : (q.node n).frame = some f) :
    Step bits Valid (World.mk q h).abstract (.publish f)
      (World.mk (publishNode q n) (h.record q (.complete (some f)) (.status true))).abstract := by
  have hentries : (publishNode q n).entries =
      q.entries ++ [⟨n, f, bits q.activeConsumers, ∅, 0⟩] := by
    simp only [FrameQueueV2.entries, publishNode_readyList, frameListAddTailNolock_nodes,
      publishNode_node, List.map_append, List.map_cons, List.map_nil]
    rw [Lists.map_update_of_notMem (hq.notMem_ready hn)]
    simp [entryOf, hf, hq.free_ref n hn]
  -- no other linked node has this buffer
  have hfresh : ∀ e ∈ q.entries, e.item ≠ f := by
    intro e he hef
    obtain ⟨m, hm, rfl⟩ := mem_entries.mp he
    obtain rfl := hq.frame_inj n (mem_listed_of_free hn) m (mem_listed_of_ready hm) f hf
      ((hq.item_eq_iff hm).mp hef)
    exact hq.notMem_ready hn hm
  have hpost : (World.mk (publishNode q n)
      (h.record q (.complete (some f)) (.status true))).abstract =
      { (World.mk q h).abstract with
        entries := q.entries ++ [⟨n, f, bits q.activeConsumers, ∅, 0⟩]
        completed := h.completed + 1
        stamp := Function.update h.stamp f h.completed
        activeAt :=
          Function.update (fun g => bits (h.activeAt g)) f (bits q.activeConsumers) } := by
    unfold World.abstract
    rw [hentries]
    simp only [History.record, publishNode_activeConsumers]
    congr 1
    funext g
    by_cases hg : g = f
    · subst hg
      simp
    · simp [hg]
  rw [hpost]
  exact .publish _ n f hfresh

/-- `get_frame` delivers. -/
theorem step_deliver (hq : Tidy q) (hl : q.readyList.nodes = l₁ ++ n :: l₂)
    (hbefore : ∀ m ∈ l₁, (q.node m).pendingFor id = false)
    (hn : (q.node n).pendingFor id = true) (hid : Valid id) :
    Step bits Valid (World.mk q h).abstract (.deliver id (entryOf n (q.node n)).item)
      (World.mk (holdNode id idx q n)
        (h.record q (.getFrame id 0) (.frame (q.node n).frame))).abstract := by
  obtain ⟨f, hf⟩ := Option.ne_none_iff_exists'.mp (hq.ready_frame n (by simp [hl]))
  have hitem : (entryOf n (q.node n)).item = f := by simp [entryOf, hf]
  have hentries := entries_update (holdNode id idx q n) hl hq.ready_nodup rfl rfl
  have hpost : (World.mk (holdNode id idx q n)
      (h.record q (.getFrame id 0) (.frame (q.node n).frame))).abstract =
      { (World.mk q h).abstract with
        entries := l₁.map (fun m => entryOf m (q.node m)) ++
          (entryOf n (q.node n)).take (bits id) :: l₂.map fun m => entryOf m (q.node m)
        holds := insert (id, (entryOf n (q.node n)).item) h.holds
        delivered := Function.update h.delivered id
          (h.delivered id ++ [h.stamp (entryOf n (q.node n)).item]) } := by
    unfold World.abstract
    rw [hentries, hitem, hf]
    simp [History.record, entryOf, Entry.take, hf]
  rw [hpost]
  refine .deliver _ id _ _ _ (entries_split hl) ?_ (waits_entryOf.mpr hn) hid
  intro e he
  obtain ⟨m, hm, rfl⟩ := List.mem_map.mp he
  rw [waits_entryOf, hbefore m hm]
  exact Bool.false_ne_true

/-- `release` drops a reference. -/
theorem step_drop (hq : Tidy q) (hl : q.readyList.nodes = l₁ ++ n :: l₂)
    (hf : (q.node n).frame = some f)
    (hmore : ¬((q.node n).refCount - 1 = 0 ∧ (q.node n).allAccessed = true)) :
    Step bits Valid (World.mk q h).abstract (.release id f)
      (World.mk (dropNode idx q n) (h.record q (.releaseFrame id (some f)) .unit)).abstract := by
  have hitem : (entryOf n (q.node n)).item = f := by simp [entryOf, hf]
  have hdrop : (if 0 < (q.node n).refCount then (q.node n).refCount - 1
      else (q.node n).refCount) = (q.node n).refCount - 1 := by
    split <;> omega
  have hentries := entries_update (dropNode idx q n) hl hq.ready_nodup rfl rfl
  have hpost : (World.mk (dropNode idx q n)
      (h.record q (.releaseFrame id (some f)) .unit)).abstract =
      { (World.mk q h).abstract with
        entries := l₁.map (fun m => entryOf m (q.node m)) ++
          (entryOf n (q.node n)).drop :: l₂.map fun m => entryOf m (q.node m)
        holds := h.holds.erase (id, f) } := by
    unfold World.abstract
    rw [hentries, hdrop]
    rfl
  rw [hpost, ← hitem]
  exact .release _ id _ _ _ (entries_split hl) fun hlast => hmore ⟨hlast.1, done_entryOf.mp hlast.2⟩

/-- `release` drops the last reference. -/
theorem step_unlink (hq : Tidy q) (hl : q.readyList.nodes = l₁ ++ n :: l₂)
    (hf : (q.node n).frame = some f) (hlast : (q.node n).refCount - 1 = 0)
    (hdone : (q.node n).allAccessed = true) :
    Step bits Valid (World.mk q h).abstract (.release id f)
      (World.mk (unlinkReady (dropNode idx q n) n)
        (h.record q (.releaseFrame id (some f)) .unit)).abstract := by
  have hitem : (entryOf n (q.node n)).item = f := by simp [entryOf, hf]
  have hentries := entries_erase (unlinkReady (dropNode idx q n) n) hl hq.ready_nodup rfl
    fun m hm => by simp [hm]
  have hpost : (World.mk (unlinkReady (dropNode idx q n) n)
      (h.record q (.releaseFrame id (some f)) .unit)).abstract =
      { (World.mk q h).abstract with
        entries := l₁.map (fun m => entryOf m (q.node m)) ++ l₂.map fun m => entryOf m (q.node m)
        holds := h.holds.erase (id, f) } := by
    unfold World.abstract
    rw [hentries]
    rfl
  rw [hpost, ← hitem]
  exact .releaseLast _ id _ _ _ (entries_split hl) hlast (done_entryOf.mpr hdone)

/-- `release` finds nothing. -/
theorem step_miss (hq : Tidy q) (hmiss : ∀ m ∈ q.readyList.nodes, (q.node m).frame ≠ some f) :
    Step bits Valid (World.mk q h).abstract (.release id f)
      (World.mk q (h.record q (.releaseFrame id (some f)) .unit)).abstract := by
  refine .releaseMiss (World.mk q h).abstract id f (.inl fun e he hef => ?_)
  obtain ⟨m, hm, rfl⟩ := mem_entries.mp he
  exact hmiss m hm ((hq.item_eq_iff hm).mp hef)

/-- `malloc` discards. -/
theorem step_discard (hq : Tidy q) (hl : q.readyList.nodes = l₁ ++ n :: l₂)
    (href : (q.node n).refCount = 0) :
    Step bits Valid (World.mk q h).abstract (.discard (entryOf n (q.node n)).item)
      (World.mk (reuseNode q n) h).abstract := by
  have hentries := entries_erase (reuseNode q n) hl hq.ready_nodup rfl fun m hm => by simp [hm]
  have hpost : (World.mk (reuseNode q n) h).abstract =
      { (World.mk q h).abstract with
        entries := l₁.map (fun m => entryOf m (q.node m)) ++
          l₂.map fun m => entryOf m (q.node m) } := by
    unfold World.abstract
    rw [hentries]
    rfl
  rw [hpost]
  exact .discard _ _ _ _ (entries_split hl) href

/-- Registering drops the frames meant for nobody and held by nobody. -/
theorem entries_register (hq : Tidy q) (id : Mask) (idx : Fin 8) :
    (registerSection id idx q).entries =
      q.entries.filter fun e => ¬(e.wanted = ∅ ∧ e.refs = 0) := by
  let q₁ : FrameQueueV2 := { q with
    consumers := Function.update q.consumers idx ⟨id, 0, 0, true⟩
    activeConsumers := q.activeConsumers ||| id }
  refine (entries_sweep q₁ hq.ready_nodup).trans ?_
  rw [FrameQueueV2.entries, ← List.filterMap_eq_filter, List.filterMap_map]
  apply List.filterMap_congr
  intro m _
  by_cases hd : (q.node m).consumerMask = 0#32 ∧ (q.node m).refCount = 0
  · simp [q₁, kept, registerVisit, Option.guard, hd, entryOf]
  · simp only [q₁, kept, registerVisit, Option.guard, entryOf, Function.comp_apply, bits_eq_empty]
    simp [hd, entryOf]

/-- A consumer registers. -/
theorem step_register (hq : Tidy q) :
    Step bits Valid (World.mk q h).abstract (.register id)
      (World.mk (registerSection id idx q)
        (h.record q (.registerConsumer id) (.status true))).abstract := by
  have hactive : (registerSection id idx q).activeConsumers = q.activeConsumers ||| id := by
    unfold registerSection
    rw [sweepReady_activeConsumers]
  have hpost : (World.mk (registerSection id idx q)
      (h.record q (.registerConsumer id) (.status true))).abstract =
      (World.mk q h).abstract.join bits id := by
    unfold World.abstract State.join
    rw [hq.entries_register, hactive]
    have hfresh := and_eq_zero_iff (x := q.activeConsumers) (y := id)
    -- a consumer that is registered already begins no new period
    by_cases hz : q.activeConsumers &&& id = 0#32
    · simp [History.record, hz, hfresh.mp hz]
    · simp [History.record, hz, mt hfresh.mpr hz]
  rw [hpost]
  exact .register _ id

/-- A consumer unregisters. -/
theorem step_unregister (hq : Tidy q) :
    Step bits Valid (World.mk q h).abstract (.unregister id)
      (World.mk (unregisterSection id idx q) h).abstract := by
  let q₁ : FrameQueueV2 := { q with
    activeConsumers := q.activeConsumers &&& ~~~id
    consumers := Function.update q.consumers idx { q.consumers idx with enabled := false } }
  have hentries : (unregisterSection id idx q).entries =
      q.entries.filterMap (Entry.leave (bits id)) := by
    refine (entries_sweep q₁ hq.ready_nodup).trans ?_
    rw [FrameQueueV2.entries, List.filterMap_map]
    exact List.filterMap_congr fun m _ => (leave_entryOf m _).symm
  have hactive : (unregisterSection id idx q).activeConsumers = q.activeConsumers &&& ~~~id := by
    unfold unregisterSection
    rw [sweepReady_activeConsumers]
  have hpost : (World.mk (unregisterSection id idx q) h).abstract =
      { (World.mk q h).abstract with
        active := bits q.activeConsumers \ bits id
        entries := q.entries.filterMap (Entry.leave (bits id)) } := by
    unfold World.abstract
    rw [hentries, hactive, bits_and_not]
  rw [hpost]
  exact .unregister _ id

end Tidy

/-- **A piece is at most one step.** Between two pieces a queue stands for a broadcast queue, on
which the piece takes a step that its call may cause, or none. -/
theorem Effect.refines (heffect : Effect format q pc q' next) (hq : Tidy q)
    (hid : ∀ id idx, pc = .getSearch id idx → Valid id) (h : History) :
    ∃ ev, pc.Causes format ev ∧ Step bits Valid (World.mk q h).abstract ev
      (World.mk q' (pc.record q h next)).abstract := by
  cases heffect with
  | aside pc q' next aside =>
    refine ⟨.idle, trivial, ?_⟩
    have hsame : (World.mk q' (pc.record q h next)).abstract = (World.mk q h).abstract :=
      abstract_congr aside.ready aside.completed aside.active (aside.unrecorded h)
    rw [hsame]
    exact .idle _
  | publish f n free frame => exact ⟨.publish f, rfl, hq.step_publish free frame⟩
  | hold id idx l₁ n l₂ split before pending =>
    exact ⟨.deliver id _, ⟨idx, rfl⟩, hq.step_deliver split before pending (hid id idx rfl)⟩
  | drop idx f l₁ n l₂ split frame more =>
    exact ⟨.release (consumerBit idx) f, ⟨idx, rfl, rfl⟩, hq.step_drop split frame more⟩
  | unlink idx f l₁ n l₂ split frame last done =>
    exact ⟨.release (consumerBit idx) f, ⟨idx, rfl, rfl⟩, hq.step_unlink split frame last done⟩
  | miss idx f none => exact ⟨.release (consumerBit idx) f, ⟨idx, rfl, rfl⟩, hq.step_miss none⟩
  | reuse size l₁ n l₂ split unheld reuses =>
    exact ⟨.discard _, ⟨reuses, size, rfl⟩, hq.step_discard split unheld⟩
  | register id idx => exact ⟨.register id, ⟨idx, rfl⟩, hq.step_register⟩
  | unregister id idx => exact ⟨.unregister id, ⟨idx, rfl⟩, hq.step_unregister⟩

/-! ## What a piece preserves -/

/-- What a piece leaves: the nodes on no list are as before, but for the one that `release` has
unlinked, which goes to `free_list` without a holder. -/
structure Leaves (q : FrameQueueV2) (pc : Pc) (q' : FrameQueueV2) (next : Next) : Prop where
  filled : Filled q'
  unlisted : ∀ m, m ∉ q.listed → pc.role.looseNode ≠ some m → q'.node m = q.node m
  reset : ∀ m, next = .goto (.releaseAppend m) → (q'.node m).refCount = 0

/-- A node that stays on `ready_list` with its buffer. -/
theorem Tidy.leaves_ready {x : FrameNode} {l₁ l₂ : List NodeId} (hq : Tidy q)
    (hl : q.readyList.nodes = l₁ ++ n :: l₂) (hready : q'.readyList.nodes ⊆ q.readyList.nodes)
    (hfree : q'.freeList = q.freeList) (hnode : q'.node = Function.update q.node n x)
    (hx : x.frame = (q.node n).frame) (hreset : ∀ m, next ≠ .goto (.releaseAppend m)) :
    Leaves q pc q' next := by
  have hn : n ∈ q.readyList.nodes := by simp [hl]
  have hother : ∀ m, m ∈ q.freeList.nodes ∨ m ∉ q.listed → q'.node m = q.node m := by
    intro m hm
    have hmn : m ≠ n := by
      rintro rfl
      exact hm.elim (fun hf => hq.notMem_ready hf hn) fun hm => hm (mem_listed_of_ready hn)
    rw [hnode, Function.update_of_ne hmn]
  refine ⟨⟨fun m hm => ?_, fun m hm => ?_⟩, fun m hm _ => hother m (.inr hm),
    fun m hm => absurd hm (hreset m)⟩
  · rw [hnode, frame_update hx]
    exact hq.ready_frame m (hready hm)
  · rw [hfree] at hm
    rw [hother m (.inl hm)]
    exact hq.free_ref m hm

/-- A sweep that keeps the buffers. -/
theorem Tidy.leaves_sweep (hq : Tidy q) {visit : FrameNode → FrameNode × Bool} (stat : ℕ)
    (hframe : ∀ x, (visit x).1.frame = x.frame) :
    Filled (sweepReady visit stat q.readyList.nodes q) ∧
      ∀ m, m ∉ q.listed → (sweepReady visit stat q.readyList.nodes q).node m = q.node m := by
  -- the invariant of the sweep, and what one visit does to it
  let P : FrameQueueV2 → Prop := fun p => p.listed.Perm q.listed ∧ Filled p ∧
    ∀ m, m ∉ q.listed → p.node m = q.node m
  have hvisit : ∀ p n, P p → n ∈ p.readyList.nodes → P (sweepNode visit stat p n) := by
    rintro p n ⟨hperm, hfilled, hunlisted⟩ hn
    have hframe' : ∀ m, ((sweepNode visit stat p n).node m).frame = (p.node m).frame := by
      rw [sweepNode_node]
      exact frame_update (by split <;> exact hframe _)
    have hother : ∀ m, m ≠ n → (sweepNode visit stat p n).node m = p.node m := by
      rw [sweepNode_node]
      exact fun m hmn => Function.update_of_ne hmn _ _
    refine ⟨(sweepNode_perm hn).trans hperm, ⟨fun m hm => ?_, fun m hm => ?_⟩, fun m hm => ?_⟩
    · rw [hframe']
      apply hfilled.ready_frame
      rw [sweepNode_readyList] at hm
      split at hm
      · exact List.mem_of_mem_erase hm
      · exact hm
    -- a node that comes to `free_list` has been reset
    · by_cases hmn : m = n
      · subst hmn
        have hnotFree : m ∉ p.freeList.nodes := fun hf =>
          (List.nodup_append.mp (hperm.nodup_iff.mpr hq.nodup)).2.2 m hf m hn rfl
        unfold sweepNode at hm ⊢
        split at hm
        · rename_i hdead
          simp [hdead]
        · exact absurd hm hnotFree
      · rw [hother m hmn]
        apply hfilled.free_ref
        unfold sweepNode at hm
        split at hm
        · exact (List.mem_append.mp hm).resolve_right fun he => hmn (List.mem_singleton.mp he)
        · exact hm
    · have hmn : m ≠ n := by
        rintro rfl
        exact hm (hperm.mem_iff.mp (mem_listed_of_ready hn))
      rw [hother m hmn, hunlisted m hm]
  exact (sweepReady_induction visit stat hvisit q.readyList.nodes q hq.ready_nodup
    (fun _ hm => hm) ⟨.refl _, hq.toFilled, fun _ _ => rfl⟩).2

/-- **What each piece preserves.** -/
theorem Effect.leaves (heffect : Effect format q pc q' next) (hq : Tidy q)
    (happend : ∀ m, pc = .releaseAppend m → (q.node m).refCount = 0) : Leaves q pc q' next := by
  cases heffect with
  | aside pc q' next aside =>
    refine ⟨⟨fun m hm => ?_, fun m hm => ?_⟩, aside.unlisted, aside.reset⟩
    · rw [aside.ready] at hm
      rw [aside.completed m hm]
      exact hq.ready_frame m hm
    · rcases aside.free m hm with ⟨hfree, href | href⟩ | ⟨hpc, hnode⟩
      · exact href.trans (hq.free_ref m hfree)
      · exact href
      · rw [hnode]
        exact happend m hpc
  | publish f n free frame =>
    -- the node goes to `ready_list` with its buffer
    have hframe : ∀ m, ((publishNode q n).node m).frame = (q.node m).frame := frame_update rfl
    refine ⟨⟨fun m hm => ?_, fun m hm => ?_⟩, fun m hm _ => ?_, fun _ hm => by simp at hm⟩
    · rw [hframe]
      rcases List.mem_append.mp hm with hm | hm
      · exact hq.ready_frame m hm
      · rw [List.mem_singleton.mp hm, frame]
        exact Option.some_ne_none f
    · have hmn : m ≠ n := by
        rintro rfl
        exact (List.nodup_append.mp hq.nodup).1.not_mem_erase hm
      rw [publishNode_node, Function.update_of_ne hmn]
      exact hq.free_ref m (List.mem_of_mem_erase hm)
    · have hmn : m ≠ n := by
        rintro rfl
        exact hm (mem_listed_of_free free)
      exact Function.update_of_ne hmn _ _
  | hold id idx l₁ n l₂ split before pending =>
    exact hq.leaves_ready split (List.Subset.refl _) rfl rfl rfl fun _ => Next.noConfusion
  | drop idx f l₁ n l₂ split frame more =>
    exact hq.leaves_ready split (List.Subset.refl _) rfl rfl rfl fun _ => Next.noConfusion
  | unlink idx f l₁ n l₂ split frame last done =>
    exact hq.leaves_ready split List.erase_subset rfl rfl rfl (by simp)
  | miss idx f none => exact ⟨hq.toFilled, fun _ _ _ => rfl, fun _ => Next.noConfusion⟩
  | reuse size l₁ n l₂ split unheld reuses =>
    have hn : n ∈ q.readyList.nodes := by simp [split]
    have hframe : ∀ m, ((reuseNode q n).node m).frame = (q.node m).frame := frame_update rfl
    refine ⟨⟨fun m hm => ?_, fun m hm => ?_⟩, fun m hm _ => ?_, fun _ hm => by simp at hm⟩
    · rw [hframe]
      exact hq.ready_frame m (List.mem_of_mem_erase hm)
    · by_cases hmn : m = n
      · subst hmn
        simpa using unheld
      · rw [reuseNode_node, Function.update_of_ne hmn]
        exact hq.free_ref m ((List.mem_cons.mp hm).resolve_left hmn)
    · have hmn : m ≠ n := by
        rintro rfl
        exact hm (mem_listed_of_ready hn)
      exact Function.update_of_ne hmn _ _
  | register id idx =>
    have hq₁ : Tidy { q with
        consumers := Function.update q.consumers idx ⟨id, 0, 0, true⟩
        activeConsumers := q.activeConsumers ||| id } := { hq with }
    have hframe : ∀ x, (registerVisit x).1.frame = x.frame := fun _ => rfl
    obtain ⟨hfilled, hunlisted⟩ := hq₁.leaves_sweep 0 hframe
    exact ⟨hfilled, fun m hm _ => hunlisted m hm, fun _ => Next.noConfusion⟩
  | unregister id idx =>
    have hq₁ : Tidy { q with
        activeConsumers := q.activeConsumers &&& ~~~id
        consumers := Function.update q.consumers idx { q.consumers idx with enabled := false } } :=
      { hq with }
    have hframe : ∀ x, (unregisterVisit id x).1.frame = x.frame := fun x => by
      unfold unregisterVisit
      split <;> rfl
    obtain ⟨hfilled, hunlisted⟩ := hq₁.leaves_sweep 1 hframe
    exact ⟨hfilled, fun m hm _ => hunlisted m hm, fun _ => Next.noConfusion⟩

end FrameQueue

end YangIpc
