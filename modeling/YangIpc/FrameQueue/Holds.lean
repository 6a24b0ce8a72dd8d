import YangIpc.FrameQueue.Refinement

/-!
# What consumers hold and wait for

A consumer that was given a frame and has not released it keeps it: its node stays on
`ready_list`, its buffer is not freed, and `malloc` does not hand it out.  A frame that nobody
holds waits for an active consumer, or was completed when nobody was registered.

## Main results

* `held_frames_are_safe`: reference counts are the numbers of holders, and held frames stay
* `no_stuck_frames`: what an unheld frame waits for, and how the others are recovered
-/

namespace YangIpc

namespace FrameQueue

open Transition Bits Broadcast

variable {format : ImageFormat} {q : FrameQueueV2} {w : World} {n : NodeId} {f : FrameAddr}

/-! ## Running the broadcast queue -/

/-- **Invariants of the broadcast queue hold of the frame queue.** A property that every step a
guarded call may cause preserves holds in every run from a state where it holds. -/
theorem abstract_invariant {inv : State NodeId Mask ℕ FrameAddr → Prop}
    {ok : World → Call → Prop} {w₀ : World} (hw₀ : WellFormed format w₀.queue)
    (hrun : ∀ w call, ok w call → Running call ∧ Fresh format w.queue call)
    (h : Reaches (Guarded (World.step format) ok) w₀ w) (h₀ : inv w₀.abstract)
    (hstep : ∀ w call ev s', ok w call → Causes format call ev → inv w.abstract →
      Step bits Valid w.abstract ev s' → inv s') :
    WellFormed format w.queue ∧ inv w.abstract := by
  refine h.invariant (P := fun w => WellFormed format w.queue ∧ inv w.abstract) ⟨hw₀, h₀⟩ ?_
  rintro w call w' ⟨hw, hinv⟩ ⟨hok, rfl⟩
  obtain ⟨hrunning, hfresh⟩ := hrun w call hok
  obtain ⟨ev, hcause, hev⟩ := World.refines hw hrunning
  exact ⟨hw.run hfresh, hstep w call ev _ hok hcause hinv hev⟩

/-! ## Frees and completed nodes -/

theorem freeFrame_frees_of_ne (hn : (q.node n).frame ≠ some f) :
    (q.freeFrame format n).frees.filter (·.addr = f) = q.frees.filter (·.addr = f) := by
  unfold FrameQueueV2.freeFrame
  split
  · rename_i g kind hg _
    have hgf : g ≠ f := fun e => hn (e ▸ hg)
    simp [hgf]
  · rfl

theorem cleanFree_frees (l : List NodeId) :
    ∀ q, (∀ m ∈ l, (q.node m).frame ≠ some f) →
      (cleanFree l q).frees.filter (·.addr = f) = q.frees.filter (·.addr = f) := by
  induction l with
  | nil => exact fun _ _ => rfl
  | cons n rest ih =>
    intro q hl
    refine (ih _ fun m hm => ?_).trans
      (freeFrame_frees_of_ne (q := q.setNode n { q.node n with inUse := false }) ?_)
    · by_cases hmn : m = n
      · subst hmn
        simp [FrameQueueV2.clearFrame]
      · simpa [FrameQueueV2.clearFrame, hmn] using hl m (List.mem_cons_of_mem _ hm)
    · simpa using hl n List.mem_cons_self

theorem mallocNode_frees (size : ℕ) (answer : Option FrameAddr) :
    (mallocNode format size answer q n).1.frees = q.frees := by
  unfold mallocNode
  rcases mallocFrame_cases format size answer q n with ⟨g, -, he⟩ | ⟨kind, g, -, -, -, he⟩ |
    ⟨-, -, he⟩ <;> simp [he, mallocMask, mallocReset, setInUse]

/-- A node that `clear_all` leaves completed keeps its buffer. -/
theorem clearReady_frame (hw : WellFormed format q) (hready : n ∈ (clearReady q).readyList.nodes) :
    ((clearReady q).node n).frame = (q.node n).frame := by
  have hview := sweepReady_view clearAllVisit 0 (fun m x => (m, x.frame))
    q.readyList.nodes [] q rfl hw.ready_nodup
  have hmem : (n, ((clearReady q).node n).frame) ∈ (clearReady q).readyList.nodes.map
      fun m => (m, ((clearReady q).node m).frame) := List.mem_map.mpr ⟨n, hready, rfl⟩
  rw [clearReady, hview] at hmem
  have hkept : n ∈ q.readyList.nodes ∧ ∃ x, kept clearAllVisit (q.node n) = some x ∧
      x.frame = ((sweepReady clearAllVisit 0 q.readyList.nodes q).node n).frame := by
    simpa using hmem
  obtain ⟨-, x, hx, hxf⟩ := hkept
  unfold kept at hx
  split at hx
  · exact absurd hx (by simp)
  · obtain rfl := Option.some.inj hx
    exact hxf.symm

theorem clearAll_frees (hw : WellFormed format q) (hf : (q.node n).frame = some f)
    (hn' : n ∈ (frameQueueV2ClearAll q).readyList.nodes) :
    (frameQueueV2ClearAll q).frees.filter (·.addr = f) = q.frees.filter (·.addr = f) := by
  unfold frameQueueV2ClearAll at hn' ⊢
  split
  · rfl
  · rename_i hc
    rw [if_neg hc] at hn'
    have hclear : WellFormed format (clearReady q) :=
      hw.sweepReady (fun _ => rfl) (fun _ => rfl)
    have hready : n ∈ (clearReady q).readyList.nodes := by
      rwa [clearFree, (cleanFree_node _ _).1] at hn'
    have hframe := (clearReady_frame hw hready).trans hf
    -- the buffers freed are those of free nodes, and `n` is completed
    rw [clearFree, cleanFree_frees, clearReady, sweepReady_frees]
    intro m hm hmf
    exact hclear.ne_of_free_ready hm hready (hclear.frame_inj m (mem_listed_of_free hm) n
      (mem_listed_of_ready hready) f hmf hframe)

theorem releaseFrame_frees (hw : WellFormed format q) {id : Mask} {frame : Option FrameAddr}
    (hn : n ∈ q.readyList.nodes) (hf : (q.node n).frame = some f)
    (hn' : n ∈ (frameQueueV2ReleaseFrame format id frame q).readyList.nodes) :
    (frameQueueV2ReleaseFrame format id frame q).frees.filter (·.addr = f) =
      q.frees.filter (·.addr = f) := by
  unfold frameQueueV2ReleaseFrame at hn' ⊢
  split
  · split
    · rename_i hu _ _ g idx hidx
      rcases releaseFind_cases idx g q with ⟨l₁, m, l₂, hl, -, hmg, ⟨-, -, he⟩ | ⟨-, he⟩⟩ |
        ⟨-, he⟩ <;> simp only [he]
      · simp only [if_pos hu, hidx, he] at hn'
        apply freeFrame_frees_of_ne (q := unlinkReady (dropNode idx q m) m)
        -- the node released last leaves `ready_list`, so it is another one
        have hmn : m ≠ n := by
          rintro rfl
          rw [(release_tail _ _ _).1] at hn'
          exact hw.ready_nodup.not_mem_erase hn'
        have hmr : m ∈ q.readyList.nodes := by simp [hl]
        simpa using fun hmf => hmn (hw.frame_inj m (mem_listed_of_ready hmr) n
          (mem_listed_of_ready hn) f hmf hf)
      · rfl
    · rfl
  · rfl

/-- **A completed frame that stays completed is not freed.** -/
theorem run_frees (hw : WellFormed format q) {call : Call} (hcall : Running call)
    (hn : n ∈ q.readyList.nodes) (hf : (q.node n).frame = some f)
    (hn' : n ∈ (call.run format q).1.readyList.nodes) :
    (call.run format q).1.frees.filter (·.addr = f) = q.frees.filter (·.addr = f) := by
  -- no free node has this buffer
  have hother : ∀ m ∈ q.freeList.nodes, (q.node m).frame ≠ some f := fun m hm hmf =>
    hw.ne_of_free_ready hm hn (hw.frame_inj m (mem_listed_of_free hm) n (mem_listed_of_ready hn)
      f hmf hf)
  cases call with
  | init semaphore answer => exact hcall.elim
  | deinit => exact hcall.elim
  | clearAll => exact clearAll_frees hw hf hn'
  | registerConsumer id =>
    simp only [Call.run, frameQueueV2RegisterConsumer]
    split
    · split
      · rfl
      · exact congrArg _ (sweepReady_frees _ _)
    · rfl
  | unregisterConsumer id =>
    simp only [Call.run, frameQueueV2UnregisterConsumer]
    split
    · split
      · rfl
      · exact congrArg _ (sweepReady_frees _ _)
    · rfl
  | malloc size answer =>
    simp only [Call.run, frameQueueV2Malloc]
    split
    · rcases mallocSearch_cases format q with ⟨m, -, -, he⟩ | ⟨-, -, l₁, m, l₂, -, -, -, he⟩ |
        ⟨-, -, he⟩ <;> rw [he]
      · exact congrArg _ (mallocNode_frees _ _)
      · exact congrArg _ (mallocNode_frees _ _)
    · rfl
  | complete frame =>
    simp only [Call.run, frameQueueV2Complete]
    split
    · cases frame with
      | none => rfl
      | some g =>
        rcases completeFind_cases g q with ⟨m, -, -, -, he⟩ | ⟨-, he⟩ <;> simp only [he]
        obtain ⟨t, ht⟩ := completePost_iterate (q := publishNode q m)
          (signalCount (countActiveConsumers q.activeConsumers))
        rw [ht]
        rfl
    · rfl
  | cancel frame =>
    simp only [Call.run, frameQueueV2Cancel]
    split
    · cases frame with
      | none => rfl
      | some g =>
        rcases cancelFind_cases g q with ⟨m, hm, -, -, he⟩ | ⟨-, he⟩ <;> simp only [he]
        apply freeFrame_frees_of_ne (q := setInUse q m false)
        simpa [setInUse] using hother m hm
    · rfl
  | getFrame id waits =>
    simp only [Call.run, frameQueueV2GetFrame]
    split
    · split
      · rfl
      · rename_i idx _
        rcases getLoop_cases id idx waits q with ⟨t, l₁, m, l₂, -, -, -, he⟩ | ⟨t, he⟩ <;> rw [he]
        rfl
    · rfl
  | releaseFrame id frame => exact releaseFrame_frees hw hn hf hn'

/-- A buffer that `malloc` returns belongs to a node of `free_list`. -/
theorem malloc_frame {size : ℕ} {answer : Option FrameAddr}
    (h : (frameQueueV2Malloc format size answer q).2 = some f) :
    ∃ m ∈ (frameQueueV2Malloc format size answer q).1.freeList.nodes,
      ((frameQueueV2Malloc format size answer q).1.node m).frame = some f := by
  have hnode : ∀ (q : FrameQueueV2) m, m ∈ q.freeList.nodes →
      (mallocNode format size answer q m).2 = some f →
      m ∈ (mallocNode format size answer q m).1.freeList.nodes ∧
        ((mallocNode format size answer q m).1.node m).frame = some f := by
    intro q m hm
    unfold mallocNode
    rcases mallocFrame_cases format size answer q m with ⟨g, hg, he⟩ | ⟨kind, g, -, -, -, he⟩ |
      ⟨-, -, he⟩ <;> rw [he] <;> intro hfg
    · obtain rfl := Option.some.inj hfg
      exact ⟨hm, by simp [mallocMask, mallocReset, hg]⟩
    · obtain rfl := Option.some.inj hfg
      exact ⟨hm, by simp [mallocMask, mallocReset]⟩
    · exact absurd hfg (by simp)
  unfold frameQueueV2Malloc at h ⊢
  split at h
  · rename_i hu
    rw [if_pos hu]
    rcases mallocSearch_cases format q with ⟨m, hm, -, he⟩ | ⟨-, -, l₁, m, l₂, -, -, -, he⟩ |
      ⟨-, -, he⟩ <;> rw [he] at h ⊢
    · exact ⟨m, hnode _ m hm h⟩
    · exact ⟨m, hnode _ m List.mem_cons_self h⟩
    · exact absurd h (by simp)
  · exact absurd h (by simp)

/-! ## Held frames -/

/-- The runs in which consumers release only what they hold. -/
def disciplinedCall (format : ImageFormat) (w : World) (call : Call) : Prop :=
  Running call ∧ Fresh format w.queue call ∧ Disciplined w.history call

theorem honest_of_disciplined {call : Call} {ev : Event Mask FrameAddr}
    (hok : Disciplined w.history call) (hcause : Causes format call ev) :
    Honest w.abstract ev := by
  cases ev with
  | release id f =>
    obtain rfl : call = .releaseFrame id (some f) := hcause
    exact hok
  | _ => trivial

theorem accounted_of_empty {s : State NodeId Mask ℕ FrameAddr} (hentries : s.entries = [])
    (hholds : s.holds = ∅) : Accounted bits Valid s := by
  constructor <;> simp [hentries, hholds]

/-- In a disciplined run the reference counts are the numbers of holders. -/
theorem accounted_of_reaches {answer : ℕ → Option NodeId} {node : NodeId → FrameNode}
    (hnodes : (createdNodes format answer).Nodup)
    (h : Reaches (Guarded (World.step format) (disciplinedCall format))
      ⟨initialised format answer node, History.empty⟩ w) :
    WellFormed format w.queue ∧ Accounted bits Valid w.abstract := by
  refine abstract_invariant (wellFormed_initialised node hnodes)
    (fun w call hok => ⟨hok.1, hok.2.1⟩) h (accounted_of_empty ?_ rfl)
    fun w call ev s' hok hcause hinv hstep =>
      hinv.step (honest_of_disciplined hok.2.2 hcause) hstep
  simp [World.abstract, FrameQueueV2.entries, (initialised_lists format answer node).2.1]

/-- **Held frames are safe.** In every run in which consumers release only what they hold, the
reference count of a completed node is the number of its holders.  While a consumer holds a
frame, no call moves its node off `ready_list`, frees its buffer or returns it from `malloc`. -/
theorem held_frames_are_safe {answer : ℕ → Option NodeId} {node : NodeId → FrameNode}
    (hnodes : (createdNodes format answer).Nodup)
    (h : Reaches (Guarded (World.step format) (disciplinedCall format))
      ⟨initialised format answer node, History.empty⟩ w) :
    (∀ n ∈ w.queue.readyList.nodes, ∃ f, (w.queue.node n).frame = some f ∧
      (w.queue.node n).refCount = (holders w.history.holds f).card) ∧
    ∀ call, disciplinedCall format w call →
      ∀ id f, (id, f) ∈ w.history.holds → (id, f) ∈ (w.call format call).history.holds →
        (∃ n ∈ w.queue.readyList.nodes, (w.queue.node n).frame = some f ∧
          n ∈ (w.call format call).queue.readyList.nodes ∧
          ((w.call format call).queue.node n).frame = some f) ∧
        (w.call format call).queue.frees.filter (·.addr = f) =
          w.queue.frees.filter (·.addr = f) ∧
        ∀ size answer, call = .malloc size answer →
          (frameQueueV2Malloc format size answer w.queue).2 ≠ some f := by
  obtain ⟨hw, hacc⟩ := accounted_of_reaches hnodes h
  have hframe : ∀ {q : FrameQueueV2}, WellFormed format q → ∀ {n f}, n ∈ q.readyList.nodes →
      (entryOf n (q.node n)).item = f → (q.node n).frame = some f := by
    intro q hq n f hn hitem
    obtain ⟨g, hg⟩ := Option.ne_none_iff_exists'.mp (hq.ready_frame n hn)
    simpa [entryOf, hg] using hitem
  refine ⟨fun n hn => ?_, fun call hok id f hi hi' => ?_⟩
  · exact ⟨_, hframe hw hn rfl, hacc.counted _ (mem_entries.mpr ⟨n, hn, rfl⟩)⟩
  · have hw' : WellFormed format (w.call format call).queue := hw.run hok.2.1
    obtain ⟨ev, hcause, hstep⟩ := World.refines hw hok.1
    -- The broadcast queue keeps an entry for the held frame, at the same node.
    obtain ⟨e, he, e', he', hitem, hitem', hslot⟩ :=
      hacc.persists (honest_of_disciplined hok.2.2 hcause) hstep hi hi'
    obtain ⟨n, hn, rfl⟩ := mem_entries.mp he
    obtain ⟨m, hm, rfl⟩ := mem_entries.mp he'
    obtain rfl : n = m := hslot
    have hnf := hframe hw hn hitem
    have hnf' := hframe hw' hm hitem'
    refine ⟨⟨n, hn, hnf, hm, hnf'⟩, run_frees hw hok.1 hn hnf hm, ?_⟩
    rintro size answer rfl hmalloc
    obtain ⟨m, hmfree, hmf⟩ := malloc_frame hmalloc
    exact hw'.ne_of_free_ready hmfree hm (hw'.frame_inj m (mem_listed_of_free hmfree) n
      (mem_listed_of_ready hm) f hmf hnf')

/-- The runs in which, besides, every consumer id is a single bit. -/
def singleBitCall (format : ImageFormat) (w : World) (call : Call) : Prop :=
  disciplinedCall format w call ∧ ∀ id, call.consumer = some id → SingleBit id

/-- A queue for H264 right after `init`. -/
def h264World : World :=
  ⟨initialised .h264 (fun i => some (i + 1)) fun _ => FrameNode.zero, History.empty⟩

/-- Consumer `1` has been given the only frame completed so far. -/
def h264Delivery : World :=
  (((h264World.call .h264 (.registerConsumer 1)).call .h264 (.malloc 64 (some 1000))).call .h264
    (.complete (some 1000))).call .h264 (.getFrame 1 0)

theorem h264Nodes_nodup : (createdNodes .h264 fun i => some (i + 1)).Nodup := by decide

theorem h264Delivery_reached :
    Reaches (Guarded (World.step .h264) (singleBitCall .h264)) h264World h264Delivery := by
  have hone : SingleBit 1 := ⟨0, by omega, rfl⟩
  refine World.reaches_call (World.reaches_call (World.reaches_call
    (World.reaches_call (.refl _) _ ?_) _ ?_) _ ?_) _ ?_
  · exact ⟨⟨trivial, trivial, trivial⟩, by rintro _ ⟨⟩; exact hone⟩
  · refine ⟨⟨trivial, ?_, trivial⟩, by rintro _ ⟨⟩⟩
    show ∀ b ∈ (h264World.call .h264 (.registerConsumer 1)).queue.live, b.addr ≠ 1000
    decide
  · exact ⟨⟨trivial, trivial, trivial⟩, by rintro _ ⟨⟩⟩
  · exact ⟨⟨trivial, trivial, trivial⟩, by rintro _ ⟨⟩; exact hone⟩

/-- The same for a held frame and a call of `clear_all`. -/
theorem held_frames_are_safe_clear_all :
    (1, 1000) ∈ h264Delivery.history.holds ∧
      (∃ n ∈ h264Delivery.queue.readyList.nodes,
        (h264Delivery.queue.node n).frame = some 1000 ∧
          n ∈ (h264Delivery.call .h264 .clearAll).queue.readyList.nodes ∧
          ((h264Delivery.call .h264 .clearAll).queue.node n).frame = some 1000) := by
  have hheld : (1, 1000) ∈ h264Delivery.history.holds := by decide
  exact ⟨hheld, ((held_frames_are_safe h264Nodes_nodup
    (h264Delivery_reached.weaken fun _ _ hok => hok.1)).2 .clearAll ⟨trivial, trivial, trivial⟩
    1 1000 hheld hheld).1⟩

/-! ## Frames nobody holds -/

theorem single_of_singleBit {call : Call} {ev : Event Mask FrameAddr}
    (hok : ∀ id, call.consumer = some id → SingleBit id) (hcause : Causes format call ev) :
    Single bits ev := by
  cases ev with
  | unregister id =>
    obtain rfl : call = .unregisterConsumer id := hcause
    obtain ⟨i, hi, rfl⟩ := hok id rfl
    exact ⟨i, bits_one_shiftLeft hi⟩
  | _ => trivial

theorem settled_of_reaches {answer : ℕ → Option NodeId} {node : NodeId → FrameNode}
    (hnodes : (createdNodes format answer).Nodup)
    (h : Reaches (Guarded (World.step format) (singleBitCall format))
      ⟨initialised format answer node, History.empty⟩ w) : Settled w.abstract := by
  refine (abstract_invariant (wellFormed_initialised node hnodes)
    (fun w call hok => ⟨hok.1.1, hok.1.2.1⟩) h ?_ fun w call ev s' hok hcause hinv hstep =>
      hinv.step (single_of_singleBit hok.2 hcause) hstep).2
  constructor <;>
    simp [World.abstract, FrameQueueV2.entries, (initialised_lists format answer node).2.1]

/-- When everything completed is meant for nobody and held by nobody, registering moves it all
back to `free_list`. -/
theorem register_recovers (hw : WellFormed format q)
    (hmask : ∀ n ∈ q.readyList.nodes, (q.node n).consumerMask = 0)
    (href : ∀ n ∈ q.readyList.nodes, (q.node n).refCount = 0) {id : Mask}
    (hid : consumerIdx id ≠ none) :
    (frameQueueV2RegisterConsumer format id q).1.readyList.nodes = [] ∧
      ∀ n ∈ q.readyList.nodes, n ∈ (frameQueueV2RegisterConsumer format id q).1.freeList.nodes := by
  obtain ⟨idx, hidx⟩ := Option.ne_none_iff_exists'.mp hid
  by_cases hu : usable format q = true
  · simp only [frameQueueV2RegisterConsumer, hu, hidx, if_true]
    have hnil : (registerSection id idx q).readyList.nodes = [] := by
      have hentries := registerSection_entries hw id idx
      rw [List.filter_eq_nil_iff.mpr] at hentries
      · exact List.map_eq_nil_iff.mp hentries
      · intro e he
        obtain ⟨n, hn, rfl⟩ := mem_entries.mp he
        simpa [entryOf, href n hn] using hmask n hn
    refine ⟨hnil, fun n hn => ?_⟩
    have hperm := (registerSection_conserves id idx hw.ready_nodup
      ⟨hw.freeCount, hw.readyCount⟩).1
    have hmem := hperm.mem_iff.mpr (mem_listed_of_ready hn)
    rcases mem_listed.mp hmem with hmem | hmem
    · exact hmem
    · simp [hnil] at hmem
  · simp [frameQueueV2RegisterConsumer, hu, ready_eq_nil hw hu]

/-- **No stuck frames.** In every run of single-bit consumers that release only what they hold, a
completed frame waits for active consumers only, and if nobody holds it, it waits for somebody or
was completed when nobody was registered.  So once all consumers have unregistered and released,
only such frames are left, and the next registration moves all of them to `free_list`. -/
theorem no_stuck_frames {answer : ℕ → Option NodeId} {node : NodeId → FrameNode}
    (hnodes : (createdNodes format answer).Nodup)
    (h : Reaches (Guarded (World.step format) (singleBitCall format))
      ⟨initialised format answer node, History.empty⟩ w) :
    (∀ n ∈ w.queue.readyList.nodes,
      (w.queue.node n).pending &&& ~~~w.queue.activeConsumers = 0 ∧
      ((w.queue.node n).refCount = 0 → (w.queue.node n).pending ≠ 0 ∨
        ((w.queue.node n).consumerMask = 0 ∧
          ∃ f, (w.queue.node n).frame = some f ∧ w.history.activeAt f = 0))) ∧
    (w.queue.activeConsumers = 0 → w.history.holds = ∅ →
      (∀ n ∈ w.queue.readyList.nodes, (w.queue.node n).consumerMask = 0) ∧
      ∀ id, consumerIdx id ≠ none →
        (w.call format (.registerConsumer id)).queue.readyList.nodes = [] ∧
        ∀ n ∈ w.queue.readyList.nodes,
          n ∈ (w.call format (.registerConsumer id)).queue.freeList.nodes) := by
  obtain ⟨hw, hacc⟩ := accounted_of_reaches hnodes (h.weaken fun _ _ hok => hok.1)
  have hset := settled_of_reaches hnodes h
  have hpending : ∀ n ∈ w.queue.readyList.nodes,
      (w.queue.node n).pending &&& ~~~w.queue.activeConsumers = 0 := by
    intro n hn
    have hsub := hset.pending _ (mem_entries.mpr ⟨n, hn, rfl⟩)
    rw [pending_entryOf] at hsub
    exact bits_eq_empty.mp ((bits_and_not _ _).trans (Set.sdiff_eq_empty.mpr hsub))
  have hstuck : ∀ n ∈ w.queue.readyList.nodes, (w.queue.node n).refCount = 0 →
      (w.queue.node n).pending ≠ 0 ∨ ((w.queue.node n).consumerMask = 0 ∧
        ∃ f, (w.queue.node n).frame = some f ∧ w.history.activeAt f = 0) := by
    intro n hn href
    obtain ⟨f, hf⟩ := Option.ne_none_iff_exists'.mp (hw.ready_frame n hn)
    rcases hset.stuck _ (mem_entries.mpr ⟨n, hn, rfl⟩) href with hp | ⟨hmask, hat⟩
    · rw [pending_entryOf] at hp
      exact .inl fun h0 => by simp [h0] at hp
    · refine .inr ⟨wanted_entryOf.mp hmask, f, hf, bits_eq_empty.mp ?_⟩
      simpa [World.abstract, entryOf, hf] using hat
  refine ⟨fun n hn => ⟨hpending n hn, hstuck n hn⟩, fun hactive hholds => ?_⟩
  -- nobody holds anything, and nobody is active that a frame could wait for
  have href : ∀ n ∈ w.queue.readyList.nodes, (w.queue.node n).refCount = 0 := by
    intro n hn
    have hcard := hacc.counted _ (mem_entries.mpr ⟨n, hn, rfl⟩)
    simpa [World.abstract, hholds, holders, entryOf] using hcard
  have hmask : ∀ n ∈ w.queue.readyList.nodes, (w.queue.node n).consumerMask = 0 := by
    intro n hn
    rcases hstuck n hn (href n hn) with hp | ⟨hmask, -⟩
    · have hzero : (w.queue.node n).pending &&& ~~~(0#32) = 0#32 := by
        have := hpending n hn
        rwa [hactive] at this
      rw [BitVec.not_zero, BitVec.and_allOnes] at hzero
      exact absurd hzero hp
    · exact hmask
  exact ⟨hmask, fun id hid => register_recovers hw hmask href hid⟩

/-- The same for a frame completed when nobody was registered. -/
theorem no_stuck_frames_unregistered :
    let w := (h264World.call .h264 (.malloc 64 (some 1000))).call .h264 (.complete (some 1000))
    w.queue.readyList.nodes = [1] ∧
      (w.call .h264 (.registerConsumer 1)).queue.readyList.nodes = [] := by
  intro w
  have hrun : Reaches (Guarded (World.step .h264) (singleBitCall .h264)) h264World w := by
    refine World.reaches_call (World.reaches_call (.refl _) _ ?_) _ ?_
    · refine ⟨⟨trivial, ?_, trivial⟩, by rintro _ ⟨⟩⟩
      show ∀ b ∈ h264World.queue.live, b.addr ≠ 1000
      decide
    · exact ⟨⟨trivial, trivial, trivial⟩, by rintro _ ⟨⟩⟩
  exact ⟨by decide, (((no_stuck_frames h264Nodes_nodup hrun).2 (by decide) (by decide)).2 1
    (by decide)).1⟩

end FrameQueue

end YangIpc
