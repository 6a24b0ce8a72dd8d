import YangIpc.FrameQueue.Refinement
import YangIpc.Library.Broadcast.Order

/-!
# Slow consumers do not starve the producer

Every node `init` creates stays on one of the two lists until `deinit`, and completed nodes stand
on `ready_list` in the order of their completion.  In an MJPEG or YUV queue the two searches of
`malloc` together look at every node, so it fails only when the allocator does, or when each node
is reserved by a producer or held by a consumer; completed frames that nobody has read give way,
the oldest first.

## Main results

* `run_conserves`: a call keeps the linked nodes
* `ordered_call`: a call keeps the order of completions
* `slow_consumers_do_not_starve_producers`: the property over runs
-/

namespace YangIpc

namespace FrameQueue

open Transition Bits Broadcast

variable {format : ImageFormat} {q : FrameQueueV2} {w : World} {n : NodeId}

/-! ## Linked nodes -/

/-- An initialised queue is not initialised again. -/
theorem init_of_count {semaphore : Bool} {answer : ℕ → Option NodeId} (hc : q.count ≠ 0) :
    (frameQueueV2Init format semaphore answer q).1 = q := by
  unfold frameQueueV2Init
  split
  · rfl
  · rw [if_pos (Nat.pos_of_ne_zero hc)]

/-- The lists and the count of a queue, the nodes in any order. -/
def SameNodes (q' q : FrameQueueV2) : Prop := q'.listed.Perm q.listed ∧ q'.count = q.count

namespace SameNodes

theorem refl (q : FrameQueueV2) : SameNodes q q := ⟨.refl _, rfl⟩

theorem trans {q₁ q₂ q₃ : FrameQueueV2} (h₁ : SameNodes q₁ q₂) (h₂ : SameNodes q₂ q₃) :
    SameNodes q₁ q₃ := ⟨h₁.1.trans h₂.1, h₁.2.trans h₂.2⟩

theorem of_lists {q' : FrameQueueV2} (hfree : q'.freeList = q.freeList)
    (hready : q'.readyList = q.readyList) (hc : q'.count = q.count) : SameNodes q' q := by
  refine ⟨?_, hc⟩
  rw [FrameQueueV2.listed, FrameQueueV2.listed, hfree, hready]

theorem detach (format : ImageFormat) (q : FrameQueueV2) (n : NodeId) :
    SameNodes ((q.freeFrame format n).clearFrame n) q := by
  apply of_lists <;> simp [FrameQueueV2.clearFrame]

theorem mallocNode (format : ImageFormat) (size : ℕ) (answer : Option FrameAddr)
    (q : FrameQueueV2) (n : NodeId) : SameNodes (mallocNode format size answer q n).1 q := by
  unfold FrameQueue.mallocNode
  rcases mallocFrame_cases format size answer q n with ⟨f, -, he⟩ | ⟨kind, f, -, -, -, he⟩ |
    ⟨-, -, he⟩ <;> simp only [he] <;> apply of_lists <;> simp [mallocMask, mallocReset, setInUse]

theorem malloc (format : ImageFormat) (size : ℕ) (answer : Option FrameAddr) (q : FrameQueueV2) :
    SameNodes (frameQueueV2Malloc format size answer q).1 q := by
  unfold frameQueueV2Malloc
  split
  · rcases mallocSearch_cases format q with ⟨n, -, -, he⟩ | ⟨-, -, l₁, n, l₂, hl, -, -, he⟩ |
      ⟨-, -, he⟩ <;> simp only [he]
    · exact (mallocNode format size answer _ n).trans (of_lists rfl rfl rfl)
    · have hn : n ∈ q.readyList.nodes := by simp [hl]
      exact (mallocNode format size answer _ n).trans ⟨Lists.perm_move_head hn, rfl⟩
    · exact refl q
  · exact refl q

theorem complete (format : ImageFormat) (frame : Option FrameAddr) (q : FrameQueueV2) :
    SameNodes (frameQueueV2Complete format frame q).1 q := by
  unfold frameQueueV2Complete
  split
  · cases frame with
    | none => exact refl q
    | some f =>
      rcases completeFind_cases f q with ⟨n, hn, -, -, he⟩ | ⟨-, he⟩ <;> simp only [he]
      · obtain ⟨t, ht⟩ := completePost_iterate (q := publishNode q n)
          (signalCount (countActiveConsumers q.activeConsumers))
        rw [ht]
        exact ⟨Lists.perm_move_back hn, rfl⟩
      · exact refl q
  · exact refl q

theorem cancel (format : ImageFormat) (frame : Option FrameAddr) (q : FrameQueueV2) :
    SameNodes (frameQueueV2Cancel format frame q).1 q := by
  unfold frameQueueV2Cancel
  split
  · cases frame with
    | none => exact refl q
    | some f =>
      rcases cancelFind_cases f q with ⟨n, -, -, -, he⟩ | ⟨-, he⟩ <;> simp only [he]
      · exact (detach format _ n).trans (of_lists rfl rfl rfl)
      · exact refl q
  · exact refl q

theorem getFrame (format : ImageFormat) (id : Mask) (waits : ℕ) (q : FrameQueueV2) :
    SameNodes (frameQueueV2GetFrame format id waits q).1 q := by
  unfold frameQueueV2GetFrame
  split
  · split
    · exact refl q
    · rename_i idx _
      rcases getLoop_cases id idx waits q with ⟨t, l₁, n, l₂, -, -, -, he⟩ | ⟨t, he⟩ <;>
        rw [he] <;> exact of_lists rfl rfl rfl
  · exact refl q

theorem releaseFrame (format : ImageFormat) (id : Mask) (frame : Option FrameAddr)
    (q : FrameQueueV2) : SameNodes (frameQueueV2ReleaseFrame format id frame q) q := by
  unfold frameQueueV2ReleaseFrame
  split
  · split
    · rename_i f idx _
      rcases releaseFind_cases idx f q with
        ⟨l₁, n, l₂, hl, -, -, ⟨-, -, he⟩ | ⟨-, he⟩⟩ | ⟨-, he⟩ <;> simp only [he]
      · have hn : n ∈ (dropNode idx q n).readyList.nodes := by simp [hl]
        rw [release_eq_detach]
        have hmove : SameNodes (recycleNode (dropNode idx q n) n) (dropNode idx q n) :=
          ⟨Lists.perm_move_tail hn, rfl⟩
        exact ((detach format _ n).trans hmove).trans (of_lists rfl rfl rfl)
      · exact of_lists rfl rfl rfl
      · exact refl q
    · exact refl q
  · exact refl q

theorem registerConsumer (h : WellFormed format q) (id : Mask) :
    SameNodes (frameQueueV2RegisterConsumer format id q).1 q := by
  unfold frameQueueV2RegisterConsumer
  split
  · split
    · exact refl q
    · rename_i idx _
      have hsection := registerSection_conserves id idx h.ready_nodup ⟨h.freeCount, h.readyCount⟩
      exact ⟨hsection.1, sweepReady_count _ _⟩
  · exact refl q

theorem unregisterConsumer (h : WellFormed format q) (id : Mask) :
    SameNodes (frameQueueV2UnregisterConsumer format id q).1 q := by
  unfold frameQueueV2UnregisterConsumer
  split
  · split
    · exact refl q
    · rename_i idx _
      have hsection := unregisterSection_conserves id idx h.ready_nodup ⟨h.freeCount, h.readyCount⟩
      exact ⟨hsection.1, sweepReady_count _ _⟩
  · exact refl q

theorem cleanFree (l : List NodeId) : ∀ q, SameNodes (cleanFree l q) q := by
  induction l with
  | nil => exact refl
  | cons n rest ih =>
    intro q
    exact (ih _).trans ((detach _ _ n).trans (of_lists rfl rfl rfl))

theorem clearAll (h : WellFormed format q) : SameNodes (frameQueueV2ClearAll q) q := by
  unfold frameQueueV2ClearAll
  split
  · exact refl q
  · exact (cleanFree _ _).trans ⟨sweepReady_perm h.ready_nodup, sweepReady_count _ _⟩

end SameNodes

/-- **A call keeps the linked nodes**, unless it is `deinit`. -/
theorem run_conserves (h : WellFormed format q) (hc : q.count ≠ 0) {call : Call}
    (hcall : call ≠ .deinit) : SameNodes (call.run format q).1 q := by
  cases call with
  | init semaphore answer =>
    show SameNodes (frameQueueV2Init format semaphore answer q).1 q
    rw [init_of_count hc]
    exact .refl q
  | deinit => exact absurd rfl hcall
  | clearAll => exact .clearAll h
  | registerConsumer id => exact .registerConsumer h id
  | unregisterConsumer id => exact .unregisterConsumer h id
  | malloc size answer => exact .malloc format size answer q
  | complete frame => exact .complete format frame q
  | cancel frame => exact .cancel format frame q
  | getFrame id waits => exact .getFrame format id waits q
  | releaseFrame id frame => exact .releaseFrame format id frame q

/-! ## The order of completions -/

/-- `init` and `deinit` leave no completed node, or change nothing. -/
theorem entries_of_not_running (hw : WellFormed format w.queue) {call : Call}
    (hcall : ¬Running call) :
    (w.call format call).abstract.entries = [] ∨ (w.call format call).queue = w.queue := by
  cases call with
  | init semaphore answer =>
    show ((w.call format _).queue.entries = [] ∨ _)
    by_cases hc : w.queue.count = 0
    · left
      show (frameQueueV2Init format semaphore answer w.queue).1.entries = []
      have hready : (frameQueueV2Init format semaphore answer w.queue).1.readyList.nodes = [] := by
        unfold frameQueueV2Init
        split
        · have hl := hw.closed hc
          exact (List.append_eq_nil_iff.mp hl).2
        · split
          · omega
          · split
            · exact congrArg FrameList.nodes (createNodes_lists _ _ ⟨rfl, rfl⟩).2.1
            · rfl
      simp [FrameQueueV2.entries, hready]
    · exact .inr (init_of_count hc)
  | deinit =>
    show ((w.call format _).queue.entries = [] ∨ _)
    show (frameQueueV2Deinit format w.queue).1.entries = [] ∨
      (frameQueueV2Deinit format w.queue).1 = w.queue
    unfold frameQueueV2Deinit
    split
    · exact .inr rfl
    · split
      · exact .inr rfl
      · exact .inl rfl
  | _ => exact absurd trivial hcall

/-- **A call keeps the order of completions.** -/
theorem ordered_call (hw : WellFormed format w.queue) (h : Ordered w.abstract) (call : Call) :
    Ordered (w.call format call).abstract := by
  by_cases hcall : Running call
  · obtain ⟨ev, -, hstep⟩ := World.refines hw hcall
    exact h.step hstep
  · rcases entries_of_not_running hw hcall with hempty | hsame
    · exact .of_empty hempty
    · -- neither of them is an event of the history
      have habstract : (w.call format call).abstract = w.abstract := by
        have hhistory : (w.call format call).history = w.history := by
          cases call <;> first | rfl | exact absurd trivial hcall
        unfold World.abstract
        rw [hsame, hhistory]
      rw [habstract]
      exact h

/-! ## What `malloc` finds -/

/-- A failing `malloc` of an MJPEG or YUV queue. -/
theorem malloc_none (hformat : format = .mjpeg ∨ format = .yuv) (hc : q.count ≠ 0) {size : ℕ}
    {answer : Option FrameAddr} (h : (frameQueueV2Malloc format size answer q).2 = none) :
    answer = none ∨ ∀ n ∈ q.listed, (q.node n).inUse = true ∨ 0 < (q.node n).refCount := by
  have hu : usable format q = true := by
    rcases hformat with rfl | rfl <;> simp [usable, getFrameBufferListIndex, fbListMaxCount, hc]
  unfold frameQueueV2Malloc at h
  rw [if_pos hu] at h
  have hnode : ∀ (q' : FrameQueueV2) (n : NodeId),
      (mallocNode format size answer q' n).2 = none → answer = none := by
    intro q' n hnone
    unfold mallocNode at hnone
    rcases mallocFrame_cases format size answer q' n with ⟨f, -, he⟩ | ⟨kind, f, -, -, -, he⟩ |
      ⟨-, hfail, -⟩
    · simp [he] at hnone
    · simp [he] at hnone
    · -- both formats have an allocator
      rcases hfail with hkind | hfail
      · rcases hformat with rfl | rfl <;> exact absurd hkind (Option.some_ne_none _)
      · exact hfail
  rcases mallocSearch_cases format q with ⟨n, -, -, he⟩ | ⟨-, -, l₁, n, l₂, -, -, -, he⟩ |
    ⟨hfree, hready, -⟩
  · simp only [he] at h
    exact .inl (hnode _ n h)
  · simp only [he] at h
    exact .inl (hnode _ n h)
  · right
    intro n hn
    rcases mem_listed.mp hn with hn | hn
    · exact .inl (hfree n hn)
    · exact .inr (Nat.pos_of_ne_zero (hready hformat n hn))

/-- A node `malloc` takes off `ready_list` is the first one that nobody holds. -/
theorem malloc_takes {size : ℕ} {answer : Option FrameAddr}
    (hn : n ∈ q.readyList.nodes)
    (htaken : n ∉ (frameQueueV2Malloc format size answer q).1.readyList.nodes) :
    ∃ l₁ l₂, q.readyList.nodes = l₁ ++ n :: l₂ ∧ (q.node n).refCount = 0 ∧
      ∀ m ∈ l₁, (q.node m).refCount ≠ 0 := by
  unfold frameQueueV2Malloc at htaken
  split at htaken
  · rcases mallocSearch_cases format q with ⟨m, -, -, he⟩ | ⟨-, -, l₁, m, l₂, hl, hb, href, he⟩ |
      ⟨-, -, he⟩ <;> simp only [he] at htaken
    · rw [(mallocNode_node format size answer _ m).1] at htaken
      exact absurd hn htaken
    · rw [(mallocNode_node format size answer _ m).1] at htaken
      obtain rfl : n = m := by
        by_contra hnm
        exact htaken ((List.mem_erase_of_ne hnm).mpr hn)
      exact ⟨l₁, l₂, hl, href, hb⟩
    · exact absurd hn htaken
  · exact absurd hn htaken

/-! ## Runs -/

/-- Nothing has been called yet. -/
def World.boot (node : NodeId → FrameNode) : World := ⟨FrameQueueV2.boot node, History.empty⟩

/-- What holds between two calls of an initialised queue. -/
structure Serving (format : ImageFormat) (created : List NodeId) (w : World) : Prop where
  wellFormed : WellFormed format w.queue
  ordered : Ordered w.abstract
  count : w.queue.count ≠ 0
  nodes : w.queue.listed.Perm created

theorem Serving.call {created : List NodeId} (h : Serving format created w) {call : Call}
    (hfresh : Fresh format w.queue call) (hcall : call ≠ .deinit) :
    Serving format created (w.call format call) := by
  obtain ⟨hlisted, hcount⟩ := run_conserves h.wellFormed h.count hcall
  exact ⟨h.wellFormed.run hfresh, ordered_call h.wellFormed h.ordered call,
    fun hc => h.count (hcount.symm.trans hc), hlisted.trans h.nodes⟩

/-- A successful `init` begins a period of service. -/
theorem Serving.init {answer : ℕ → Option NodeId} (hformat : format ≠ .other)
    (hw : WellFormed format w.queue) (hordered : Ordered w.abstract) (hc : w.queue.count = 0)
    (hfresh : Fresh format w.queue (.init true answer)) :
    Serving format (createdNodes format answer) (w.call format (.init true answer)) := by
  obtain ⟨hfree, hready, -, -, hcount⟩ := init_lists answer hformat hc
  refine ⟨hw.run hfresh, ordered_call hw hordered _, ?_, ?_⟩
  · show (frameQueueV2Init format true answer w.queue).1.count ≠ 0
    rw [hcount]
    cases format <;> simp_all [maxFrameCount]
  · show (frameQueueV2Init format true answer w.queue).1.listed.Perm _
    simp [FrameQueueV2.listed, hfree, hready]

/-- From a successful `init` to `deinit`, whatever is called. -/
theorem serving_of_run (hformat : format ≠ .other) (node : NodeId → FrameNode)
    {before after : List Call} {answer : ℕ → Option NodeId}
    (hfresh : Along (World.call format) (fun w call => Fresh format w.queue call)
      (World.boot node) (before ++ .init true answer :: after))
    (hinit : (before.foldl (World.call format) (World.boot node)).queue.count = 0)
    (hkept : .deinit ∉ after) :
    Serving format (createdNodes format answer)
      ((before ++ .init true answer :: after).foldl (World.call format) (World.boot node)) := by
  obtain ⟨hfresh₁, hfresh₂, hfresh₃⟩ := along_append.mp hfresh
  -- the calls before `init`, `init`, and the calls after it
  have hbefore := hfresh₁.invariant
    (B := fun w => WellFormed format w.queue ∧ Ordered w.abstract)
    (fun w call _ hw hf => ⟨hw.1.run hf, ordered_call hw.1 hw.2 call⟩)
    ⟨.boot node, .of_empty rfl⟩
  have hstart := Serving.init hformat hbefore.1 hbefore.2 hinit hfresh₂
  rw [List.foldl_append, List.foldl_cons]
  refine hfresh₃.invariant (fun w call hmem hw hf => hw.call hf ?_) hstart
  rintro rfl
  exact hkept hmem

/-- The frame `malloc` drops is held by nobody, and was completed before the others that are. -/
theorem Serving.drops_oldest {created : List NodeId} (h : Serving format created w) {size : ℕ}
    {given : Option FrameAddr} (hn : n ∈ w.queue.readyList.nodes)
    (htaken : n ∉ (frameQueueV2Malloc format size given w.queue).1.readyList.nodes) :
    (w.queue.node n).refCount = 0 ∧ ∃ f, (w.queue.node n).frame = some f ∧
      ∀ m ∈ w.queue.readyList.nodes, m ≠ n → (w.queue.node m).refCount = 0 →
        ∃ g, (w.queue.node m).frame = some g ∧ w.history.stamp f < w.history.stamp g := by
  obtain ⟨l₁, l₂, hl, href, hbefore⟩ := malloc_takes hn htaken
  obtain ⟨f, hf⟩ := Option.ne_none_iff_exists'.mp (h.wellFormed.ready_frame n hn)
  refine ⟨href, f, hf, fun m hm hmn hmref => ?_⟩
  obtain ⟨g, hg⟩ := Option.ne_none_iff_exists'.mp (h.wellFormed.ready_frame m hm)
  -- an unheld frame is not before the node that was found
  have hm₂ : m ∈ l₂ := by
    rw [hl] at hm
    rcases List.mem_append.mp hm with hm | hm
    · exact absurd hmref (hbefore m hm)
    · exact (List.mem_cons.mp hm).resolve_left hmn
  have holder := h.ordered.oldest (entries_split hl) (List.mem_map.mpr ⟨m, hm₂, rfl⟩)
  refine ⟨g, hg, ?_⟩
  simp only [entryOf, hf, hg, Option.getD_some] at holder
  exact holder

/-- **Slow consumers do not starve the producer.** At any time between a successful `init` of an
MJPEG or YUV queue and its `deinit`, after any calls with any arguments, `malloc` fails only if
the allocator does, or if every node created at that `init` is reserved by a producer or held by
a consumer.  The frame it drops to make room is held by nobody, and is the oldest such frame. -/
theorem slow_consumers_do_not_starve_producers (hformat : format = .mjpeg ∨ format = .yuv)
    (node : NodeId → FrameNode) {before after : List Call} {answer : ℕ → Option NodeId}
    (hfresh : Along (World.call format) (fun w call => Fresh format w.queue call)
      (World.boot node) (before ++ .init true answer :: after))
    (hinit : (before.foldl (World.call format) (World.boot node)).queue.count = 0)
    (hkept : .deinit ∉ after) (size : ℕ) (given : Option FrameAddr) :
    let w := (before ++ .init true answer :: after).foldl (World.call format) (World.boot node)
    ((frameQueueV2Malloc format size given w.queue).2 = none →
      given = none ∨ ∀ n ∈ createdNodes format answer,
        (w.queue.node n).inUse = true ∨ 0 < (w.queue.node n).refCount) ∧
    ∀ n ∈ w.queue.readyList.nodes,
      n ∉ (frameQueueV2Malloc format size given w.queue).1.readyList.nodes →
        (w.queue.node n).refCount = 0 ∧ ∃ f, (w.queue.node n).frame = some f ∧
          ∀ m ∈ w.queue.readyList.nodes, m ≠ n → (w.queue.node m).refCount = 0 →
            ∃ g, (w.queue.node m).frame = some g ∧ w.history.stamp f < w.history.stamp g := by
  intro w
  have hother : format ≠ .other := by
    rcases hformat with rfl | rfl <;> exact nofun
  have hserving : Serving format (createdNodes format answer) w :=
    serving_of_run hother node hfresh hinit hkept
  refine ⟨fun hnone => ?_, fun n hn htaken => hserving.drops_oldest hn htaken⟩
  refine (malloc_none hformat hserving.count hnone).imp_right fun hall n hn => ?_
  exact hall n (hserving.nodes.mem_iff.mpr hn)

/-- Three frames of a YUV queue are completed, and the only consumer reads none of them. -/
def unreadFrames : List Call :=
  [.registerConsumer 1, .malloc 100 (some 1000), .complete (some 1000), .malloc 100 (some 1001),
    .complete (some 1001), .malloc 100 (some 1002), .complete (some 1002)]

/-- The next `malloc` takes the oldest of them. -/
theorem slow_consumers_do_not_starve_producers_unread :
    let w := (.init true (fun i => some (i + 1)) :: unreadFrames).foldl (World.call .yuv)
      (World.boot fun _ => .zero)
    w.queue.readyList.nodes = [1, 2, 3] ∧
      ∃ f, (w.queue.node 1).frame = some f ∧ ∀ m ∈ w.queue.readyList.nodes, m ≠ 1 →
        (w.queue.node m).refCount = 0 →
          ∃ g, (w.queue.node m).frame = some g ∧ w.history.stamp f < w.history.stamp g := by
  intro w
  have hfresh : Along (World.call .yuv) (fun w call => Fresh .yuv w.queue call)
      (World.boot fun _ => .zero) (.init true (fun i => some (i + 1)) :: unreadFrames) := by
    decide
  have hready : w.queue.readyList.nodes = [1, 2, 3] := by decide
  have htaken : 1 ∉ (frameQueueV2Malloc .yuv 100 none w.queue).1.readyList.nodes := by decide
  have h := @slow_consumers_do_not_starve_producers .yuv (.inr rfl) (fun _ => .zero) []
    unreadFrames (fun i => some (i + 1)) hfresh rfl (by simp [unreadFrames]) 100 none
  refine ⟨hready, (h.2 1 ?_ htaken).2⟩
  show 1 ∈ w.queue.readyList.nodes
  rw [hready]
  exact List.mem_cons_self

end FrameQueue

end YangIpc
