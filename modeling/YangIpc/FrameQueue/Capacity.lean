import YangIpc.FrameQueue.Buffers

/-!
# The size of the buffers `malloc` returns

A buffer stays with its node when `register_consumer` or `unregister_consumer` recycles the node
and when `malloc` reuses a completed one, and is handed out again without a look at the size that
was asked for.  So `malloc` returns a buffer of the requested size exactly when the node it
reserves has no buffer, or has one obtained with at least this size.

## Main definitions

* `Sufficient`: a call of `malloc` returns no buffer obtained with a smaller size
* `Candidate`: the node a call of `malloc` reserves
* `RoomKept`: the buffer left on that node, if any, is large enough

## Main results

* `malloc_covered_iff`: one call
* `mallocs_covered_iff`: every call of every run
-/

namespace YangIpc

namespace FrameQueue

open Transition

variable {format : ImageFormat} {q : FrameQueueV2} {n m : NodeId}

/-- The queue after a call. -/
def nextQueue (format : ImageFormat) (q : FrameQueueV2) (call : Call) : FrameQueueV2 :=
  (call.run format q).1

/-- The buffer `malloc` returns was obtained from the allocator with at least the requested
size. -/
def Sufficient (format : ImageFormat) (q : FrameQueueV2) : Call → Prop
  | .malloc size answer =>
    ∀ f, (frameQueueV2Malloc format size answer q).2 = some f →
      ∃ b ∈ (frameQueueV2Malloc format size answer q).1.live, b.addr = f ∧ size ≤ b.size
  | _ => True

/-- The node a call of `malloc` reserves: the first free node without a producer; if there is
none, in an MJPEG or YUV queue, the first completed node nobody holds. -/
inductive Candidate (format : ImageFormat) (q : FrameQueueV2) (n : NodeId) : Prop
  | free (l₁ l₂ : List NodeId) (split : q.freeList.nodes = l₁ ++ n :: l₂)
      (before : ∀ m ∈ l₁, (q.node m).inUse = true) (idle : (q.node n).inUse = false)
  | ready (l₁ l₂ : List NodeId) (busy : ∀ m ∈ q.freeList.nodes, (q.node m).inUse = true)
      (reuses : format = .mjpeg ∨ format = .yuv) (split : q.readyList.nodes = l₁ ++ n :: l₂)
      (before : ∀ m ∈ l₁, (q.node m).refCount ≠ 0) (unheld : (q.node n).refCount = 0)

/-- What is left on the node `malloc` reserves is large enough for the request. -/
def RoomKept (format : ImageFormat) (q : FrameQueueV2) : Call → Prop
  | .malloc size _ =>
    ∀ n, Candidate format q n → ∀ b ∈ q.live, (q.node n).frame = some b.addr → size ≤ b.size
  | _ => True

/-! ## One call -/

theorem Candidate.listed (h : Candidate format q n) : n ∈ q.listed := by
  cases h with
  | free l₁ l₂ split => exact mem_listed_of_free (by simp [split])
  | ready l₁ l₂ _ _ split => exact mem_listed_of_ready (by simp [split])

/-- The search of `malloc` finds the candidate. -/
theorem Candidate.search (h : Candidate format q n) : (mallocSearch format q).2 = some n := by
  unfold mallocSearch
  cases h with
  | free l₁ l₂ split before idle =>
    have hfind : (q.freeList.nodes.find? fun m => !(q.node m).inUse) = some n := by
      refine List.find?_eq_some_iff_append.mpr ⟨by simp [idle], l₁, l₂, split, fun m hm => ?_⟩
      simp [before m hm]
    rw [hfind]
  | ready l₁ l₂ busy reuses split before unheld =>
    have hnone : (q.freeList.nodes.find? fun m => !(q.node m).inUse) = none := by
      rw [List.find?_eq_none]
      intro m hm
      simp [busy m hm]
    have hfind : (q.readyList.nodes.find? fun m => (q.node m).refCount = 0) = some n := by
      refine List.find?_eq_some_iff_append.mpr ⟨by simp [unheld], l₁, l₂, split, fun m hm => ?_⟩
      simp [before m hm]
    simp only [hnone, reuses, if_true, hfind]

/-- What the search reserves is the candidate, with the buffer it has. -/
theorem mallocSearch_candidate (h : (mallocSearch format q).2 = some n) :
    Candidate format q n ∧ (mallocSearch format q).1.live = q.live ∧
      ((mallocSearch format q).1.node n).frame = (q.node n).frame := by
  unfold mallocSearch at h ⊢
  cases hfind : q.freeList.nodes.find? fun m => !(q.node m).inUse with
  | some k =>
    simp only [hfind, Option.some.injEq] at h ⊢
    subst h
    obtain ⟨hk, l₁, l₂, hl, hbefore⟩ := Lists.find?_split hfind
    exact ⟨.free l₁ l₂ hl (by simpa using hbefore) (by simpa using hk), rfl,
      by simp [setInUse]⟩
  | none =>
    simp only [hfind] at h ⊢
    have hbusy : ∀ m ∈ q.freeList.nodes, (q.node m).inUse = true := by
      simpa [List.find?_eq_none] using hfind
    by_cases hreuses : format = .mjpeg ∨ format = .yuv
    · simp only [hreuses, if_true] at h ⊢
      cases hready : q.readyList.nodes.find? fun m => (q.node m).refCount = 0 with
      | some k =>
        simp only [hready, Option.some.injEq] at h ⊢
        subst h
        obtain ⟨hk, l₁, l₂, hl, hbefore⟩ := Lists.find?_split hready
        exact ⟨.ready l₁ l₂ hbusy hreuses hl (by simpa using hbefore) (by simpa using hk), rfl,
          by simp [reuseNode]⟩
      | none => simp [hready] at h
    · simp [hreuses] at h

/-- There is one candidate at most. -/
theorem Candidate.unique (hn : Candidate format q n) (hm : Candidate format q m) : n = m :=
  Option.some.inj (hn.search.symm.trans hm.search)

/-- The last steps of `malloc` change no buffer. -/
theorem mallocTail_live : (mallocDone (mallocMask (mallocReset q n) n)).live = q.live := rfl

/-- A call of `malloc` returns the buffer of its candidate, or a new one of the requested size,
or `NULL`. -/
theorem malloc_cases (format : ImageFormat) (size : ℕ) (answer : Option FrameAddr)
    (q : FrameQueueV2) :
    (∃ n f, Candidate format q n ∧ (q.node n).frame = some f ∧
      (frameQueueV2Malloc format size answer q).2 = some f ∧
      (frameQueueV2Malloc format size answer q).1.live = q.live) ∨
    (∃ n kind f, Candidate format q n ∧ (q.node n).frame = none ∧
      (frameQueueV2Malloc format size answer q).2 = some f ∧
      (frameQueueV2Malloc format size answer q).1.live = ⟨kind, f, size⟩ :: q.live) ∨
    ((frameQueueV2Malloc format size answer q).2 = none ∧
      ∀ n, usable format q = true → Candidate format q n → (q.node n).frame = none) := by
  unfold frameQueueV2Malloc
  by_cases hu : usable format q = true
  · simp only [hu, if_true]
    rcases hsearch : mallocSearch format q with ⟨q', _ | n⟩
    · refine .inr (.inr ⟨rfl, fun n _ hn => ?_⟩)
      have hsome := hn.search
      simp [hsearch] at hsome
    · obtain ⟨hn, hlive, hframe⟩ := mallocSearch_candidate (n := n) (by rw [hsearch])
      simp only [hsearch] at hlive hframe
      simp only [mallocNode]
      rcases mallocFrame_cases format size answer q' n with ⟨f, hf, he⟩ |
        ⟨kind, f, hf, -, -, he⟩ | ⟨hf, -, he⟩ <;> simp only [he]
      · exact .inl ⟨n, f, hn, hframe ▸ hf, rfl, mallocTail_live.trans hlive⟩
      · refine .inr (.inl ⟨n, kind, f, hn, hframe ▸ hf, rfl, ?_⟩)
        exact mallocTail_live.trans (congrArg _ hlive)
      · refine .inr (.inr ⟨trivial, fun m _ hm => ?_⟩)
        rw [hm.unique hn, ← hframe]
        exact hf
  · simp [hu]

/-- The live buffers have different addresses. -/
theorem WellFormed.buffer_eq (h : WellFormed format q) {b b' : Buffer} (hb : b ∈ q.live)
    (hb' : b' ∈ q.live) (haddr : b.addr = b'.addr) : b = b' :=
  List.inj_on_of_nodup_map h.live_nodup hb hb' haddr

/-- An unusable queue has no buffer on a linked node. -/
theorem WellFormed.live_of_unusable (h : WellFormed format q) (hu : ¬usable format q = true) :
    q.live = [] := by
  by_cases hc : q.count = 0
  · exact h.live_eq_nil (h.closed hc)
  · refine List.eq_nil_iff_forall_not_mem.mpr fun b hb => ?_
    have hk := h.live_kind b hb
    cases format <;> simp_all [usable, bufferKind, getFrameBufferListIndex, fbListMaxCount]

/-- **One call.** -/
theorem malloc_covered_iff (h : WellFormed format q) {call : Call} :
    Sufficient format q call ↔ RoomKept format q call := by
  cases call with
  | malloc size answer =>
    show (∀ f, (frameQueueV2Malloc format size answer q).2 = some f → _) ↔
      ∀ n, Candidate format q n → _
    rcases malloc_cases format size answer q with ⟨n, f, hn, hf, hresult, hlive⟩ |
      ⟨n, kind, f, hn, hf, hresult, hlive⟩ | ⟨hresult, hnone⟩
    · -- the buffer left on the node is returned
      rw [hresult, hlive]
      constructor
      · intro hcov m hm b hb hmb
        obtain rfl := hm.unique hn
        obtain ⟨b', hb', haddr, hsize⟩ := hcov f rfl
        obtain rfl : b.addr = f := Option.some.inj (hmb.symm.trans hf)
        exact h.buffer_eq hb' hb haddr ▸ hsize
      · rintro hroom _ ⟨⟩
        obtain ⟨b, hb, rfl⟩ := h.frame_live n hn.listed f hf
        exact ⟨b, hb, rfl, hroom n hn b hb hf⟩
    · -- a new buffer is returned
      rw [hresult, hlive]
      constructor
      · intro _ m hm b _ hmb
        rw [hm.unique hn, hf] at hmb
        exact absurd hmb nofun
      · rintro _ _ ⟨⟩
        exact ⟨_, List.mem_cons_self, rfl, le_rfl⟩
    · -- nothing is returned: there is no candidate, or it has no buffer
      rw [hresult]
      refine ⟨fun _ m hm b hb hmb => ?_, fun _ f hf => absurd hf nofun⟩
      by_cases hu : usable format q = true
      · rw [hnone m hu hm] at hmb
        exact absurd hmb nofun
      · rw [h.live_of_unusable hu] at hb
        exact absurd hb List.not_mem_nil
  | _ => exact Iff.rfl

/-! ## Runs -/

/-- **Every call of every run.** From the static queue, with any calls and arguments, `malloc`
returns only buffers obtained with at least the requested size if and only if whenever it
reserves a node with a buffer, that buffer is large enough. -/
theorem mallocs_covered_iff (node : NodeId → FrameNode) {calls : List Call}
    (hfresh : Along (nextQueue format) (Fresh format) (FrameQueueV2.boot node) calls) :
    Along (nextQueue format) (Sufficient format) (FrameQueueV2.boot node) calls ↔
      Along (nextQueue format) (RoomKept format) (FrameQueueV2.boot node) calls :=
  along_congr_of (B := WellFormed format) (fun _ _ h _ => malloc_covered_iff h)
    (fun _ _ h hf => h.run hf) (.boot node) hfresh

/-- A slow consumer leaves three small frames of a YUV queue. -/
def smallFrames : List Call :=
  [.init true fun i => some (i + 1), .registerConsumer 1,
    .malloc 100 (some 1000), .complete (some 1000), .malloc 100 (some 1001),
    .complete (some 1001), .malloc 100 (some 1002), .complete (some 1002)]

/-- The oldest of the small frames is returned for a larger request. -/
theorem not_covered_after_smallFrames :
    ¬∀ (format : ImageFormat) (node : NodeId → FrameNode) (calls : List Call),
      Along (nextQueue format) (Fresh format) (FrameQueueV2.boot node) calls →
        Along (nextQueue format) (Sufficient format) (FrameQueueV2.boot node) calls := by
  intro hall
  let q := smallFrames.foldl (nextQueue .yuv) (FrameQueueV2.boot fun _ => FrameNode.zero)
  have hfresh : Along (nextQueue .yuv) (Fresh .yuv) (FrameQueueV2.boot fun _ => FrameNode.zero)
      (smallFrames ++ [.malloc 200 none]) := by
    decide
  have hsufficient : Sufficient .yuv q (.malloc 200 none) :=
    (along_append.mp (hall _ _ _ hfresh)).2.1
  have hresult : (frameQueueV2Malloc .yuv 200 none q).2 = some 1000 := by decide
  have hlive : ∀ b ∈ (frameQueueV2Malloc .yuv 200 none q).1.live, b.size = 100 := by decide
  obtain ⟨b, hb, -, hsize⟩ := hsufficient 1000 hresult
  have hb100 := hlive b hb
  omega

/-- A run whose larger frame finds a node without a buffer. -/
theorem mallocs_covered_iff_larger :
    Along (nextQueue .yuv) (Sufficient .yuv) (FrameQueueV2.boot fun _ => FrameNode.zero)
        [.init true fun i => some (i + 1), .malloc 100 (some 1000), .malloc 200 (some 1001)] ↔
      Along (nextQueue .yuv) (RoomKept .yuv) (FrameQueueV2.boot fun _ => FrameNode.zero)
        [.init true fun i => some (i + 1), .malloc 100 (some 1000), .malloc 200 (some 1001)] :=
  mallocs_covered_iff _ (by decide)

end FrameQueue

end YangIpc
