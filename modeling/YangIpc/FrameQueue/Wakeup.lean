import YangIpc.FrameQueue.Producers
import YangIpc.Library.Bits
import Mathlib.Data.Fintype.Card

/-!
# Waking consumers

`complete` posts the semaphore `frame_ready` once for each active consumer, so that all of them
can wake up.  The tokens are anonymous.  A consumer that took its frame without waiting, or after
one token, loops and takes a second token although nothing is pending for it; the consumer the
token was meant for then waits with its frame on `ready_list`.

A consumer is starving when it waits and a completed frame is pending for it.  As long as a token
taken for nothing is one that no starving consumer needs, the tokens and the posts still to be
made cover the starving consumers, and nobody is left waiting.

## Main definitions

* `System.starving`: the consumers that wait with a pending frame
* `loops`, `spared`: how consumers call, and the tokens that may be taken for nothing
* `AllAwake`: no wake-up has been lost

## Main results

* `exec_wakes`: what one piece does to tokens, posts and pending frames
* `no_wakeup_is_lost`: nobody is left waiting in runs that spare the tokens of others
* `wakeup_may_be_lost`: in other runs somebody may be
-/

namespace YangIpc

namespace FrameQueue

open Transition Bits

variable {format : ImageFormat} {created : List NodeId} {q q' : FrameQueueV2} {s s' : System}
  {a : Action} {env : Env} {pc pc' : Pc} {n : NodeId} {id : Mask} {idx i : Fin 8}

/-! ## Counting consumers -/

theorem countLoop_eq (fuel : ℕ) : ∀ (mask : Mask) (count : ℕ),
    countLoop fuel mask count = count + countBelow fuel mask := by
  induction fuel with
  | zero => simp [countLoop, countBelow]
  | succ fuel ih =>
    intro mask count
    rw [countLoop]
    split
    · rename_i hzero
      subst hzero
      exact (congrArg (count + ·) (countBelow_zero_right _)).symm
    · have hlow : (mask &&& 1).toNat = (mask.getLsbD 0).toNat := by
        rw [BitVec.getLsbD, Nat.testBit_zero, BitVec.toNat_and]
        have hmod := Nat.and_one_is_mod mask.toNat
        have hone : (1 : Mask).toNat = 1 := rfl
        rw [hone, hmod]
        rcases Nat.mod_two_eq_zero_or_one mask.toNat with h | h <;> simp [h]
      rw [ih, countBelow_succ, hlow, add_assoc]

/-- `count_active_consumers` counts the bits of the mask. -/
theorem countActiveConsumers_eq (mask : Mask) : countActiveConsumers mask = countBelow 32 mask := by
  rw [countActiveConsumers, countLoop_eq, zero_add]

/-- The id of a consumer, from its index. -/
def consumerBit (idx : Fin 8) : Mask := 1#32 <<< idx.val

/-- The index of a consumer with a single bit is the place of this bit. -/
theorem eq_consumerBit (hid : SingleBit id) (hidx : consumerIdx id = some idx) :
    id = consumerBit idx := by
  obtain ⟨i, hi, rfl⟩ := hid
  have hbit := List.find?_some hidx
  simp only [decide_eq_true_eq] at hbit
  have hmem := (and_one_shiftLeft_ne_zero_iff (by omega)).mp hbit
  rw [bits_one_shiftLeft hi] at hmem
  rw [consumerBit, Set.mem_singleton_iff.mp hmem]

/-! ## Waiting -/

/-- The consumer of a `get_frame` in flight. -/
def Pc.getter : Pc → Option Mask
  | .getEnabled id => some id
  | .getSearch id _ => some id
  | .getWait id _ => some id
  | _ => none

/-- The consumer has one bit, and the index that belongs to it. -/
def Pc.Fit : Pc → Prop
  | .getEnabled id => SingleBit id
  | .getSearch id idx => id = consumerBit idx
  | .getWait id idx => id = consumerBit idx
  | _ => True

/-- A call of `cancel`. -/
def Pc.cancels : Pc → Bool
  | .cancelFind _ => true
  | .cancelFree _ => true
  | .cancelClear _ => true
  | _ => false

/-- The posts a `complete` in flight has still to make. -/
def Pc.postsLeft : Pc → ℕ
  | .completePost left => left
  | _ => 0

/-- A completed frame is pending for the consumer. -/
def FrameQueueV2.HasPending (q : FrameQueueV2) (id : Mask) : Prop :=
  ∃ n ∈ q.readyList.nodes, (q.node n).pendingFor id = true

/-- The consumer waits for the semaphore. -/
def System.Waits (s : System) (idx : Fin 8) : Prop :=
  ∃ t ∈ s.threads, t.pc = .getWait (consumerBit idx) idx

instance (q : FrameQueueV2) (id : Mask) : Decidable (q.HasPending id) :=
  inferInstanceAs (Decidable (∃ n ∈ q.readyList.nodes, (q.node n).pendingFor id = true))

instance (s : System) (idx : Fin 8) : Decidable (s.Waits idx) :=
  inferInstanceAs (Decidable (∃ t ∈ s.threads, t.pc = .getWait (consumerBit idx) idx))

instance (id : Mask) : Decidable (SingleBit id) :=
  inferInstanceAs (Decidable (∃ i < 32, id = 1#32 <<< i))

/-- The consumers that wait with a pending frame. -/
def System.starving (s : System) : Finset (Fin 8) :=
  Finset.univ.filter fun idx => s.Waits idx ∧ s.queue.HasPending (consumerBit idx)

/-- The posts still to be made. -/
def posts : List Thread → ℕ
  | [] => 0
  | t :: rest => t.pc.postsLeft + posts rest

@[simp] theorem posts_cons (t : Thread) (l : List Thread) :
    posts (t :: l) = t.pc.postsLeft + posts l := rfl

theorem posts_perm {l l' : List Thread} (h : l.Perm l') : posts l = posts l' := by
  induction h with
  | nil => rfl
  | cons t _ ih => rw [posts_cons, posts_cons, ih]
  | swap t u l =>
    simp only [posts_cons]
    omega
  | trans _ _ ih ih' => exact ih.trans ih'

theorem posts_eq_zero {l : List Thread} (h : ∀ t ∈ l, t.pc.postsLeft = 0) : posts l = 0 := by
  induction l with
  | nil => rfl
  | cons t rest ih =>
    rw [posts_cons, h t List.mem_cons_self, ih fun u hu => h u (List.mem_cons_of_mem _ hu)]

theorem mem_starving : i ∈ s.starving ↔ s.Waits i ∧ s.queue.HasPending (consumerBit i) := by
  simp [System.starving]

/-! ## One piece -/

theorem pendingFor_iff (x : FrameNode) (id : Mask) : x.pendingFor id = true ↔
    (bits x.consumerMask ∩ bits id).Nonempty ∧ bits x.accessedMask ∩ bits id = ∅ := by
  simp only [FrameNode.pendingFor, Bool.and_eq_true, decide_eq_true_eq]
  exact and_congr and_ne_zero_iff and_eq_zero_iff

/-- No token is posted or taken, and no frame becomes pending. -/
structure Calm (q q' : FrameQueueV2) : Prop where
  tokens : q'.frameReady = q.frameReady
  pending : ∀ m ∈ q'.readyList.nodes, m ∈ q.readyList.nodes ∧
    ∀ id, (q'.node m).pendingFor id = true → (q.node m).pendingFor id = true

theorem Calm.refl (q : FrameQueueV2) : Calm q q := ⟨rfl, fun _ hm => ⟨hm, fun _ h => h⟩⟩

theorem Calm.trans {q'' : FrameQueueV2} (h : Calm q q') (h' : Calm q' q'') : Calm q q'' where
  tokens := h'.tokens.trans h.tokens
  pending m hm := by
    obtain ⟨hm', hp'⟩ := h'.pending m hm
    obtain ⟨hm'', hp⟩ := h.pending m hm'
    exact ⟨hm'', fun id hid => hp id (hp' id hid)⟩

theorem Calm.hasPending (h : Calm q q') (hid : q'.HasPending id) : q.HasPending id := by
  obtain ⟨m, hm, hp⟩ := hid
  exact ⟨m, (h.pending m hm).1, (h.pending m hm).2 id hp⟩

/-- Pieces that keep the masks of the completed nodes. -/
theorem calm_of_masks (htokens : q'.frameReady = q.frameReady)
    (hready : ∀ m ∈ q'.readyList.nodes, m ∈ q.readyList.nodes)
    (hmask : ∀ m ∈ q'.readyList.nodes, (q'.node m).consumerMask = (q.node m).consumerMask ∧
      (q'.node m).accessedMask = (q.node m).accessedMask) : Calm q q' := by
  refine ⟨htokens, fun m hm => ⟨hready m hm, fun id h => ?_⟩⟩
  rw [FrameNode.pendingFor, (hmask m hm).1, (hmask m hm).2] at h
  exact h

/-- Pieces that leave the completed nodes alone. -/
theorem calm_of_same (htokens : q'.frameReady = q.frameReady)
    (hready : q'.readyList.nodes = q.readyList.nodes) (hnode : q'.node = q.node) : Calm q q' := by
  refine calm_of_masks htokens (fun m hm => hready ▸ hm) fun m _ => ?_
  rw [hnode]
  exact ⟨rfl, rfl⟩

/-- Taking a node out of the completed ones. -/
theorem calm_erase (hnd : q.readyList.nodes.Nodup) (htokens : q'.frameReady = q.frameReady)
    (hready : q'.readyList.nodes = q.readyList.nodes.erase n)
    (hnode : ∀ m, m ≠ n → q'.node m = q.node m) : Calm q q' := by
  refine calm_of_masks htokens (fun m hm => ?_) fun m hm => ?_ <;> rw [hready] at hm
  · exact List.mem_of_mem_erase hm
  · rw [hnode m ((List.Nodup.mem_erase_iff hnd).mp hm).1]
    exact ⟨rfl, rfl⟩

/-- Storing a node that keeps its masks. -/
theorem calm_setNode {z : FrameNode} (hc : z.consumerMask = (q.node n).consumerMask)
    (ha : z.accessedMask = (q.node n).accessedMask) : Calm q (q.setNode n z) := by
  refine calm_of_masks rfl (fun _ hm => hm) fun m _ => ?_
  by_cases hmn : m = n
  · subst hmn
    simpa using ⟨hc, ha⟩
  · simp [hmn]

/-- Storing a node that is not completed. -/
theorem calm_setNode_of_notMem {z : FrameNode} (hn : n ∉ q.readyList.nodes) :
    Calm q (q.setNode n z) := by
  refine calm_of_masks rfl (fun _ hm => hm) fun m hm => ?_
  have hmn : m ≠ n := by
    rintro rfl
    exact hn hm
  simp [hmn]

theorem calm_freeFrame : Calm q (q.freeFrame format n) := by
  refine calm_of_masks ?_ (fun m hm => by simpa using hm) fun m _ => by simp
  unfold FrameQueueV2.freeFrame
  split <;> rfl

/-- Sweeps make no frame pending. -/
theorem calm_sweep {visit : FrameNode → FrameNode × Bool} {stat : ℕ}
    (hnd : q.readyList.nodes.Nodup)
    (hvisit : ∀ z id, (visit z).1.pendingFor id = true → z.pendingFor id = true) :
    Calm q (sweepReady visit stat q.readyList.nodes q) := by
  refine (sweepReady_induction visit stat
    (P := fun p => p.readyList.nodes.Nodup ∧ Calm q p) (fun p n ⟨hp, hq⟩ hn => ?_)
    q.readyList.nodes q hnd (fun _ hm => hm) ⟨hnd, .refl q⟩).2
  unfold sweepNode
  split
  · refine ⟨hp.erase n, hq.trans ⟨rfl, fun m hm => ?_⟩⟩
    have hmn : m ≠ n := ((List.Nodup.mem_erase_iff hp).mp hm).1
    refine ⟨List.mem_of_mem_erase hm, fun id h => ?_⟩
    simpa [hmn] using h
  · refine ⟨hp, hq.trans ⟨rfl, fun m hm => ⟨hm, fun id h => ?_⟩⟩⟩
    by_cases hmn : m = n
    · subst hmn
      exact hvisit _ id (by simpa using h)
    · simpa [hmn] using h

/-- Taking a frame makes no frame pending. -/
theorem calm_holdNode : Calm q (holdNode id idx q n) := by
  refine ⟨rfl, fun m hm => ⟨hm, fun id' h => ?_⟩⟩
  by_cases hmn : m = n
  · subst hmn
    simp only [holdNode_node, Function.update_self, pendingFor_iff, bits_or,
      Set.union_inter_distrib_right, Set.union_empty_iff] at h ⊢
    exact ⟨h.1, h.2.1⟩
  · simpa [hmn] using h

theorem unregisterVisit_pending (id id' : Mask) (z : FrameNode)
    (h : (unregisterVisit id z).1.pendingFor id' = true) : z.pendingFor id' = true := by
  unfold unregisterVisit at h
  split at h
  · simp only [pendingFor_iff, bits_and_not] at h ⊢
    exact ⟨h.1.mono fun i hi => ⟨hi.1.1, hi.2⟩, h.2⟩
  · exact h

/-- What a piece may do to tokens, posts and pending frames. -/
inductive Wakes (q : FrameQueueV2) : Pc → FrameQueueV2 → Next → Prop
  /-- nothing; who begins to wait has found no pending frame -/
  | calm (pc : Pc) (q' : FrameQueueV2) (next : Next) (quiet : Calm q q') (old : pc.postsLeft = 0)
      (new : ∀ pc', next = .goto pc' → pc'.postsLeft = 0)
      (wait : ∀ id idx, next = .goto (.getWait id idx) →
        pc = .getWait id idx ∨ ¬q'.HasPending id) : Wakes q pc q' next
  /-- `complete` publishes a frame and will post once for each active consumer -/
  | publish (f : FrameAddr) (n : NodeId) (free : n ∈ q.freeList.nodes) :
      Wakes q (.completeFind f) (publishNode q n)
        (.goto (.completePost (signalCount (countActiveConsumers q.activeConsumers))))
  /-- one post -/
  | post (left : ℕ) :
      Wakes q (.completePost (left + 1)) (completePost q) (.goto (.completePost left))
  /-- a waiting consumer takes a token and searches again -/
  | take (id : Mask) (idx : Fin 8) (token : q.frameReady ≠ 0) :
      Wakes q (.getWait id idx) (getToken q) (.goto (.getSearch id idx))

/-- A piece that ends a call. -/
theorem Wakes.ends {result : Result} (hq : Calm q q') (hpc : pc.postsLeft = 0) :
    Wakes q pc q' (.done result) :=
  .calm pc q' _ hq hpc (fun _ h => Next.noConfusion h) fun _ _ h => Next.noConfusion h

/-- A piece after which a call goes on, but not to wait. -/
theorem Wakes.moves (hq : Calm q q') (hpc : pc.postsLeft = 0) (hpc' : pc'.postsLeft = 0)
    (hwait : ∀ id idx, pc' ≠ .getWait id idx) : Wakes q pc q' (.goto pc') :=
  .calm pc q' _ hq hpc (fun _ h => Next.goto.inj h ▸ hpc') fun id idx h =>
    absurd (Next.goto.inj h) (hwait id idx)

variable (format env) in
/-- **Tokens, posts and pending frames, piece by piece.** -/
theorem exec_wakes {strict : Prop} (hnd : q.listed.Nodup) (hs : pc.role.Sound strict q) :
    Wakes q pc (pc.exec format env q).1 (pc.exec format env q).2 := by
  have hnotReady : ∀ n, n ∈ q.freeList.nodes → n ∉ q.readyList.nodes := fun n hf hr =>
    (List.nodup_append.mp hnd).2.2 n hf n hr rfl
  have hready : q.readyList.nodes.Nodup := (List.nodup_append.mp hnd).2.1
  -- only `complete` posts and only the wait takes a token; the other pieces make no frame pending
  cases pc with
  | mallocSearch size =>
    rcases mallocSearch_cases format q with ⟨n, hn, -, he⟩ | ⟨-, -, l₁, n, l₂, hl, -, -, he⟩ |
      ⟨-, -, he⟩ <;> simp only [Pc.exec, he]
    · exact .moves (calm_setNode rfl rfl) rfl rfl (by simp)
    · exact .moves (calm_erase hready rfl rfl fun m hm => by simp [hm]) rfl rfl (by simp)
    · exact .ends (.refl q) rfl
  | mallocFrame size n =>
    cases hf : (q.node n).frame <;> simp only [Pc.exec, hf] <;>
      exact .moves (.refl q) rfl rfl (by simp)
  | mallocAlloc size n =>
    refine .moves ?_ rfl rfl (by simp)
    simp only [Pc.exec, FrameQueue.mallocAlloc]
    split <;> exact calm_of_same rfl rfl rfl
  | mallocAttach n answer =>
    cases answer with
    | none => exact .ends (calm_setNode rfl rfl) rfl
    | some f => exact .moves (calm_setNode rfl rfl) rfl rfl (by simp)
  | mallocReset n frame =>
    exact .moves (calm_setNode_of_notMem (hnotReady n (hs.malloc n rfl).1)) rfl rfl (by simp)
  | mallocMask n frame =>
    exact .moves (calm_setNode_of_notMem (hnotReady n (hs.malloc n rfl).1)) rfl rfl (by simp)
  | mallocDone frame => exact .ends (calm_of_same rfl rfl rfl) rfl
  | completeFind frame =>
    rcases completeFind_cases frame q with ⟨n, hn, -, -, he⟩ | ⟨-, he⟩ <;> simp only [Pc.exec, he]
    · exact .publish frame n hn
    · exact .ends (.refl q) rfl
  | completePost left =>
    cases left with
    | zero => exact .moves (.refl q) rfl rfl (by simp)
    | succ left => exact .post left
  | completeDone => exact .ends (calm_of_same rfl rfl rfl) rfl
  | cancelFind frame =>
    rcases cancelFind_cases frame q with ⟨n, -, -, -, he⟩ | ⟨-, he⟩ <;> simp only [Pc.exec, he]
    · exact .moves (calm_setNode rfl rfl) rfl rfl (by simp)
    · exact .ends (.refl q) rfl
  | cancelFree n =>
    cases hf : (q.node n).frame <;> simp only [Pc.exec, hf]
    · exact .ends (.refl q) rfl
    · exact .moves calm_freeFrame rfl rfl (by simp)
  | cancelClear n => exact .ends (calm_setNode rfl rfl) rfl
  | getEnabled id =>
    cases he : FrameQueue.getEnabled id q <;> simp only [Pc.exec, he]
    · exact .ends (.refl q) rfl
    · exact .moves (.refl q) rfl rfl (by simp)
  | getSearch id idx =>
    rcases getSearch_cases id idx q with ⟨l₁, n, l₂, -, -, -, he⟩ | ⟨hnone, he⟩ <;>
      simp only [Pc.exec, he]
    · exact .ends calm_holdNode rfl
    · -- who goes to wait has found no pending frame
      refine .calm _ _ _ (.refl q) rfl (by rintro _ ⟨⟩; rfl) fun id' idx' h => .inr ?_
      obtain ⟨rfl, rfl⟩ : id = id' ∧ idx = idx' := by simpa using h
      rintro ⟨n, hn, hp⟩
      simp [hnone n hn] at hp
  | getWait id idx =>
    simp only [Pc.exec]
    split
    · exact .ends (.refl q) rfl
    · split
      · refine .calm _ _ _ (.refl q) rfl (by rintro _ ⟨⟩; rfl) fun id' idx' h => .inl ?_
        simpa using h
      · rename_i htoken
        exact .take id idx htoken
  | releaseFind idx frame =>
    rcases releaseFind_cases idx frame q with
      ⟨l₁, n, l₂, hl, -, -, ⟨-, -, he⟩ | ⟨-, he⟩⟩ | ⟨-, he⟩ <;> simp only [Pc.exec, he]
    · exact .moves (calm_erase hready rfl rfl fun m hm => by simp [hm]) rfl rfl (by simp)
    · refine .ends (calm_of_masks rfl (fun _ hm => hm) fun m hm => ?_) rfl
      by_cases hmn : m = n
      · subst hmn
        simp
      · simp [hmn]
    · exact .ends (.refl q) rfl
  | releaseFree n =>
    cases hf : (q.node n).frame <;> simp only [Pc.exec, hf]
    · exact .moves (.refl q) rfl rfl (by simp)
    · exact .moves calm_freeFrame rfl rfl (by simp)
  | releaseClear n => exact .moves (calm_setNode rfl rfl) rfl rfl (by simp)
  | releaseReset n =>
    exact .moves (calm_setNode_of_notMem fun hr => hs.loose n rfl (mem_listed_of_ready hr)) rfl rfl
      (by simp)
  | releaseAppend n => exact .moves (calm_of_same rfl rfl rfl) rfl rfl (by simp)
  | releaseDone => exact .ends (calm_of_same rfl rfl rfl) rfl
  | register id idx =>
    have hmid : Calm q { q with
        consumers := Function.update q.consumers idx ⟨id, 0, 0, true⟩
        activeConsumers := q.activeConsumers ||| id } :=
      calm_of_same rfl rfl rfl
    exact .ends (hmid.trans (calm_sweep hready fun _ _ h => h)) rfl
  | unregister id idx =>
    have hmid : Calm q { q with
        activeConsumers := q.activeConsumers &&& ~~~id
        consumers := Function.update q.consumers idx { q.consumers idx with enabled := false } } :=
      calm_of_same rfl rfl rfl
    exact .ends (hmid.trans (calm_sweep hready fun z id' => unregisterVisit_pending id id' z)) rfl
  | clearReady => exact absurd rfl hs.wipe
  | clearFree => exact absurd rfl hs.wipe

/-- A call stays a call of the same function, for the same consumer. -/
theorem exec_next (h : (pc.exec format env q).2 = .goto pc') :
    pc'.getter = pc.getter ∧ (pc.Fit → pc'.Fit) ∧ (pc'.cancels = true → pc.cancels = true) := by
  cases pc with
  | getEnabled id =>
    cases he : FrameQueue.getEnabled id q with
    | none => simp [Pc.exec, he] at h
    | some idx =>
      obtain rfl : Pc.getSearch id idx = pc' := by simpa [Pc.exec, he] using h
      refine ⟨rfl, fun hid => eq_consumerBit hid ?_, fun h => h⟩
      exact (Option.filter_eq_some_iff.mp he).1
  | completePost left => cases left <;> · cases h; simp [Pc.getter, Pc.Fit, Pc.cancels]
  | _ =>
    revert h
    simp only [Pc.exec]
    repeat' split
    all_goals rintro ⟨⟩ <;> simp [Pc.getter, Pc.Fit, Pc.cancels]

/-! ## The invariant -/

/-- The promises of the consumers: each is a loop that calls `get_frame` without a timeout, with
its own bit, one call at a time.  Producers complete what they obtain. -/
def loops (s : System) : Action → Bool
  | .call _ (.cancel _) => false
  | .call _ (.getFrame id) => SingleBit id ∧ s.threads.all fun t => t.pc.getter ≠ some id
  | .run _ env => !env.timeout
  | _ => true

/-- A consumer for which nothing is pending takes a token only if the other tokens and the posts
still to be made are enough for the starving consumers. -/
def spared (s : System) : Action → Bool
  | .run ⟨_, .getWait id _⟩ _ =>
    s.queue.frameReady = 0 ∨ s.queue.HasPending id ∨
      s.starving.card < s.queue.frameReady + posts s.threads
  | _ => true

/-- The invariant: consumers are one call each, and the tokens and outstanding posts cover the
starving consumers. -/
structure Covered (created : List NodeId) (format : ImageFormat) (s : System) : Prop where
  conserved : Conserved created s
  own : Own False format created s.queue s.roles
  calls : ∀ t ∈ s.threads, t.pc.cancels = false ∧ t.pc.Fit
  single : (s.threads.filterMap fun t => t.pc.getter).Nodup
  enough : s.starving.card ≤ s.queue.frameReady + posts s.threads

theorem Pc.cancelNode_role {pc : Pc} (h : pc.cancels = false) : pc.role.cancelNode = none := by
  cases pc with
  | cancelFind frame | cancelFree n | cancelClear n => exact absurd h (by simp [Pc.cancels])
  | _ => rfl

theorem Pc.not_dangles_role {pc : Pc} {n : NodeId} (h : pc.cancels = false) :
    ¬pc.role.Dangles False n := by
  cases pc with
  | cancelFind frame | cancelFree m | cancelClear m => exact absurd h (by simp [Pc.cancels])
  | _ => simp [Pc.role, Role.Dangles]

theorem undisturbed_of_calls (hok : orderly s a = true)
    (h : ∀ t ∈ s.threads, t.pc.cancels = false ∧ t.pc.Fit) : s.Undisturbed False a where
  frame t env size n ha hpc u hu hcancel :=
    Option.some_ne_none n (hcancel.symm.trans (Pc.cancelNode_role (h u hu).1))
  alloc t env size n f ha hpc henv := by
    subst ha
    obtain ⟨caller, pc⟩ := t
    obtain ⟨answer, timeout⟩ := env
    subst hpc henv
    simp only [orderly, List.all_eq_true] at hok
    refine ⟨?_, fun u hu m hdangle => ?_⟩
    · rintro ⟨b, hb, hbf⟩
      simpa [hbf] using hok b hb
    · exact absurd hdangle (Pc.not_dangles_role (h u hu).1)

/-- The starving consumers when one call has moved on. -/
theorem starving_next {t : Thread} {rest : List Thread} {next : Next} {owned : List (ℕ × FrameAddr)}
    (h : i ∈ (System.mk q' (t.next next ++ rest) owned).starving) :
    (next = .goto (.getWait (consumerBit i) i) ∨
      ∃ u ∈ rest, u.pc = .getWait (consumerBit i) i) ∧ q'.HasPending (consumerBit i) := by
  obtain ⟨⟨u, hu, hpc⟩, hp⟩ := mem_starving.mp h
  refine ⟨?_, hp⟩
  rcases List.mem_append.mp hu with hu | hu
  · cases next with
    | goto pc =>
      obtain rfl := List.mem_singleton.mp hu
      exact .inl (congrArg Next.goto hpc)
    | done result => simp [Thread.next] at hu
  · exact .inr ⟨u, hu, hpc⟩

/-- Only a call that begins to wait can make a consumer wait. -/
theorem starving_moved {t : Thread} {rest : List Thread} {next : Next}
    {owned : List (ℕ × FrameAddr)} (hrest : ∀ u ∈ rest, u ∈ s.threads)
    (hnext : next ≠ .goto (.getWait (consumerBit i) i))
    (h : i ∈ (System.mk q' (t.next next ++ rest) owned).starving) :
    s.Waits i ∧ q'.HasPending (consumerBit i) := by
  obtain ⟨hw, hp⟩ := starving_next h
  obtain ⟨u, hu, hpc⟩ := hw.resolve_left hnext
  exact ⟨⟨u, hrest u hu, hpc⟩, hp⟩

theorem card_starving_le (s : System) : s.starving.card ≤ 8 :=
  (Finset.card_le_univ _).trans (by simp)

/-- A published frame is pending for the active consumers only. -/
theorem hasPending_publish (hn : n ∉ q.readyList.nodes)
    (h : (publishNode q n).HasPending (consumerBit i)) :
    q.HasPending (consumerBit i) ∨ q.activeConsumers.getLsbD i = true := by
  obtain ⟨m, hm, hp⟩ := h
  rcases List.mem_append.mp hm with hold | hnew
  · have hmn : m ≠ n := by
      rintro rfl
      exact hn hold
    refine .inl ⟨m, hold, ?_⟩
    simpa [hmn] using hp
  · obtain rfl := List.mem_singleton.mp hnew
    rw [pendingFor_iff] at hp
    simp only [publishNode_node, Function.update_self, consumerBit,
      bits_one_shiftLeft (show i.val < 32 by omega), Set.inter_singleton_nonempty] at hp
    exact .inr hp.1

/-- Publishing a frame makes nobody starve but active consumers. -/
theorem starving_publish {t : Thread} {rest : List Thread} {next : Next}
    {owned : List (ℕ × FrameAddr)} (hrest : ∀ u ∈ rest, u ∈ s.threads)
    (hnext : ∀ i, next ≠ .goto (.getWait (consumerBit i) i)) (hn : n ∉ s.queue.readyList.nodes) :
    (System.mk (publishNode s.queue n) (t.next next ++ rest) owned).starving ⊆
      s.starving ∪ Finset.univ.filter fun i => s.queue.activeConsumers.getLsbD i = true := by
  intro i hi
  obtain ⟨hw, hp⟩ := starving_moved hrest (hnext i) hi
  rcases hasPending_publish hn hp with hold | hactive
  · exact Finset.mem_union_left _ (mem_starving.mpr ⟨hw, hold⟩)
  · exact Finset.mem_union_right _ (Finset.mem_filter.mpr ⟨Finset.mem_univ i, hactive⟩)

/-- A consumer that takes a token does not starve any more. -/
theorem starving_take {idx : Fin 8} {t : Thread} {rest : List Thread}
    {owned : List (ℕ × FrameAddr)} (pick : s.threads.Perm (t :: rest))
    (hsingle : (s.threads.filterMap fun t => t.pc.getter).Nodup)
    (ht : t.pc = .getWait (consumerBit idx) idx) :
    (System.mk (getToken s.queue) (t.next (.goto (.getSearch (consumerBit idx) idx)) ++ rest)
      owned).starving ⊆ s.starving.erase idx := by
  intro i hi
  obtain ⟨hw, hp⟩ := starving_next hi
  obtain ⟨u, hu, hpc⟩ := hw.resolve_left (by simp)
  have hthread : u ∈ s.threads := pick.mem_iff.mpr (List.mem_cons_of_mem _ hu)
  refine Finset.mem_erase.mpr ⟨?_, mem_starving.mpr ⟨⟨u, hthread, hpc⟩, hp⟩⟩
  -- the consumer makes one call at a time
  rintro rfl
  have hrest := (pick.filterMap fun t => t.pc.getter).nodup_iff.mp hsingle
  rw [List.filterMap_cons_some (b := consumerBit i) (by rw [ht]; rfl)] at hrest
  refine (List.nodup_cons.mp hrest).1 (List.mem_filterMap.mpr ⟨u, hu, ?_⟩)
  rw [hpc]
  rfl

/-- `complete` posts at least once for each active consumer. -/
theorem card_active_le (mask : Mask) :
    (Finset.univ.filter fun i : Fin 8 => mask.getLsbD i = true).card ≤
      signalCount (countActiveConsumers mask) := by
  have hcount : (Finset.univ.filter fun i : Fin 8 => mask.getLsbD i = true).card ≤
      countActiveConsumers mask := by
    rw [countActiveConsumers_eq]
    exact card_le_countBelow fun i hi => (Finset.mem_filter.mp hi).2
  apply hcount.trans
  unfold signalCount
  split <;> omega

/-- **One piece keeps the starving consumers covered.** -/
theorem Covered.enough_run (h : Covered created format s) (hcreated : created.Nodup) {t : Thread}
    {rest : List Thread} (pick : s.threads.Perm (t :: rest))
    (hspared : spared s (.run t env) = true) :
    (System.mk (t.pc.exec format env s.queue).1 (t.next (t.pc.exec format env s.queue).2 ++ rest)
        (t.receive s.owned (t.pc.exec format env s.queue).2)).starving.card ≤
      (t.pc.exec format env s.queue).1.frameReady +
        posts (t.next (t.pc.exec format env s.queue).2 ++ rest) := by
  have hmem : t ∈ s.threads := pick.mem_iff.mpr List.mem_cons_self
  have hrest : ∀ u ∈ rest, u ∈ s.threads := fun u hu =>
    pick.mem_iff.mpr (List.mem_cons_of_mem _ hu)
  have hnd : s.queue.listed.Nodup :=
    (List.nodup_append.mp (h.conserved.perm.nodup_iff.mpr hcreated)).1
  have hsound : t.pc.role.Sound False s.queue :=
    h.own.sound _ (List.mem_append_right _ (List.mem_map.mpr ⟨t, hmem, rfl⟩))
  have henough : s.starving.card ≤ s.queue.frameReady + (t.pc.postsLeft + posts rest) := by
    have hposts := posts_perm pick
    rw [posts_cons] at hposts
    exact hposts ▸ h.enough
  have hwakes := exec_wakes format env hnd hsound
  obtain ⟨caller, pc⟩ := t
  generalize pc.exec format env s.queue = r at hwakes
  obtain ⟨q', next⟩ := r
  cases hwakes with
  | calm _ _ _ quiet old new wait =>
    -- nobody starves who did not starve before: a consumer begins to wait after a failed search
    have hsub : (System.mk q' (Thread.next ⟨caller, pc⟩ next ++ rest)
        (Thread.receive ⟨caller, pc⟩ s.owned next)).starving ⊆ s.starving := by
      intro i hi
      obtain ⟨hw, hp⟩ := starving_next hi
      refine mem_starving.mpr ⟨?_, quiet.hasPending hp⟩
      rcases hw with hw | ⟨u, hu, hpc⟩
      · rcases wait _ _ hw with hpc | hno
        · exact ⟨_, hmem, hpc⟩
        · exact absurd hp hno
      · exact ⟨u, hrest u hu, hpc⟩
    have hnew : posts (Thread.next ⟨caller, pc⟩ next ++ rest) = posts rest := by
      cases next with
      | goto pc' => simp [Thread.next, new pc' rfl]
      | done result => rfl
    apply (Finset.card_le_card hsub).trans
    show _ ≤ q'.frameReady + posts _
    rw [hnew, quiet.tokens]
    simpa only [old, zero_add] using henough
  | publish f n free =>
    have hn : n ∉ s.queue.readyList.nodes := fun hr =>
      (List.nodup_append.mp hnd).2.2 n free n hr rfl
    -- the posts this call still has to make pay for the consumers it makes starve
    have hactive := card_active_le s.queue.activeConsumers
    refine ((Finset.card_le_card (starving_publish hrest (fun i => ?_) hn)).trans
      (Finset.card_union_le _ _)).trans ?_
    · exact fun hwait => by simp at hwait
    simp only [Thread.next, List.cons_append, List.nil_append, posts_cons, Pc.postsLeft]
      at henough ⊢
    omega
  | post left =>
    have hsub : (System.mk (completePost s.queue)
        (Thread.next ⟨caller, .completePost (left + 1)⟩ (.goto (.completePost left)) ++ rest)
        (Thread.receive ⟨caller, .completePost (left + 1)⟩ s.owned
          (.goto (.completePost left)))).starving ⊆ s.starving := by
      intro i hi
      obtain ⟨hw, hp⟩ := starving_moved hrest (by simp) hi
      exact mem_starving.mpr ⟨hw, hp⟩
    -- a post lost at the cap of the semaphore leaves eight tokens, enough for everybody
    have height := card_starving_le s
    apply (Finset.card_le_card hsub).trans
    simp only [Thread.next, List.cons_append, List.nil_append, posts_cons, Pc.postsLeft,
      frameReadyMax] at henough ⊢
    omega
  | take id idx token =>
    obtain rfl : id = consumerBit idx := (h.calls _ hmem).2
    have hwaits : s.Waits idx := ⟨_, hmem, rfl⟩
    have hmine : s.queue.HasPending (consumerBit idx) → idx ∈ s.starving := fun hp =>
      mem_starving.mpr ⟨hwaits, hp⟩
    have hposts : posts s.threads = posts rest := (posts_perm pick).trans (zero_add _)
    simp only [spared, decide_eq_true_eq, hposts] at hspared
    apply (Finset.card_le_card (starving_take pick h.single rfl)).trans
    simp only [Thread.next, List.cons_append, List.nil_append, posts_cons, Pc.postsLeft,
      zero_add] at henough ⊢
    -- the token was meant for this consumer, or it is one that the starving ones can spare
    by_cases hstarving : idx ∈ s.starving
    · have herase := Finset.card_erase_of_mem hstarving
      omega
    · rw [Finset.erase_eq_of_notMem hstarving]
      rcases hspared with hzero | hp | hlt
      · exact absurd hzero token
      · exact absurd (hmine hp) hstarving
      · omega

/-- What a call in flight is when it begins. -/
theorem enter_quiet {request : Request} (h : request.enter format q = some pc) :
    pc.postsLeft = 0 ∧ (∀ id idx, pc ≠ .getWait id idx) ∧
      (pc.cancels = true → ∃ f, request = .cancel f) ∧
      ∀ id, pc.getter = some id → request = .getFrame id ∧ pc = .getEnabled id := by
  rcases Request.enter_cases h with ⟨_, rfl, rfl⟩ | ⟨_, rfl, rfl⟩ | ⟨_, rfl, rfl⟩ | ⟨_, rfl, rfl⟩ |
    ⟨_, _, _, rfl, rfl⟩ | ⟨_, _, rfl, -, rfl⟩ | ⟨_, _, rfl, rfl⟩ | ⟨rfl, rfl⟩ <;>
    simp [Pc.postsLeft, Pc.cancels, Pc.getter]

/-- Every call the consumers and producers make is covered. -/
theorem Covered.call (h : Covered created format s) {caller : ℕ} {request : Request}
    (henter : request.enter format s.queue = some pc)
    (hloops : loops s (.call caller request) = true) (owned : List (ℕ × FrameAddr))
    (hc : Conserved created ⟨s.queue, ⟨caller, pc⟩ :: s.threads, owned⟩)
    (ho : Own False format created s.queue
      (System.mk s.queue (⟨caller, pc⟩ :: s.threads) owned).roles) :
    Covered created format ⟨s.queue, ⟨caller, pc⟩ :: s.threads, owned⟩ := by
  obtain ⟨hposts, hwait, hcancel, hget⟩ := enter_quiet henter
  refine ⟨hc, ho, fun t ht => ?_, ?_, ?_⟩
  · rcases List.mem_cons.mp ht with rfl | ht
    · constructor
      · by_contra hno
        obtain ⟨f, rfl⟩ := hcancel (by simpa using hno)
        simp [loops] at hloops
      · cases pc with
        | getEnabled id =>
          obtain ⟨rfl, -⟩ := hget id rfl
          simp only [loops, decide_eq_true_eq] at hloops
          exact hloops.1
        | getSearch id idx => exact absurd (hget id rfl).2 (by simp)
        | getWait id idx => exact absurd rfl (hwait id idx)
        | _ => trivial
    · exact h.calls t ht
  · cases hg : pc.getter with
    | none => simpa [hg] using h.single
    | some id =>
      obtain ⟨rfl, -⟩ := hget id hg
      simp only [loops, decide_eq_true_eq, List.all_eq_true] at hloops
      rw [List.filterMap_cons_some (by exact hg)]
      refine List.nodup_cons.mpr ⟨fun hmem => ?_, h.single⟩
      obtain ⟨t, ht, htg⟩ := List.mem_filterMap.mp hmem
      exact hloops.2 t ht htg
  · have hsub : (System.mk s.queue (⟨caller, pc⟩ :: s.threads) owned).starving ⊆ s.starving := by
      intro i hi
      obtain ⟨⟨t, ht, hpc⟩, hp⟩ := mem_starving.mp hi
      refine mem_starving.mpr ⟨?_, hp⟩
      rcases List.mem_cons.mp ht with rfl | ht
      · exact absurd hpc (hwait _ _)
      · exact ⟨t, ht, hpc⟩
    apply (Finset.card_le_card hsub).trans
    simpa [hposts] using h.enough

/-- **Every step that spares the tokens of others keeps the starving consumers covered.** -/
theorem Covered.step (h : Covered created format s) (hcreated : created.Nodup)
    (hstep : System.Step format s a s') (hok : orderly s a = true) (hloops : loops s a = true)
    (hspared : spared s a = true) : Covered created format s' := by
  have hc := h.conserved.step hcreated hstep
  have ho := h.own.step h.conserved hcreated hstep hok (undisturbed_of_calls hok h.calls)
  cases hstep with
  | call caller request pc enter => exact h.call enter hloops _ hc ho
  | run t rest env pick =>
    have hmem : t ∈ s.threads := pick.mem_iff.mpr List.mem_cons_self
    have hsingle := (pick.filterMap fun t => t.pc.getter).nodup_iff.mp h.single
    refine ⟨hc, ho, fun u hu => ?_, ?_, h.enough_run hcreated pick hspared⟩
    · rcases List.mem_append.mp hu with hu | hu
      · cases hnext : (t.pc.exec format env s.queue).2 with
        | goto pc' =>
          rw [hnext] at hu
          obtain rfl := List.mem_singleton.mp hu
          obtain ⟨-, hfit, hcancel⟩ := exec_next hnext
          obtain ⟨hno, ht⟩ := h.calls t hmem
          refine ⟨?_, hfit ht⟩
          by_contra hyes
          rw [hcancel (by simpa using hyes)] at hno
          simp at hno
        | done result => simp [hnext, Thread.next] at hu
      · exact h.calls u (pick.mem_iff.mpr (List.mem_cons_of_mem _ hu))
    · cases hnext : (t.pc.exec format env s.queue).2 with
      | goto pc' =>
        obtain ⟨hg, -⟩ := exec_next hnext
        simpa [Thread.next, List.filterMap_cons, hg] using hsingle
      | done result =>
        refine hsingle.sublist ?_
        exact (List.sublist_cons_self t rest).filterMap _

/-- No wake-up is lost: when no `complete` is still posting and no token is left, no completed
frame is pending for a consumer that waits. -/
def AllAwake (s : System) : Prop :=
  (∀ t ∈ s.threads, t.pc.postsLeft = 0) → s.queue.frameReady = 0 →
    ∀ t ∈ s.threads, ∀ id idx, t.pc = .getWait id idx → ¬s.queue.HasPending id

theorem Covered.allAwake (h : Covered created format s) : AllAwake s := by
  intro hposts htokens t ht id idx hpc hp
  have hfit := (h.calls t ht).2
  rw [hpc] at hfit
  obtain rfl : id = consumerBit idx := hfit
  have hzero := posts_eq_zero hposts
  have hcard := h.enough
  rw [hzero, htokens, Nat.le_zero, Finset.card_eq_zero] at hcard
  have hmem : idx ∈ s.starving := mem_starving.mpr ⟨⟨t, ht, hpc⟩, hp⟩
  simp [hcard] at hmem

/-! ## Runs -/

/-- Consumers `0` and `1` wait, and a frame is completed for both. -/
def twoWaiting : List Move :=
  [.call 0 (.registerConsumer 1)] ++ turns 0 1 ++ [.call 1 (.registerConsumer 2)] ++ turns 1 1 ++
    [.call 0 (.getFrame 1)] ++ turns 0 2 ++ [.call 1 (.getFrame 2)] ++ turns 1 2 ++
    [.call 2 (.malloc 10)] ++ turns 2 2 ++ [.turn 2 (some 100)] ++ turns 2 4 ++
    [.call 2 (.complete (some 100))] ++ turns 2 5

/-- Consumer `0` takes a token, gets and releases the frame, and takes the other token. -/
def twoTokens : List Move :=
  turns 0 2 ++ [.call 0 (.releaseFrame 1 (some 100))] ++ turns 0 1 ++ [.call 0 (.getFrame 1)] ++
    turns 0 4

/-- **A wake-up may be lost.** -/
theorem wakeup_may_be_lost :
    ¬∀ s, Reaches (Guarded (System.Step .h264) fun s a => orderly s a ∧ loops s a)
        (System.initial .h264 some fun _ => .zero) s → AllAwake s := by
  have hplay : (play (System.move .h264) (fun s a => orderly s a && loops s a)
      (twoWaiting ++ twoTokens) (System.initial .h264 some fun _ => .zero)).any
        (fun s => s.threads = [⟨0, .getWait 1 0⟩, ⟨1, .getWait 2 1⟩] ∧ s.queue.frameReady = 0 ∧
          s.queue.HasPending 2) = true := by
    decide +kernel
  obtain ⟨s, hs, hlast⟩ := exists_reaches_of_play System.step_of_move hplay
  obtain ⟨hthreads, htokens, hp⟩ : s.threads = [⟨0, .getWait 1 0⟩, ⟨1, .getWait 2 1⟩] ∧
      s.queue.frameReady = 0 ∧ s.queue.HasPending 2 := by simpa using hlast
  intro hall
  refine hall s (hs.weaken fun _ _ h => by simpa using h) ?_ htokens ⟨1, .getWait 2 1⟩
    (by simp [hthreads]) 2 1 rfl hp
  simp [hthreads, Pc.postsLeft]

/-- **No wake-up is lost.** In every run in which a consumer with nothing pending takes a token
only if the rest is enough for the starving consumers, nobody waits for a completed frame once
all posts are made and no token is left. -/
theorem no_wakeup_is_lost {answer : ℕ → Option NodeId} {node : NodeId → FrameNode}
    (hnodes : (createdNodes format answer).Nodup)
    (h : Reaches (Guarded (System.Step format) fun s a => orderly s a ∧ loops s a ∧ spared s a)
      (System.initial format answer node) s) : AllAwake s := by
  have hs : Covered (createdNodes format answer) format s := by
    refine h.invariant (P := Covered (createdNodes format answer) format) ?_ ?_
    · refine ⟨conserved_initial format answer node, own_initial node hnodes, ?_, ?_, ?_⟩
      · simp [System.initial]
      · simp [System.initial]
      · simp [System.starving, System.Waits, System.initial]
    · rintro s a s' hs ⟨⟨hok, hloops, hspared⟩, hstep⟩
      exact hs.step hnodes hstep hok hloops hspared
  exact hs.allAwake

/-- When each of the two consumers takes one token, both get the frame. -/
theorem no_wakeup_is_lost_h264 : ∃ s,
    Reaches (Guarded (System.Step .h264) fun s a => orderly s a ∧ loops s a ∧ spared s a)
      (System.initial .h264 some fun _ => .zero) s ∧
    (s.threads = [] ∧ (s.queue.node 0).refCount = 2) ∧ AllAwake s := by
  have hplay : (play (System.move .h264)
      (fun s a => orderly s a && (loops s a && spared s a))
      (twoWaiting ++ turns 0 2 ++ turns 1 2) (System.initial .h264 some fun _ => .zero)).any
        (fun s => s.threads = [] ∧ (s.queue.node 0).refCount = 2) = true := by
    decide +kernel
  obtain ⟨s, hs, hlast⟩ := exists_reaches_of_play System.step_of_move hplay
  have hreach : Reaches (Guarded (System.Step .h264) fun s a => orderly s a ∧ loops s a ∧
      spared s a) (System.initial .h264 some fun _ => .zero) s :=
    hs.weaken fun _ _ h => by simpa using h
  exact ⟨s, hreach, by simpa using hlast, no_wakeup_is_lost (by decide) hreach⟩

end FrameQueue

end YangIpc
