import YangIpc.FrameQueue.Observed

/-!
# Consumers among interleaved calls

What consumers rely on when every call is run alone, they may rely on when calls interleave: a held
frame keeps its node and its buffer and comes into no producer's hands, deliveries follow the
completions, and a frame that nobody holds waits for an active consumer or was completed when nobody
was registered.

## Main definitions

* `Held`: what holding a frame means while other calls are under way

## Main results

* `held_frames_stay`: reference counts are the numbers of holders, and held frames are kept
* `interleaved_deliveries`: the order of deliveries
* `no_interleaved_frame_is_stuck`: what an unheld frame waits for
-/

namespace YangIpc

namespace FrameQueue

open Transition Bits Broadcast

variable {format : ImageFormat} {o o' : Observed} {a : Action} {q : FrameQueueV2} {pc : Pc}
  {env : Env} {n : NodeId} {id c : Mask} {f : FrameAddr} {created : List NodeId}
  {answer : ℕ → Option NodeId} {node : NodeId → FrameNode}

/-! ## Held frames -/

/-- The buffer a producer's call in flight has in hand. -/
def Pc.producing : Pc → Option FrameAddr
  | .mallocReset _ f | .mallocMask _ f | .mallocDone f | .completeFind f | .cancelFind f => some f
  | _ => none

/-- A frame is kept for its holders: it is on `ready_list`, its buffer is live, and no producer and
no call of a producer has it. -/
structure Held (s : System) (f : FrameAddr) : Prop where
  ready : ∃ n ∈ s.queue.readyList.nodes, (s.queue.node n).frame = some f
  live : Live s.queue f
  owner : ∀ p, (p, f) ∉ s.owned
  producer : ∀ t ∈ s.threads, t.pc.producing ≠ some f

/-- In an allowed run the reference counts are the numbers of holders. -/
theorem accounted_of_allowed (hnodes : (createdNodes format answer).Nodup)
    (h : Reaches (Guarded (Observed.Step format) allowed) (.initial format answer node) o) :
    Accounted bits Valid o.world.abstract :=
  (abstract_reaches hnodes h).invariant (accounted_of_empty initialised_entries rfl)
    fun _ _ _ hacc hstep => hacc.step hstep.1.honest hstep.2

/-- A completed frame is kept for its holders. -/
theorem Sane.held_of_ready (ho : Sane created format o) (hcreated : created.Nodup)
    (hn : n ∈ o.system.queue.readyList.nodes) (hf : (o.system.queue.node n).frame = some f) :
    Held o.system f := by
  have htidy := ho.tidy hcreated
  have hlisted := mem_listed_of_ready hn
  -- no node of `free_list` has this buffer
  have hother : ∀ m ∈ o.system.queue.freeList.nodes, (o.system.queue.node m).frame ≠ some f := by
    intro m hm hmf
    obtain rfl := htidy.frame_inj m (mem_listed_of_free hm) n hlisted f hmf hf
    exact htidy.notMem_ready hm hn
  have hhand : ∀ r ∈ o.system.roles, r.handFrame ≠ some f := by
    intro r hr hrf
    obtain ⟨m, hm, -, hmf⟩ := (ho.own.sound r hr).hand f hrf
    exact hother m hm hmf
  have hfill : ∀ m, .fill m f ∉ o.system.roles := by
    intro m hr
    have hsound := ho.own.sound _ hr
    exact hother m (hsound.malloc m rfl).1 (hsound.full m f rfl)
  -- a buffer that a producer or its call has in hand would be at a node of `free_list`
  refine ⟨⟨n, hn, hf⟩, ?_, fun p hp => ?_, fun t ht hpc => ?_⟩
  · refine ho.own.live n (ho.listed_created n hlisted) f hf (ho.own.drop_notMem hlisted) ?_
    exact fun hc => htidy.notMem_ready ((ho.own.sound _ hc).cancel n rfl) hn
  · exact hhand (.hand f) (List.mem_append_left _ (List.mem_map.mpr ⟨(p, f), hp, rfl⟩)) rfl
  · have hrole : t.pc.role ∈ o.system.roles := List.mem_append_right _ (List.mem_map_of_mem ht)
    cases hp : t.pc <;> rw [hp] at hpc hrole <;> simp only [Pc.producing, reduceCtorEq] at hpc
    all_goals obtain rfl := Option.some.inj hpc
    · exact hfill _ hrole
    · exact hfill _ hrole
    all_goals exact hhand _ hrole rfl

/-- A piece frees the buffer of the node it has in hand, or nothing. -/
theorem exec_frees (hwipe : pc.role ≠ .wipe)
    (hfree : ∀ n, pc = .cancelFree n ∨ pc = .releaseFree n → (q.node n).frame ≠ some f) :
    (pc.exec format env q).1.frees.filter (·.addr = f) = q.frees.filter (·.addr = f) := by
  -- two pieces free a buffer, and the sections of a registration reset nodes without freeing
  cases pc with
  | mallocSearch size =>
    rcases mallocSearch_cases format q with ⟨n, -, -, he⟩ | ⟨-, -, l₁, n, l₂, -, -, -, he⟩ |
      ⟨-, -, he⟩ <;> simp only [Pc.exec, he] <;> rfl
  | mallocFrame size n =>
    cases hf : (q.node n).frame <;> simp only [Pc.exec, hf]
  | mallocAlloc size n =>
    simp only [Pc.exec, FrameQueue.mallocAlloc]
    split <;> rfl
  | mallocAttach n answer => cases answer <;> rfl
  | completeFind frame =>
    rcases completeFind_cases frame q with ⟨n, -, -, -, he⟩ | ⟨-, he⟩ <;>
      simp only [Pc.exec, he]
    rfl
  | completePost left => cases left <;> rfl
  | cancelFind frame =>
    rcases cancelFind_cases frame q with ⟨n, -, -, -, he⟩ | ⟨-, he⟩ <;>
      simp only [Pc.exec, he]
    rfl
  | cancelFree n =>
    have hne : (q.freeFrame format n).frees.filter (·.addr = f) = q.frees.filter (·.addr = f) :=
      freeFrame_frees_of_ne (hfree n (.inl rfl))
    cases hf : (q.node n).frame <;> simp only [Pc.exec, hf]
    exact hne
  | getEnabled id => cases he : FrameQueue.getEnabled id q <;> simp only [Pc.exec, he]
  | getSearch id idx =>
    rcases getSearch_cases id idx q with ⟨l₁, n, l₂, -, -, -, he⟩ | ⟨-, he⟩ <;>
      simp only [Pc.exec, he]
    rfl
  | getWait id idx =>
    simp only [Pc.exec]
    split
    · rfl
    · split <;> rfl
  | releaseFind idx frame =>
    rcases releaseFind_cases idx frame q with
      ⟨l₁, n, l₂, -, -, -, ⟨-, -, he⟩ | ⟨-, he⟩⟩ | ⟨-, he⟩ <;> simp only [Pc.exec, he] <;> rfl
  | releaseFree n =>
    have hne : (q.freeFrame format n).frees.filter (·.addr = f) = q.frees.filter (·.addr = f) :=
      freeFrame_frees_of_ne (hfree n (.inr rfl))
    cases hf : (q.node n).frame <;> simp only [Pc.exec, hf]
    exact hne
  | register id idx => exact congrArg (List.filter _) (sweepReady_frees _ _)
  | unregister id idx => exact congrArg (List.filter _) (sweepReady_frees _ _)
  | clearReady | clearFree => exact absurd rfl hwipe
  | _ => rfl

/-- No call in flight is about to free the buffer of a completed node. -/
theorem Sane.not_freed (ho : Sane created format o) (hcreated : created.Nodup)
    (hn : n ∈ o.system.queue.readyList.nodes) (hf : (o.system.queue.node n).frame = some f)
    {t : Thread} (ht : t ∈ o.system.threads) {m : NodeId}
    (hpc : t.pc = .cancelFree m ∨ t.pc = .releaseFree m) :
    (o.system.queue.node m).frame ≠ some f := by
  have htidy := ho.tidy hcreated
  have hlisted := mem_listed_of_ready hn
  have hsound := ho.sound ht
  intro hmf
  rcases hpc with hpc | hpc <;> rw [hpc] at hsound
  · have hm := hsound.cancel m rfl
    obtain rfl := htidy.frame_inj m (mem_listed_of_free hm) n hlisted f hmf hf
    exact htidy.notMem_ready hm hn
  -- the unlinked node is in the hands of this release alone
  · have hpick := List.perm_cons_erase ht
    have hroles : Own True format created o.system.queue
        (.unlink m :: rolesOf o.system.owned (o.system.threads.erase t)) := by
      have := ho.own.perm ((rolesOf_perm hpick).trans (rolesOf_cons _ t _))
      rwa [hpc] at this
    have hloose : m ∉ o.system.queue.listed := hsound.loose m rfl
    have hmem : m ∈ created := by
      have hlimbo : limboNode t.pc = some m := by rw [hpc]; rfl
      exact ho.conserved.perm.mem_iff.mp
        (List.mem_append_right _ (List.mem_filterMap.mpr ⟨t, ht, hlimbo⟩))
    have hdrop : .drop m ∉ .unlink m :: rolesOf o.system.owned (o.system.threads.erase t) := by
      intro hd
      rcases List.mem_cons.mp hd with hd | hd
      · exact absurd hd (by simp)
      · exact (hroles.apart_head hd).1.loose m rfl rfl
    obtain rfl := hroles.inj m hmem n (ho.listed_created n hlisted) f hmf hf hdrop
      (hroles.drop_notMem hlisted)
    exact hloose hlisted

/-- **Held frames stay.** However calls interleave, the reference count of a completed node is the
number of its holders, and a held frame is on `ready_list` with a live buffer that no producer and
no call of a producer has.  A step after which it is still held leaves it at its node and does not
free its buffer. -/
theorem held_frames_stay (hnodes : (createdNodes format answer).Nodup)
    (h : Reaches (Guarded (Observed.Step format) allowed) (.initial format answer node) o) :
    (∀ n ∈ o.system.queue.readyList.nodes, ∃ f, (o.system.queue.node n).frame = some f ∧
      (o.system.queue.node n).refCount = (holders o.history.holds f).card) ∧
    (∀ id f, (id, f) ∈ o.history.holds → Held o.system f) ∧
    ∀ a o', allowed o a → o.Step format a o' →
      ∀ id f, (id, f) ∈ o.history.holds → (id, f) ∈ o'.history.holds →
        (∃ n ∈ o.system.queue.readyList.nodes, (o.system.queue.node n).frame = some f ∧
          n ∈ o'.system.queue.readyList.nodes ∧ (o'.system.queue.node n).frame = some f) ∧
        o'.system.queue.frees.filter (·.addr = f) = o.system.queue.frees.filter (·.addr = f) := by
  have ho := sane_of_reaches hnodes h
  have hacc := accounted_of_allowed hnodes h
  -- what is held is the buffer of a completed node
  have hready : ∀ id f, (id, f) ∈ o.history.holds →
      ∃ n ∈ o.system.queue.readyList.nodes, (o.system.queue.node n).frame = some f := by
    intro id f hi
    obtain ⟨-, e, he, hitem, -⟩ := hacc.held id f hi
    obtain ⟨n, hn, rfl⟩ := mem_entries.mp he
    exact ⟨n, hn, ((ho.tidy hnodes).item_eq_iff hn).mp hitem⟩
  refine ⟨fun n hn => ?_, fun id f hi => ?_, fun a o' hok hstep id f hi hi' => ⟨?_, ?_⟩⟩
  · exact ⟨_, ((ho.tidy hnodes).item_eq_iff hn).mp rfl,
      hacc.counted _ (mem_entries.mpr ⟨n, hn, rfl⟩)⟩
  · obtain ⟨n, hn, hf⟩ := hready id f hi
    exact ho.held_of_ready hnodes hn hf
  -- on the broadcast queue an entry stays in its slot while it is held
  · obtain ⟨ev, -, hproper, hev⟩ := ho.refines_step hnodes hstep
    obtain ⟨e, he, e', he', hitem, hitem', hslot⟩ := hacc.persists hproper.honest hev hi hi'
    obtain ⟨n, hn, rfl⟩ := mem_entries.mp he
    obtain ⟨m, hm, rfl⟩ := mem_entries.mp he'
    obtain rfl : n = m := hslot
    exact ⟨n, hn, ((ho.tidy hnodes).item_eq_iff hn).mp hitem, hm,
      (((ho.step hnodes hok hstep).tidy hnodes).item_eq_iff hm).mp hitem'⟩
  · obtain ⟨n, hn, hf⟩ := hready id f hi
    obtain ⟨system, history⟩ := o'
    obtain ⟨hsystem, -⟩ : System.Step format o.system a system ∧ history = o.record format a :=
      hstep
    cases hsystem with
    | call caller request pc enter => rfl
    | run t rest env pick =>
      have ht := pick.mem_iff.mpr List.mem_cons_self
      exact exec_frees (ho.sound ht).wipe fun m hpc => ho.not_freed hnodes hn hf ht hpc

/-- The same for a frame that one of two consumers has released. -/
theorem held_frames_stay_crossing : ∃ o : Observed, (2, 100) ∈ o.history.holds ∧
    Held o.system 100 ∧ ∀ n ∈ o.system.queue.readyList.nodes, ∃ f,
      (o.system.queue.node n).frame = some f ∧
        (o.system.queue.node n).refCount = (holders o.history.holds f).card := by
  obtain ⟨o, ho, -, hholds, -⟩ := crossing_reached
  have hheld : (2, 100) ∈ o.history.holds := by simp [hholds]
  obtain ⟨hcount, hkept, -⟩ := held_frames_stay (by decide) ho
  exact ⟨o, hheld, hkept 2 100 hheld, hcount⟩

/-! ## Deliveries -/

/-- Consumers with one bit are apart from each other. -/
theorem Proper.apart {s : State NodeId Mask ℕ FrameAddr} {ev : Event Mask FrameAddr} {i : ℕ}
    (hproper : Proper format s ev) (hc : SingleBit c) (hbits : bits c = {i}) :
    Apart bits c i ev := by
  have hout : ∀ id, eventId ev = some id → id = c ∨ i ∉ bits id := by
    intro id hid
    rcases hc.apart (hproper.single id hid) with rfl | hzero
    · exact .inl rfl
    · refine .inr fun hi => ?_
      have hboth : i ∈ bits id ∩ bits c := ⟨hi, by simp [hbits]⟩
      rw [and_eq_zero_iff.mp hzero] at hboth
      exact hboth
  cases ev with
  | deliver id f | register id | unregister id => exact hout id rfl
  | _ => trivial

/-- **Interleaved deliveries follow completions.** However calls interleave, the completions
delivered to a consumer since it registered are increasing, none is older than its registration,
and all have happened; on an H264 queue they are the first completions since the registration, none
left out. -/
theorem interleaved_deliveries (hnodes : (createdNodes format answer).Nodup)
    (h : Reaches (Guarded (Observed.Step format) allowed) (.initial format answer node) o)
    (hc : SingleBit c) :
    (o.history.delivered c).Pairwise (· < ·) ∧
      (∀ t ∈ o.history.delivered c, o.history.since c ≤ t ∧ t < o.history.completed) ∧
      (format = .h264 → o.history.delivered c =
        List.range' (o.history.since c) (o.history.delivered c).length) := by
  obtain ⟨i, hi, rfl⟩ := id hc
  have hbits := bits_one_shiftLeft (w := 32) hi
  have hrun := abstract_reaches hnodes h
  -- what was delivered is the first part of the account
  have hsub : (o.history.delivered (1#32 <<< i)).Sublist
      (o.world.abstract.account (1#32 <<< i) i) := List.sublist_append_left _ _
  have horder : InOrder (1#32 <<< i) i o.world.abstract :=
    hrun.invariant inOrder_initialised fun _ _ _ hinv hstep =>
      hinv.step hbits (hstep.1.apart hc hbits) hstep.2
  refine ⟨horder.sorted.sublist hsub, fun t ht => horder.period t (hsub.subset ht), ?_⟩
  rintro rfl
  have hexact : Exact (1#32 <<< i) i o.world.abstract :=
    hrun.invariant exact_initialised fun _ _ _ hinv hstep =>
      hinv.step hbits (hstep.1.apart hc hbits) (hstep.1.lossless rfl) hstep.2
  obtain ⟨n, hn, -⟩ := hexact.consecutive
  obtain ⟨m, -, hm, -⟩ := List.range'_eq_append_iff.mp hn.symm
  -- the deliveries are a beginning of consecutive numbers
  have hlength : (o.history.delivered (1#32 <<< i)).length = m := by
    have hlen := congrArg List.length hm
    rwa [List.length_range'] at hlen
  rw [hlength]
  exact hm

/-- The other producer completes its frame behind `crossing`, and the first consumer is given it,
while the first producer is still posting. -/
def overtaking : List Move :=
  crossing ++ turns 3 1 ++ [.turn 3 (some 200)] ++ turns 3 4 ++ [.call 3 (.complete (some 200))] ++
    turns 3 1 ++ [.call 0 (.getFrame 1)] ++ turns 0 2

/-- The same for the first of the two consumers, which has been given both frames. -/
theorem interleaved_deliveries_crossing : ∃ o : Observed, o.system.threads.length = 2 ∧
    o.history.delivered 1 = [0, 1] ∧ (o.history.delivered 1).Pairwise (· < ·) ∧
    o.history.delivered 1 =
      List.range' (o.history.since 1) (o.history.delivered 1).length := by
  have hplay : (play (Observed.move .h264) (fun o a => allowed o a) overtaking
      (.initial .h264 some fun _ => .zero)).any
        (fun o => o.system.threads.length = 2 ∧ o.history.delivered 1 = [0, 1]) = true := by
    decide +kernel
  obtain ⟨o, ho, hlast⟩ := exists_reaches_of_play Observed.step_of_move hplay
  obtain ⟨hthreads, hdelivered⟩ := of_decide_eq_true hlast
  have hone : SingleBit 1 := ⟨0, by omega, rfl⟩
  obtain ⟨hsorted, -, hexact⟩ := interleaved_deliveries (by decide)
    (ho.weaken fun _ _ hok => of_decide_eq_true hok) hone
  exact ⟨o, hthreads, hdelivered, hsorted, hexact rfl⟩

/-! ## Frames nobody holds -/

/-- In an allowed run an unheld frame waits for somebody or was completed for nobody. -/
theorem settled_of_allowed (hnodes : (createdNodes format answer).Nodup)
    (h : Reaches (Guarded (Observed.Step format) allowed) (.initial format answer node) o) :
    Settled o.world.abstract := by
  refine (abstract_reaches hnodes h).invariant ?_ fun s ev s' hset hstep => ?_
  · constructor <;> simp [Observed.initial, Observed.world, World.abstract, FrameQueueV2.entries,
      System.initial, (initialised_lists format answer node).2.1]
  · have hsingle : Single bits ev := by
      cases ev with
      | unregister id =>
        obtain ⟨i, hi, rfl⟩ := hstep.1.single id rfl
        exact ⟨i, bits_one_shiftLeft hi⟩
      | _ => trivial
    exact hset.step hsingle hstep.2

/-- Registering moves completed nodes that are meant for nobody and held by nobody to
`free_list`. -/
theorem Tidy.register_recovers (hq : Tidy q) (hmask : ∀ n ∈ q.readyList.nodes,
      (q.node n).consumerMask = 0) (href : ∀ n ∈ q.readyList.nodes, (q.node n).refCount = 0)
    (hcounted : q.Counted) (id : Mask) (idx : Fin 8) :
    (registerSection id idx q).readyList.nodes = [] ∧
      ∀ n ∈ q.readyList.nodes, n ∈ (registerSection id idx q).freeList.nodes := by
  have hnil : (registerSection id idx q).readyList.nodes = [] := by
    have hentries := hq.entries_register id idx
    rw [List.filter_eq_nil_iff.mpr] at hentries
    · exact List.map_eq_nil_iff.mp hentries
    · intro e he
      obtain ⟨n, hn, rfl⟩ := mem_entries.mp he
      simpa [entryOf, href n hn] using hmask n hn
  refine ⟨hnil, fun n hn => ?_⟩
  have hperm := (registerSection_conserves id idx hq.ready_nodup hcounted).1
  have hmem := hperm.mem_iff.mpr (mem_listed_of_ready hn)
  refine (mem_listed.mp hmem).resolve_right ?_
  rw [hnil]
  exact List.not_mem_nil

/-- **No frame is stuck among interleaved calls.** However calls interleave, a completed frame waits
for active consumers only, and if nobody holds it, it waits for somebody or was completed when
nobody was registered.  Once nobody is registered or holds a frame, only such frames are left, and
the section of the next registration moves all of them to `free_list`. -/
theorem no_interleaved_frame_is_stuck (hnodes : (createdNodes format answer).Nodup)
    (h : Reaches (Guarded (Observed.Step format) allowed) (.initial format answer node) o) :
    (∀ n ∈ o.system.queue.readyList.nodes,
      (o.system.queue.node n).pending &&& ~~~o.system.queue.activeConsumers = 0 ∧
      ((o.system.queue.node n).refCount = 0 → (o.system.queue.node n).pending ≠ 0 ∨
        ((o.system.queue.node n).consumerMask = 0 ∧
          ∃ f, (o.system.queue.node n).frame = some f ∧ o.history.activeAt f = 0))) ∧
    (o.system.queue.activeConsumers = 0 → o.history.holds = ∅ →
      (∀ n ∈ o.system.queue.readyList.nodes, (o.system.queue.node n).consumerMask = 0) ∧
      ∀ id idx, (registerSection id idx o.system.queue).readyList.nodes = [] ∧
        ∀ n ∈ o.system.queue.readyList.nodes,
          n ∈ (registerSection id idx o.system.queue).freeList.nodes) := by
  have ho := sane_of_reaches hnodes h
  have hacc := accounted_of_allowed hnodes h
  have hset := settled_of_allowed hnodes h
  have hpending : ∀ n ∈ o.system.queue.readyList.nodes,
      (o.system.queue.node n).pending &&& ~~~o.system.queue.activeConsumers = 0 := by
    intro n hn
    have hsub := hset.pending _ (mem_entries.mpr ⟨n, hn, rfl⟩)
    rw [pending_entryOf] at hsub
    exact bits_eq_empty.mp ((bits_and_not _ _).trans (Set.sdiff_eq_empty.mpr hsub))
  have hstuck : ∀ n ∈ o.system.queue.readyList.nodes, (o.system.queue.node n).refCount = 0 →
      (o.system.queue.node n).pending ≠ 0 ∨ ((o.system.queue.node n).consumerMask = 0 ∧
        ∃ f, (o.system.queue.node n).frame = some f ∧ o.history.activeAt f = 0) := by
    intro n hn href
    obtain ⟨f, hf⟩ := Option.ne_none_iff_exists'.mp (ho.filled.ready_frame n hn)
    rcases hset.stuck _ (mem_entries.mpr ⟨n, hn, rfl⟩) href with hp | ⟨hmask, hat⟩
    · rw [pending_entryOf] at hp
      exact .inl fun h0 => hp.ne_empty (bits_eq_empty.mpr h0)
    · refine .inr ⟨wanted_entryOf.mp hmask, f, hf, bits_eq_empty.mp ?_⟩
      simpa [Observed.world, World.abstract, entryOf, hf] using hat
  refine ⟨fun n hn => ⟨hpending n hn, hstuck n hn⟩, fun hactive hholds => ?_⟩
  -- nobody holds anything, and nobody is active that a frame could wait for
  have href : ∀ n ∈ o.system.queue.readyList.nodes, (o.system.queue.node n).refCount = 0 := by
    intro n hn
    have hcard := hacc.counted _ (mem_entries.mpr ⟨n, hn, rfl⟩)
    simpa [Observed.world, World.abstract, hholds, holders, entryOf] using hcard
  have hmask : ∀ n ∈ o.system.queue.readyList.nodes,
      (o.system.queue.node n).consumerMask = 0 := by
    intro n hn
    rcases hstuck n hn (href n hn) with hp | ⟨hmask, -⟩
    · have hzero : (o.system.queue.node n).pending &&& ~~~(0#32) = 0#32 := by
        have := hpending n hn
        rwa [hactive] at this
      rw [BitVec.not_zero, BitVec.and_allOnes] at hzero
      exact absurd hzero hp
    · exact hmask
  exact ⟨hmask, (ho.tidy hnodes).register_recovers hmask href ho.conserved.counted⟩

/-- A frame is completed when nobody is registered, and another producer is in `malloc`. -/
def unclaimed : List Move :=
  [.call 0 (.malloc 10)] ++ turns 0 2 ++ [.turn 0 (some 100)] ++ turns 0 4 ++
    [.call 1 (.malloc 10)] ++ turns 1 1 ++ [.call 0 (.complete (some 100))] ++ turns 0 1

/-- The same for that frame, and a registration. -/
theorem no_interleaved_frame_is_stuck_unclaimed : ∃ o : Observed,
    o.system.queue.readyList.nodes = [0] ∧
      (registerSection 1 0 o.system.queue).readyList.nodes = [] := by
  have hplay : (play (Observed.move .h264) (fun o a => allowed o a) unclaimed
      (.initial .h264 some fun _ => .zero)).any
        (fun o => o.system.queue.readyList.nodes = [0] ∧ o.system.queue.activeConsumers = 0 ∧
          o.history.holds = ∅) = true := by
    decide +kernel
  obtain ⟨o, ho, hlast⟩ := exists_reaches_of_play Observed.step_of_move hplay
  obtain ⟨hready, hactive, hholds⟩ : o.system.queue.readyList.nodes = [0] ∧
      o.system.queue.activeConsumers = 0 ∧ o.history.holds = ∅ := of_decide_eq_true hlast
  have hrun := ho.weaken fun _ _ hok => of_decide_eq_true hok
  exact ⟨o, hready,
    (((no_interleaved_frame_is_stuck (by decide) hrun).2 hactive hholds).2 1 0).1⟩

end FrameQueue

end YangIpc
