import YangIpc.FrameQueue.Effects
import YangIpc.FrameQueue.Delivery

/-!
# Interleaved calls and their effects

The interleaved system together with what its clients observe.  A call in flight takes effect at
one of its pieces, and between any two pieces the queue stands for a broadcast queue on which the
effects so far have been steps.  So what holds of the broadcast queue holds of interleaved calls:
held frames stay, deliveries follow completions, and no frame is stuck.

Producers give back what they own, ids have one bit, a frame is released once by who holds it, and
the overlaps that take a buffer from its owner do not happen.

## Main definitions

* `Observed`, `Observed.Step`: the interleaved system and its history
* `disciplined`: what the consumers promise
* `Sane`: the invariant

## Main results

* `Sane.step`: the invariant along interleaved runs
* `calls_take_effect`: an interleaved run is a run of the broadcast queue
-/

namespace YangIpc

namespace FrameQueue

open Transition Bits Broadcast

/-- The interleaved system and what its clients have observed. -/
structure Observed where
  system : System
  history : History

namespace Observed

/-- The queue and its history. -/
def world (o : Observed) : World := ⟨o.system.queue, o.history⟩

/-- What the history is after an action. -/
def record (format : ImageFormat) (o : Observed) : Action → History
  | .call _ _ => o.history
  | .run t env =>
    t.pc.record o.system.queue o.history (t.pc.exec format env o.system.queue).2

/-- The interleaved steps, observed. -/
def Step (format : ImageFormat) (o : Observed) (a : Action) (o' : Observed) : Prop :=
  System.Step format o.system a o'.system ∧ o'.history = o.record format a

/-- The system right after `frame_queue_v2_init`. -/
def initial (format : ImageFormat) (answer : ℕ → Option NodeId) (node : NodeId → FrameNode) :
    Observed :=
  ⟨System.initial format answer node, History.empty⟩

/-- The action of a move and the state it leads to. -/
def move (format : ImageFormat) (o : Observed) (move : Move) : Option (Action × Observed) :=
  (o.system.move format move).map fun r => (r.1, ⟨r.2, o.record format r.1⟩)

theorem step_of_move {format : ImageFormat} (o : Observed) (m : Move) (a : Action)
    (o' : Observed) (h : o.move format m = some (a, o')) : o.Step format a o' := by
  obtain ⟨r, hr, heq⟩ := Option.map_eq_some_iff.mp h
  obtain ⟨rfl, rfl⟩ := Prod.mk.inj heq
  exact ⟨System.step_of_move o.system m _ _ hr, rfl⟩

end Observed

/-- The hold that a `release` in flight is about to give up. -/
def Pc.releasing : Pc → Option (Mask × FrameAddr)
  | .releaseFind idx f => some (consumerBit idx, f)
  | _ => none

/-- The promises of the consumers: an id has one bit, and a frame is released by a consumer that
holds it and is not releasing it already. -/
def disciplined (o : Observed) : Action → Bool
  | .call _ (.releaseFrame id (some f)) => SingleBit id ∧ (id, f) ∈ o.history.holds ∧
      ∀ t ∈ o.system.threads, t.pc.releasing ≠ some (id, f)
  | .call _ (.registerConsumer id) | .call _ (.unregisterConsumer id)
  | .call _ (.getFrame id) => SingleBit id
  | _ => true

/-- Everything that is promised, and nothing that takes a buffer from its owner. -/
def allowed (o : Observed) (a : Action) : Prop :=
  orderly o.system a ∧ undisturbed o.system a ∧ disciplined o a

instance (o : Observed) (a : Action) : Decidable (allowed o a) :=
  inferInstanceAs (Decidable (_ ∧ _ ∧ _))

variable {format : ImageFormat} {created : List NodeId} {o o' : Observed} {a : Action}
  {q : FrameQueueV2} {pc pc' : Pc} {next : Next} {env : Env} {id : Mask} {f : FrameAddr}
  {h : History}

/-! ## Calls in flight -/

/-- The consumer of a call in flight has one bit, that of its index. -/
def Pc.Single (pc : Pc) : Prop :=
  pc.Fit ∧ ∀ id idx, pc = .register id idx ∨ pc = .unregister id idx → id = consumerBit idx

/-- After its first piece, a call is at none of the pieces that only begin a call. -/
theorem exec_within (hexec : (pc.exec format env q).2 = .goto pc') :
    pc'.releasing = none ∧ ∀ id idx, ¬(pc' = .register id idx ∨ pc' = .unregister id idx) := by
  cases pc with
  | completePost left =>
    cases left <;>
      · obtain rfl := Next.goto.inj hexec
        exact ⟨rfl, by simp⟩
  | _ =>
    revert hexec
    simp only [Pc.exec]
    repeat' split
    all_goals
      intro hexec
      cases hexec <;> exact ⟨rfl, by simp⟩

/-- A call that has not returned goes on with its next piece. -/
theorem Thread.mem_next {t u : Thread} (hu : u ∈ t.next next) :
    ∃ pc', next = .goto pc' ∧ u = ⟨t.caller, pc'⟩ := by
  cases next with
  | goto pc' => exact ⟨pc', rfl, List.mem_singleton.mp hu⟩
  | done result => exact absurd hu List.not_mem_nil

/-- A call that goes on is not about to give up a hold. -/
theorem releasing_next (format : ImageFormat) (env : Env) (q : FrameQueueV2) (t : Thread) :
    ((t.next (t.pc.exec format env q).2).filterMap fun u => u.pc.releasing) = [] := by
  refine List.filterMap_eq_nil_iff.mpr fun u hu => ?_
  obtain ⟨pc', hnext, rfl⟩ := Thread.mem_next hu
  exact (exec_within hnext).1

/-- A call stays a call for a consumer with one bit. -/
theorem Pc.Single.exec (hpc : pc.Single) (hexec : (pc.exec format env q).2 = .goto pc') :
    pc'.Single :=
  ⟨(exec_next hexec).2.1 hpc.1, fun id idx hreg => absurd hreg ((exec_within hexec).2 id idx)⟩

/-- How a call of a disciplined consumer begins. -/
theorem enter_single {request : Request} {caller : ℕ}
    (henter : request.enter format o.system.queue = some pc)
    (hok : disciplined o (.call caller request) = true) :
    pc.Single ∧ (∀ n, pc ≠ .releaseAppend n) ∧ ∀ x, pc.releasing = some x →
      x ∈ o.history.holds ∧ ∀ t ∈ o.system.threads, t.pc.releasing ≠ some x := by
  cases request with
  | malloc size | clearAll =>
    simp only [Request.enter] at henter
    split at henter <;> cases henter
    exact ⟨⟨trivial, by simp⟩, by simp, by simp [Pc.releasing]⟩
  | complete frame | cancel frame =>
    simp only [Request.enter] at henter
    split at henter <;> cases frame <;> cases henter
    exact ⟨⟨trivial, by simp⟩, by simp, by simp [Pc.releasing]⟩
  | getFrame id =>
    simp only [Request.enter] at henter
    split at henter <;> cases henter
    have hid : SingleBit id := of_decide_eq_true hok
    exact ⟨⟨hid, by simp⟩, by simp, by simp [Pc.releasing]⟩
  | releaseFrame id frame =>
    simp only [Request.enter] at henter
    split at henter
    · split at henter
      · rename_i f idx hidx
        cases henter
        obtain ⟨hid, hheld, honce⟩ := of_decide_eq_true hok
        obtain rfl := eq_consumerBit hid hidx
        refine ⟨⟨trivial, by simp⟩, by simp, fun x hx => ?_⟩
        obtain rfl : (consumerBit idx, f) = x := Option.some.inj hx
        exact ⟨hheld, honce⟩
      · cases henter
    · cases henter
  | registerConsumer id | unregisterConsumer id =>
    simp only [Request.enter] at henter
    split at henter
    · obtain ⟨idx, hidx, rfl⟩ := Option.map_eq_some_iff.mp henter
      refine ⟨⟨trivial, fun id' idx' heq => ?_⟩, by simp, by simp [Pc.releasing]⟩
      have heq : id = id' ∧ idx = idx' := by simpa using heq
      obtain ⟨rfl, rfl⟩ := heq
      exact eq_consumerBit (of_decide_eq_true hok) hidx
    · cases henter

/-- A hold is given up only by its own release. -/
theorem mem_holds_record {x : Mask × FrameAddr} (hx : x ∈ h.holds) (hpc : pc.releasing ≠ some x) :
    x ∈ (pc.record q h next).holds := by
  -- `release` is the only call that takes a hold away, and it records its own
  cases pc with
  | releaseFind idx f =>
    have hne : x ≠ (consumerBit idx, f) := fun heq => hpc (heq ▸ rfl)
    exact Finset.mem_erase.mpr ⟨hne, hx⟩
  | completeFind f => cases next <;> exact hx
  | getSearch id idx =>
    cases next with
    | goto pc => exact hx
    | done result =>
      cases result with
      | frame frame =>
        cases frame with
        | none => exact hx
        | some f => exact Finset.mem_insert_of_mem hx
      | _ => exact hx
  | register id idx =>
    simp only [Pc.record, History.record]
    split <;> exact hx
  | _ => exact hx

/-- The consumer of a step of the broadcast queue. -/
def eventId : Event Mask FrameAddr → Option Mask
  | .deliver id _ | .release id _ | .register id | .unregister id => some id
  | _ => none

/-- The steps that interleaved calls stand for: consumers have one bit and release what they hold,
and an H264 queue loses nothing. -/
structure Proper (format : ImageFormat) (s : State NodeId Mask ℕ FrameAddr)
    (ev : Event Mask FrameAddr) : Prop where
  honest : Honest s ev
  single : ∀ id, eventId ev = some id → SingleBit id
  lossless : format = .h264 → Lossless ev

/-! ## The invariant -/

/-- The invariant of observed runs: nodes are conserved and owned, completed nodes have a buffer,
free nodes no holder, and each release in flight has a hold of its own to give up. -/
structure Sane (created : List NodeId) (format : ImageFormat) (o : Observed) : Prop where
  conserved : Conserved created o.system
  own : Own True format created o.system.queue o.system.roles
  filled : Filled o.system.queue
  reset : ∀ t ∈ o.system.threads, ∀ n, t.pc = .releaseAppend n →
    (o.system.queue.node n).refCount = 0
  single : ∀ t ∈ o.system.threads, t.pc.Single
  once : (o.system.threads.filterMap fun t => t.pc.releasing).Nodup
  held : ∀ t ∈ o.system.threads, ∀ x, t.pc.releasing = some x → x ∈ o.history.holds

namespace Sane

theorem listed_created (ho : Sane created format o) :
    ∀ n ∈ o.system.queue.listed, n ∈ created := fun _ hn =>
  ho.conserved.perm.mem_iff.mp (List.mem_append_left _ hn)

theorem tidy (ho : Sane created format o) (hcreated : created.Nodup) : Tidy o.system.queue where
  toFilled := ho.filled
  nodup := (List.nodup_append.mp (ho.conserved.perm.nodup_iff.mpr hcreated)).1
  frame_inj _ hn _ hm _ hnf hmf := ho.own.eq_of_frame ho.listed_created hn hm hnf hmf

theorem sound (ho : Sane created format o) {t : Thread} (ht : t ∈ o.system.threads) :
    t.pc.role.Sound True o.system.queue :=
  ho.own.sound _ (List.mem_append_right _ (List.mem_map_of_mem ht))

/-- A search is made for a valid id. -/
theorem valid (ho : Sane created format o) {t : Thread} (ht : t ∈ o.system.threads) {idx : Fin 8}
    (hpc : t.pc = .getSearch id idx) : Valid id := by
  have hfit := (ho.single t ht).1
  rw [hpc] at hfit
  obtain rfl : id = consumerBit idx := hfit
  exact valid_consumerBit idx

/-- **Each piece is at most one step.** -/
theorem refines (ho : Sane created format o) (hcreated : created.Nodup) {t : Thread}
    (ht : t ∈ o.system.threads) (env : Env) :
    ∃ ev, t.pc.Causes format ev ∧ Proper format o.world.abstract ev ∧
      Step bits Valid o.world.abstract ev
        (World.mk (t.pc.exec format env o.system.queue).1
          (o.record format (.run t env))).abstract := by
  have htidy := ho.tidy hcreated
  obtain ⟨ev, hcause, hstep⟩ := (exec_effect format env htidy.nodup (ho.sound ht)).refines htidy
    (fun id idx hpc => ho.valid ht hpc) o.history
  obtain ⟨hfit, hregister⟩ := ho.single t ht
  refine ⟨ev, hcause, ⟨?_, fun id hid => ?_, ?_⟩, hstep⟩
  -- the piece of a `release` gives up the hold that its call began with
  · cases ev with
    | release id f =>
      obtain ⟨idx, rfl, hpc⟩ := hcause
      exact ho.held t ht _ (by rw [hpc]; rfl)
    | _ => trivial
  · cases ev with
    | deliver id' f =>
      obtain ⟨idx, hpc⟩ := hcause
      rw [hpc] at hfit
      obtain rfl : id' = id := Option.some.inj hid
      exact ⟨idx, by omega, hfit⟩
    | release id' f =>
      obtain ⟨idx, rfl, -⟩ := hcause
      exact ⟨idx, by omega, (Option.some.inj hid).symm⟩
    | register id' =>
      obtain ⟨idx, hpc⟩ := hcause
      obtain rfl : id' = id := Option.some.inj hid
      exact ⟨idx, by omega, hregister _ idx (.inl hpc)⟩
    | unregister id' =>
      obtain ⟨idx, hpc⟩ := hcause
      obtain rfl : id' = id := Option.some.inj hid
      exact ⟨idx, by omega, hregister _ idx (.inr hpc)⟩
    | _ => exact absurd hid.symm (Option.some_ne_none id)
  -- on an H264 queue `malloc` reuses no completed node
  · rintro rfl
    cases ev with
    | discard f => exact absurd rfl hcause.1
    | clear => exact hcause.elim
    | _ => trivial

/-- A disciplined call begins. -/
theorem call (ho : Sane created format o) {caller : ℕ} {request : Request}
    (henter : request.enter format o.system.queue = some pc)
    (hok : disciplined o (.call caller request) = true) {system : System}
    (hsystem : system = ⟨o.system.queue, ⟨caller, pc⟩ :: o.system.threads,
      giveBack caller o.system.owned request⟩)
    (hc : Conserved created system) (hown : Own True format created system.queue system.roles) :
    Sane created format ⟨system, o.history⟩ := by
  obtain ⟨hsingle, happend, hreleasing⟩ := enter_single henter hok
  subst hsystem
  -- the queue and the history are as before; what is new is the call itself
  refine ⟨hc, hown, ho.filled, fun t ht n hpc => ?_, fun t ht => ?_, ?_, fun t ht x hx => ?_⟩
  · rcases List.mem_cons.mp ht with rfl | ht
    · exact absurd hpc (happend n)
    · exact ho.reset t ht n hpc
  · rcases List.mem_cons.mp ht with rfl | ht
    · exact hsingle
    · exact ho.single t ht
  · cases hx : pc.releasing with
    | none => simpa [hx] using ho.once
    | some x =>
      rw [List.filterMap_cons_some (by exact hx)]
      refine List.nodup_cons.mpr ⟨fun hmem => ?_, ho.once⟩
      obtain ⟨t, ht, htx⟩ := List.mem_filterMap.mp hmem
      exact (hreleasing x hx).2 t ht htx
  · rcases List.mem_cons.mp ht with rfl | ht
    · exact (hreleasing x hx).1
    · exact ho.held t ht x hx

/-- A call in flight runs a piece. -/
theorem run (ho : Sane created format o) (hcreated : created.Nodup) {t : Thread}
    {rest : List Thread} (hpick : o.system.threads.Perm (t :: rest)) {system : System}
    (hqueue : system.queue = (t.pc.exec format env o.system.queue).1)
    (hthreads : system.threads = t.next (t.pc.exec format env o.system.queue).2 ++ rest)
    (hc : Conserved created system) (hown : Own True format created system.queue system.roles) :
    Sane created format ⟨system, o.record format (.run t env)⟩ := by
  have ht : t ∈ o.system.threads := hpick.mem_iff.mpr List.mem_cons_self
  have hrest : ∀ u ∈ rest, u ∈ o.system.threads := fun u hu =>
    hpick.mem_iff.mpr (List.mem_cons_of_mem _ hu)
  have htidy := ho.tidy hcreated
  have hleaves : Leaves o.system.queue t.pc (t.pc.exec format env o.system.queue).1
      (t.pc.exec format env o.system.queue).2 :=
    (exec_effect format env htidy.nodup (ho.sound ht)).leaves htidy (ho.reset t ht)
  -- the call after the piece, or one of the others
  have hcases : ∀ u ∈ system.threads, u ∈ rest ∨
      ∃ pc', (t.pc.exec format env o.system.queue).2 = .goto pc' ∧ u = ⟨t.caller, pc'⟩ := by
    intro u hu
    rw [hthreads] at hu
    rcases List.mem_append.mp hu with hu | hu
    · exact .inr (Thread.mem_next hu)
    · exact .inl hu
  have hsplit := (hpick.filterMap fun t => t.pc.releasing).nodup_iff.mp ho.once
  have hroles : Own True format created o.system.queue
      (t.pc.role :: rolesOf o.system.owned rest) :=
    ho.own.perm ((rolesOf_perm hpick).trans (rolesOf_cons _ t rest))
  refine ⟨hc, hown, hqueue ▸ hleaves.filled, fun u hu n hpc => ?_, fun u hu => ?_, ?_,
    fun u hu x hx => ?_⟩
  · show (system.queue.node n).refCount = 0
    rw [hqueue]
    rcases hcases u hu with hu | ⟨pc', hnext, rfl⟩
    -- the node of another release is on no list, and no other call has it
    · have hloose : u.pc.role.looseNode = some n := by rw [hpc]; rfl
      have hapart : Role.Apart o.system.queue t.pc.role u.pc.role :=
        hroles.apart_head (List.mem_append_right _ (List.mem_map_of_mem hu))
      rw [hleaves.unlisted n ((ho.sound (hrest u hu)).loose n hloose)
        fun hmine => hapart.1.loose n hmine hloose]
      exact ho.reset u (hrest u hu) n hpc
    · obtain rfl : pc' = .releaseAppend n := hpc
      exact hleaves.reset n hnext
  · rcases hcases u hu with hu | ⟨pc', hnext, rfl⟩
    · exact ho.single u (hrest u hu)
    · exact (ho.single t ht).exec hnext
  · show (system.threads.filterMap fun t => t.pc.releasing).Nodup
    rw [hthreads, List.filterMap_append, releasing_next, List.nil_append]
    exact hsplit.sublist ((List.sublist_cons_self t rest).filterMap _)
  · rcases hcases u hu with hu | ⟨pc', hnext, rfl⟩
    -- the hold of another release is another hold
    · refine mem_holds_record (ho.held u (hrest u hu) x hx) fun hmine => ?_
      rw [List.filterMap_cons_some (by exact hmine)] at hsplit
      exact (List.nodup_cons.mp hsplit).1 (List.mem_filterMap.mpr ⟨u, hu, hx⟩)
    · rw [show Pc.releasing pc' = none from (exec_within hnext).1] at hx
      exact absurd hx.symm (Option.some_ne_none x)

/-- **Every allowed step keeps the invariant.** -/
theorem step (ho : Sane created format o) (hcreated : created.Nodup) (hok : allowed o a)
    (hstep : o.Step format a o') : Sane created format o' := by
  obtain ⟨system, history⟩ := o'
  obtain ⟨hsystem, rfl⟩ : System.Step format o.system a system ∧ history = o.record format a :=
    hstep
  obtain ⟨horderly, hundisturbed, hdisciplined⟩ := hok
  have hc := ho.conserved.step hcreated hsystem
  have hown := ho.own.step ho.conserved hcreated hsystem horderly
    (undisturbed_of_orderly horderly hundisturbed)
  cases hsystem with
  | call caller request pc enter => exact ho.call enter hdisciplined rfl hc hown
  | run t rest env pick => exact ho.run hcreated pick rfl rfl hc hown

theorem initial {answer : ℕ → Option NodeId} (node : NodeId → FrameNode)
    (hnodes : (createdNodes format answer).Nodup) :
    Sane (createdNodes format answer) format (.initial format answer node) where
  conserved := conserved_initial format answer node
  own := own_initial node hnodes
  filled := by
    have hw := wellFormed_initialised node hnodes
    exact ⟨hw.ready_frame, hw.free_ref⟩
  reset _ ht := absurd ht List.not_mem_nil
  single _ ht := absurd ht List.not_mem_nil
  once := List.nodup_nil
  held _ ht := absurd ht List.not_mem_nil

end Sane

/-! ## Runs -/

/-- The steps of the broadcast queue an action may stand for. -/
def Action.Causes (format : ImageFormat) : Action → Event Mask FrameAddr → Prop
  | .call _ _, ev => ev = .idle
  | .run t _, ev => t.pc.Causes format ev

/-- An interleaved step is at most one step of the broadcast queue. -/
theorem Sane.refines_step (ho : Sane created format o) (hcreated : created.Nodup)
    (hstep : o.Step format a o') :
    ∃ ev, a.Causes format ev ∧ Proper format o.world.abstract ev ∧
      Step bits Valid o.world.abstract ev o'.world.abstract := by
  obtain ⟨system, history⟩ := o'
  obtain ⟨hsystem, rfl⟩ : System.Step format o.system a system ∧ history = o.record format a :=
    hstep
  cases hsystem with
  -- entering a call touches neither the queue nor the history
  | call caller request pc enter =>
    exact ⟨.idle, rfl, ⟨trivial, fun _ hid => absurd hid.symm (Option.some_ne_none _),
      fun _ => trivial⟩, .idle _⟩
  | run t rest env pick =>
    exact ho.refines hcreated (pick.mem_iff.mpr List.mem_cons_self) env

section Runs

variable {answer : ℕ → Option NodeId} {node : NodeId → FrameNode}

/-- The invariant holds in every allowed run. -/
theorem sane_of_reaches (hnodes : (createdNodes format answer).Nodup)
    (h : Reaches (Guarded (Observed.Step format) allowed) (.initial format answer node) o) :
    Sane (createdNodes format answer) format o :=
  h.invariant (.initial node hnodes) fun _ _ _ ho hstep => ho.step hnodes hstep.1 hstep.2

/-- **An interleaved run is a run of the broadcast queue.** -/
theorem abstract_reaches (hnodes : (createdNodes format answer).Nodup)
    (h : Reaches (Guarded (Observed.Step format) allowed) (.initial format answer node) o) :
    Reaches (Guarded (Step bits Valid) (Proper format))
      (Observed.initial format answer node).world.abstract o.world.abstract := by
  induction h with
  | refl => exact .refl _
  | tail hreach hstep ih =>
    obtain ⟨a, -, hnext⟩ := hstep
    obtain ⟨ev, -, hproper, hev⟩ := (sane_of_reaches hnodes hreach).refines_step hnodes hnext
    exact ih.tail ⟨hproper, hev⟩

/-- **Interleaved calls take effect at once.** However producers, consumers and registrations
interleave, the queue stands at every moment for a broadcast queue that a run of its own steps has
led to, in which consumers release only what they hold; and each piece of a call stands for at
most one step, which is one that the call makes when it is run alone. -/
theorem calls_take_effect (hnodes : (createdNodes format answer).Nodup)
    (h : Reaches (Guarded (Observed.Step format) allowed) (.initial format answer node) o) :
    Reaches (Guarded (Step bits Valid) (Proper format))
        (Observed.initial format answer node).world.abstract o.world.abstract ∧
      ∀ a o', o.Step format a o' → ∃ ev, a.Causes format ev ∧
        Proper format o.world.abstract ev ∧
        Step bits Valid o.world.abstract ev o'.world.abstract :=
  ⟨abstract_reaches hnodes h, fun _ _ hstep => (sane_of_reaches hnodes h).refines_step hnodes hstep⟩

end Runs

/-- Two consumers have been given the first frame while its producer is still posting and another
producer is in `malloc`; the first consumer releases it. -/
def crossing : List Move :=
  [.call 0 (.registerConsumer 1)] ++ turns 0 1 ++ [.call 1 (.registerConsumer 2)] ++ turns 1 1 ++
    [.call 2 (.malloc 10)] ++ turns 2 2 ++ [.turn 2 (some 100)] ++ turns 2 4 ++
    [.call 3 (.malloc 10)] ++ turns 3 1 ++ [.call 2 (.complete (some 100))] ++ turns 2 1 ++
    [.call 0 (.getFrame 1)] ++ turns 0 2 ++ [.call 1 (.getFrame 2)] ++ turns 1 2 ++
    [.call 0 (.releaseFrame 1 (some 100))] ++ turns 0 1

theorem crossing_reached : ∃ o,
    Reaches (Guarded (Observed.Step .h264) allowed) (.initial .h264 some fun _ => .zero) o ∧
      o.system.threads.length = 2 ∧ o.history.holds = {(2, 100)} ∧
      o.history.delivered 1 = [0] := by
  have hplay : (play (Observed.move .h264) (fun o a => allowed o a) crossing
      (.initial .h264 some fun _ => .zero)).any
        (fun o => o.system.threads.length = 2 ∧ o.history.holds = {(2, 100)} ∧
          o.history.delivered 1 = [0]) = true := by
    decide +kernel
  obtain ⟨o, ho, hlast⟩ := exists_reaches_of_play Observed.step_of_move hplay
  exact ⟨o, ho.weaken fun _ _ hok => of_decide_eq_true hok, of_decide_eq_true hlast⟩

/-- The same while calls of two producers are in flight. -/
theorem calls_take_effect_crossing : ∃ o : Observed, o.system.threads.length = 2 ∧
    Reaches (Guarded (Step bits Valid) (Proper .h264))
      (Observed.initial .h264 some fun _ => .zero).world.abstract o.world.abstract := by
  obtain ⟨o, ho, hthreads, -⟩ := crossing_reached
  exact ⟨o, hthreads, (calls_take_effect (by decide) ho).1⟩

end FrameQueue

end YangIpc
