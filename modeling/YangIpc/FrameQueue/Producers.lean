import YangIpc.FrameQueue.Buffers
import YangIpc.FrameQueue.Ownership

/-!
# Producers and their buffers

A producer owns a buffer from the return of `malloc` to its call of `complete` or `cancel`.
`cancel` clears `in_use` in its critical section and frees `node->frame` after it, so that a
`malloc` in between reserves the node, finds the buffer still attached and returns it, and the
buffer is freed under its new owner.  Without this overlap, and without reuse of an address to
which a node still points, ownership is exclusive.

## Main definitions

* `System.roles`: the roles of the calls in flight and of the owned buffers
* `orderly`, `undisturbed`: what producers and allocator promise, and what must not overlap
* `Exclusive`: what ownership means

## Main results

* `Own.step`: the ownership invariant along interleaved runs
* `producers_own_exclusively`: ownership is exclusive in undisturbed runs
* `cancel_frees_under_owner`: in other runs it is not
* `buffers_may_be_shared`: nor when an address comes back while a release is in flight
-/

namespace YangIpc

namespace FrameQueue

open Transition

variable {strict : Prop} {format : ImageFormat} {created : List NodeId} {s s' : System}
  {a : Action} {f : FrameAddr}

/-! ## Roles of the system -/

/-- The roles of the owned buffers and of the calls in flight. -/
def rolesOf (owned : List (ℕ × FrameAddr)) (threads : List Thread) : List Role :=
  (owned.map fun o => .hand o.2) ++ threads.map fun t => t.pc.role

/-- The roles of a system. -/
def System.roles (s : System) : List Role := rolesOf s.owned s.threads

theorem rolesOf_cons (owned : List (ℕ × FrameAddr)) (t : Thread) (threads : List Thread) :
    (rolesOf owned (t :: threads)).Perm (t.pc.role :: rolesOf owned threads) :=
  List.perm_middle

theorem rolesOf_perm {owned : List (ℕ × FrameAddr)} {l l' : List Thread} (h : l.Perm l') :
    (rolesOf owned l).Perm (rolesOf owned l') :=
  (h.map _).append_left _

/-- Giving a buffer back moves the frame from the producer to the call. -/
theorem rolesOf_erase {owned : List (ℕ × FrameAddr)} {threads : List Thread} {o : ℕ × FrameAddr}
    (h : o ∈ owned) :
    (rolesOf owned threads).Perm (.hand o.2 :: rolesOf (owned.erase o) threads) :=
  ((List.perm_cons_erase h).map _).append_right _

/-- The roles after a piece. -/
theorem Own.roles_after {q : FrameQueueV2} {t : Thread} {next : Next}
    {owned : List (ℕ × FrameAddr)} {rest : List Thread}
    (h : Own strict format created q (t.pc.after next :: rolesOf owned rest)) :
    Own strict format created q (rolesOf (t.receive owned next) (t.next next ++ rest)) := by
  cases next with
  | goto pc => exact h.perm (rolesOf_cons owned ⟨t.caller, pc⟩ rest).symm
  | done result =>
    cases result with
    | frame frame =>
      cases frame with
      | none => exact h.of_cons_idle
      | some f =>
        cases hpc : t.pc with
        -- only `malloc` gives its caller a buffer to own
        | mallocDone frame =>
          simp only [Pc.after, hpc] at h
          simp only [Thread.receive, hpc]
          exact h
        | _ =>
          simp only [Pc.after, hpc] at h
          simp only [Thread.receive, hpc]
          exact h.of_cons_idle
    | _ => exact h.of_cons_idle

/-! ## Promises and overlaps -/

/-- The promises: a producer gives back what it owns, once, the allocator returns an address that
is not live, and nobody calls `clear_all`. -/
def orderly (s : System) : Action → Bool
  | .call caller (.complete (some frame)) => (caller, frame) ∈ s.owned
  | .call caller (.cancel (some frame)) => (caller, frame) ∈ s.owned
  | .call _ .clearAll => false
  | .run ⟨_, .mallocAlloc _ _⟩ ⟨some frame, _⟩ => s.queue.live.all fun b => b.addr ≠ frame
  | _ => true

/-- The node on which a `cancel` is still at work. -/
def cancelling : Pc → Option NodeId
  | .cancelFree n => some n
  | .cancelClear n => some n
  | _ => none

/-- The buffer a call has freed and to which its node still points. -/
def dangling (q : FrameQueueV2) : Pc → Option FrameAddr
  | .cancelClear n => (q.node n).frame
  | .releaseClear n => (q.node n).frame
  | _ => none

/-- The overlaps that take a buffer from its owner, or show it at two nodes, do not happen: `malloc`
does not look at the buffer of a node on which a `cancel` is at work, and the allocator does not
return an address to which a node still points. -/
def undisturbed (s : System) : Action → Bool
  | .run ⟨_, .mallocFrame _ n⟩ _ => s.threads.all fun u => cancelling u.pc ≠ some n
  | .run ⟨_, .mallocAlloc _ _⟩ ⟨some frame, _⟩ =>
    s.threads.all fun u => dangling s.queue u.pc ≠ some frame
  | _ => true

/-- What the ownership invariant needs of a step. -/
structure System.Undisturbed (strict : Prop) (s : System) (a : Action) : Prop where
  frame : ∀ t env size n, a = .run t env → t.pc = .mallocFrame size n → ∀ u ∈ s.threads,
    u.pc.role.cancelNode ≠ some n
  alloc : ∀ t env size n f, a = .run t env → t.pc = .mallocAlloc size n → env.answer = some f →
    ¬Live s.queue f ∧ ∀ u ∈ s.threads, ∀ m, u.pc.role.Dangles strict m →
      (s.queue.node m).frame ≠ some f

theorem cancelling_of_role {pc : Pc} {n : NodeId} (h : pc.role.cancelNode = some n) :
    cancelling pc = some n := by
  cases pc <;> simp_all [Pc.role, cancelling]

theorem dangling_of_role {pc : Pc} {q : FrameQueueV2} {n : NodeId}
    (h : pc.role.Dangles strict n) : dangling q pc = (q.node n).frame := by
  cases pc <;> simp_all [Pc.role, dangling]

theorem undisturbed_of_orderly (hok : orderly s a = true) (hu : undisturbed s a = true) :
    s.Undisturbed True a where
  frame t env size n ha hpc u hmem hcancel := by
    subst ha
    obtain ⟨caller, pc⟩ := t
    subst hpc
    simp only [undisturbed, List.all_eq_true] at hu
    simpa [cancelling_of_role hcancel] using hu u hmem
  alloc t env size n f ha hpc henv := by
    subst ha
    obtain ⟨caller, pc⟩ := t
    obtain ⟨answer, timeout⟩ := env
    subst hpc henv
    simp only [orderly, List.all_eq_true] at hok
    simp only [undisturbed, List.all_eq_true] at hu
    refine ⟨?_, fun u hmem m hdangle hf => ?_⟩
    · rintro ⟨b, hb, hbf⟩
      simpa [hbf] using hok b hb
    · simpa [dangling_of_role (q := s.queue) hdangle, hf] using hu u hmem

/-! ## The invariant along runs -/

/-- **Every orderly and undisturbed step keeps the ownership invariant.** -/
theorem Own.step (h : Own strict format created s.queue s.roles) (hc : Conserved created s)
    (hcreated : created.Nodup) (hstep : System.Step format s a s') (hok : orderly s a = true)
    (hu : s.Undisturbed strict a) : Own strict format created s'.queue s'.roles := by
  cases hstep with
  | call caller request pc enter =>
    -- most calls begin without a role of their own
    have hidle : giveBack caller s.owned request = s.owned → pc.role = .idle →
        Own strict format created s.queue
          (rolesOf (giveBack caller s.owned request) (⟨caller, pc⟩ :: s.threads)) := by
      intro hgive hrole
      rw [hgive]
      refine Own.perm ?_ (rolesOf_cons _ _ _).symm
      rw [hrole]
      exact h.cons_idle
    rcases Request.enter_cases enter with ⟨_, rfl, rfl⟩ | ⟨f, rfl, rfl⟩ | ⟨f, rfl, rfl⟩ |
      ⟨_, rfl, rfl⟩ | ⟨_, _, _, rfl, rfl⟩ | ⟨_, _, rfl, -, rfl⟩ | ⟨_, _, rfl, rfl⟩ | ⟨rfl, rfl⟩
    · exact hidle rfl rfl
    -- `complete` and `cancel` take the frame over from their caller
    · have hmem : (caller, f) ∈ s.owned := by simpa [orderly] using hok
      exact h.perm ((rolesOf_erase hmem).trans
        (rolesOf_cons _ ⟨caller, .completeFind f⟩ s.threads).symm)
    · have hmem : (caller, f) ∈ s.owned := by simpa [orderly] using hok
      exact h.perm ((rolesOf_erase hmem).trans
        (rolesOf_cons _ ⟨caller, .cancelFind f⟩ s.threads).symm)
    · exact hidle rfl rfl
    · exact hidle rfl rfl
    · exact hidle rfl rfl
    · exact hidle rfl rfl
    · simp [orderly] at hok
  | run t rest env pick =>
    have hroles : s.roles.Perm (t.pc.role :: rolesOf s.owned rest) :=
      (rolesOf_perm pick).trans (rolesOf_cons _ t rest)
    have hperm : (s.queue.listed ++ limbo (t :: rest)).Perm created :=
      ((limbo_perm pick).symm.append_left _).trans hc.perm
    have hrest : ∀ u ∈ rest, u ∈ s.threads := fun u hmem =>
      pick.mem_iff.mpr (List.mem_cons_of_mem _ hmem)
    refine Own.roles_after ((h.perm hroles).exec ?_ ?_ ?_ ⟨?_, ?_⟩)
    · exact fun n hn => hperm.mem_iff.mp (List.mem_append_left _ hn)
    · exact (List.nodup_append.mp (hperm.nodup_iff.mpr hcreated)).1
    · exact fun n hn => hperm.mem_iff.mp (List.mem_append_right _ (by simp [limbo_cons, hn]))
    -- owned buffers are no `cancel`, so the overlap is with a call in flight
    · intro size n hpc x hx
      rcases List.mem_append.mp hx with hx | hx
      · obtain ⟨o, -, rfl⟩ := List.mem_map.mp hx
        simp
      · obtain ⟨u, hmem, rfl⟩ := List.mem_map.mp hx
        exact hu.frame t env size n rfl hpc u (hrest u hmem)
    · intro size n f hpc henv
      obtain ⟨hlive, hdangle⟩ := hu.alloc t env size n f rfl hpc henv
      refine ⟨hlive, fun x hx m hxm => ?_⟩
      rcases List.mem_append.mp hx with hx | hx
      · obtain ⟨o, -, rfl⟩ := List.mem_map.mp hx
        simp at hxm
      · obtain ⟨u, hmem, rfl⟩ := List.mem_map.mp hx
        exact hdangle u (hrest u hmem) m hxm

theorem own_initial {answer : ℕ → Option NodeId} (node : NodeId → FrameNode)
    (hnodes : (createdNodes format answer).Nodup) :
    Own strict format (createdNodes format answer) (System.initial format answer node).queue
      (System.initial format answer node).roles := by
  have hw := wellFormed_initialised node hnodes
  have hlisted : ∀ n ∈ createdNodes format answer, n ∈ (initialised format answer node).listed := by
    obtain ⟨hfree, hready, -⟩ := initialised_lists format answer node
    simp [FrameQueueV2.listed, hfree, hready]
  refine ⟨by simp [System.roles, rolesOf, System.initial], .nil, fun n hn m hm f hnf hmf _ _ => ?_,
    fun n hn f hnf _ _ => ?_, by simp [System.roles, rolesOf, System.initial], hw.live_kind⟩
  · exact hw.frame_inj n (hlisted n hn) m (hlisted m hm) f hnf hmf
  · exact hw.frame_live n (hlisted n hn) f hnf

/-! ## Exclusive ownership -/

/-- What owning the buffer `f` means to the producer `p`: it has not been freed, it is the frame
of exactly one node, and nobody owns it once more. -/
structure Exclusive (created : List NodeId) (s : System) (p : ℕ) (f : FrameAddr) : Prop where
  live : Live s.queue f
  node : ∃! n, n ∈ created ∧ (s.queue.node n).frame = some f
  alone : ∀ p', (p', f) ∉ s.owned.erase (p, f)

theorem Own.exclusive (h : Own True format created s.queue s.roles) (hc : Conserved created s)
    {p : ℕ} (hp : (p, f) ∈ s.owned) : Exclusive created s p f := by
  have hlisted : ∀ n ∈ s.queue.listed, n ∈ created := fun n hn =>
    hc.perm.mem_iff.mp (List.mem_append_left _ hn)
  have hhead := h.perm (rolesOf_erase hp)
  obtain ⟨n, hn, -, hnf⟩ := (hhead.sound _ List.mem_cons_self).hand f rfl
  have hfree := mem_listed_of_free hn
  -- a `cancel` whose buffer is already freed works on another node
  have hclear : .clear n ∉ .hand f :: rolesOf (s.owned.erase (p, f)) s.threads := by
    intro hmem
    rcases List.mem_cons.mp hmem with hmem | hmem
    · simp at hmem
    · exact ((hhead.apart_head hmem).1.hand f rfl).2 n (.inr rfl) hnf
  have hlive : Live s.queue f :=
    hhead.live n (hlisted n hfree) f hnf (hhead.drop_notMem hfree) hclear
  refine ⟨hlive, ⟨n, ⟨hlisted n hfree, hnf⟩, fun m ⟨hm, hmf⟩ => ?_⟩, fun p' hp' => ?_⟩
  -- a second node with this buffer would be that of a `release`, but then it is dead
  · refine hhead.inj m hm n (hlisted n hfree) f hmf hnf (fun hd => ?_) (hhead.drop_notMem hfree)
    exact (hhead.sound _ hd).dead m f (by simp) hmf hlive
  · have hmem : Role.hand f ∈ rolesOf (s.owned.erase (p, f)) s.threads :=
      List.mem_append_left _ (List.mem_map.mpr ⟨(p', f), hp', rfl⟩)
    exact ((hhead.apart_head hmem).1.hand f rfl).1 rfl

/-- The overlap: producer `2` reserves node `0` after the critical section of the `cancel` of
producer `1` and before its free. -/
def overlap : List Move :=
  [.call 1 (.malloc 10)] ++ turns 1 2 ++ [.turn 1 (some 100)] ++ turns 1 4 ++
    [.call 1 (.cancel (some 100))] ++ turns 1 1 ++ [.call 2 (.malloc 10)] ++ turns 2 5 ++ turns 1 1

/-- **`cancel` may free the buffer of another producer.** -/
theorem cancel_frees_under_owner :
    ¬∀ s, Reaches (Guarded (System.Step .h264) fun s a => orderly s a)
        (System.initial .h264 some fun _ => .zero) s →
      ∀ p f, (p, f) ∈ s.owned → Exclusive (createdNodes .h264 some) s p f := by
  have hplay : (play (System.move .h264) orderly overlap
      (System.initial .h264 some fun _ => .zero)).any
        (fun s => s.owned = [(2, 100)] ∧ s.queue.live = []) = true := by
    decide +kernel
  obtain ⟨s, hs, hlast⟩ := exists_reaches_of_play System.step_of_move hplay
  obtain ⟨howned, hlive⟩ : s.owned = [(2, 100)] ∧ s.queue.live = [] := by simpa using hlast
  intro hall
  obtain ⟨b, hb, -⟩ := (hall s hs 2 100 (by simp [howned])).live
  simp [hlive] at hb

/-- **Producers own their buffers exclusively.** However calls interleave, as long as no `malloc`
looks at the buffer of a node on which a `cancel` is at work and no address is reused while a
node still points to it, a buffer returned by `malloc` and not yet given back is live, is the
frame of exactly one node, and has one owner. -/
theorem producers_own_exclusively {answer : ℕ → Option NodeId} {node : NodeId → FrameNode}
    (hnodes : (createdNodes format answer).Nodup)
    (h : Reaches (Guarded (System.Step format) fun s a => orderly s a ∧ undisturbed s a)
      (System.initial format answer node) s) (p : ℕ) (f : FrameAddr) (hp : (p, f) ∈ s.owned) :
    Exclusive (createdNodes format answer) s p f := by
  have hs : Conserved (createdNodes format answer) s ∧
      Own True format (createdNodes format answer) s.queue s.roles := by
    refine h.invariant (P := fun s => Conserved (createdNodes format answer) s ∧
      Own True format (createdNodes format answer) s.queue s.roles)
      ⟨conserved_initial format answer node, own_initial node hnodes⟩ ?_
    rintro s a s' ⟨hc, ho⟩ ⟨⟨hok, hu⟩, hstep⟩
    exact ⟨hc.step hnodes hstep,
      ho.step hc hnodes hstep hok (undisturbed_of_orderly hok hu)⟩
  exact hs.2.exclusive hs.1 hp

/-- The same moves one after the other: the `malloc` of producer `2` finds no buffer left. -/
def overlapFree : List Move :=
  [.call 1 (.malloc 10)] ++ turns 1 2 ++ [.turn 1 (some 100)] ++ turns 1 4 ++
    [.call 1 (.cancel (some 100))] ++ turns 1 3 ++ [.call 2 (.malloc 10)] ++ turns 2 2 ++
    [.turn 2 (some 100)] ++ turns 2 4

theorem producers_own_exclusively_h264 : ∃ s,
    Reaches (Guarded (System.Step .h264) fun s a => orderly s a ∧ undisturbed s a)
      (System.initial .h264 some fun _ => .zero) s ∧
    Exclusive (createdNodes .h264 some) s 2 100 := by
  have hplay : (play (System.move .h264) (fun s a => orderly s a && undisturbed s a) overlapFree
      (System.initial .h264 some fun _ => .zero)).any (fun s => (2, 100) ∈ s.owned) = true := by
    decide +kernel
  obtain ⟨s, hs, hlast⟩ := exists_reaches_of_play System.step_of_move hplay
  have hreach : Reaches (Guarded (System.Step .h264) fun s a => orderly s a ∧ undisturbed s a)
      (System.initial .h264 some fun _ => .zero) s := hs.weaken fun _ _ h => by simpa using h
  exact ⟨s, hreach, producers_own_exclusively (by decide) hreach 2 100 (by simpa using hlast)⟩

/-- Producer `3` gets the address of a buffer that a release has freed, before that has cleared its
node. -/
def reuse : List Move :=
  [.call 0 (.registerConsumer 1)] ++ turns 0 1 ++ [.call 2 (.malloc 10)] ++ turns 2 2 ++
    [.turn 2 (some 100)] ++ turns 2 4 ++ [.call 2 (.complete (some 100))] ++ turns 2 1 ++
    [.call 0 (.getFrame 1)] ++ turns 0 2 ++ [.call 0 (.releaseFrame 1 (some 100))] ++ turns 0 2 ++
    [.call 3 (.malloc 10)] ++ turns 3 2 ++ [.turn 3 (some 100)] ++ turns 3 4

/-- **A buffer may be the frame of two nodes**, without a `cancel`, when the allocator returns an
address that a release has freed and not cleared yet: so both halves of the condition are needed. -/
theorem buffers_may_be_shared : ∃ s,
    Reaches (Guarded (System.Step .h264) fun s a => orderly s a ∧
        ∀ caller frame, a ≠ .call caller (.cancel frame))
      (System.initial .h264 some fun _ => .zero) s ∧
    (3, 100) ∈ s.owned ∧ ¬Exclusive (createdNodes .h264 some) s 3 100 := by
  have hplay : (play (System.move .h264) (fun s a => orderly s a && match a with
      | .call _ (.cancel _) => false
      | _ => true) reuse (System.initial .h264 some fun _ => .zero)).any (fun s =>
        (3, 100) ∈ s.owned ∧ (s.queue.node 0).frame = some 100 ∧
          (s.queue.node 1).frame = some 100) = true := by
    decide +kernel
  obtain ⟨s, hs, hlast⟩ := exists_reaches_of_play System.step_of_move hplay
  obtain ⟨howned, hzero, hone⟩ := of_decide_eq_true hlast
  refine ⟨s, hs.weaken fun s a hok => ?_, howned, fun hexclusive => ?_⟩
  · obtain ⟨hok, hcancel⟩ := (Bool.and_eq_true _ _).mp hok
    refine ⟨hok, fun caller frame ha => ?_⟩
    subst ha
    exact Bool.false_ne_true hcancel
  · obtain ⟨n, -, hunique⟩ := hexclusive.node
    have hsame : 0 = 1 := (hunique 0 ⟨by decide, hzero⟩).trans (hunique 1 ⟨by decide, hone⟩).symm
    exact absurd hsame (by decide)

end FrameQueue

end YangIpc
