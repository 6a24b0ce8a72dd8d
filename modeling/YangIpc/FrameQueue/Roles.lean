import YangIpc.FrameQueue.Interleaving

/-!
# What the calls in flight stand for

Between two steps every call in flight, and every buffer a producer owns, has a role: it has
reserved a node, it frees the buffer of a node, it has a frame in hand.  A role says what the
queue must look like for it, and two roles must not get in each other's way.  `Own` is the
invariant built from these conditions.

## Main definitions

* `Role`, `Pc.role`: the roles, and the role of a call in flight
* `Role.Sound`: what one role relies on
* `Role.Apart`: what keeps two roles out of each other's way
* `Own`: the ownership invariant

## Main results

* `Own.update`: replacing one role, the general rule
* `Own.quiet`: the same for pieces that change no buffer, no reservation and no place
-/

namespace YangIpc

namespace FrameQueue

/-- The role of a call in flight or of an owned buffer. -/
inductive Role
  /-- nothing the others could disturb -/
  | idle
  /-- `malloc` has reserved the node and not yet looked at its buffer -/
  | reserve (n : NodeId)
  /-- `malloc` asks the allocator for a buffer for the node -/
  | fetch (n : NodeId)
  /-- `malloc` has the answer of the allocator for the node -/
  | attach (n : NodeId) (answer : Option FrameAddr)
  /-- `malloc` resets the node, which has the buffer -/
  | fill (n : NodeId) (frame : FrameAddr)
  /-- a producer has the frame, or is about to give it back -/
  | hand (frame : FrameAddr)
  /-- `cancel` is about to free the buffer of the node -/
  | cancel (n : NodeId)
  /-- `cancel` has freed the buffer, to which the node still points -/
  | clear (n : NodeId)
  /-- `release` has unlinked the node and is about to free its buffer -/
  | unlink (n : NodeId)
  /-- `release` has freed the buffer, to which the unlinked node still points -/
  | drop (n : NodeId)
  /-- `release` is about to append the node -/
  | limbo (n : NodeId)
  /-- `clear_all` -/
  | wipe
deriving DecidableEq, Repr

/-- The role of a call in flight. -/
def Pc.role : Pc → Role
  | .mallocFrame _ n => .reserve n
  | .mallocAlloc _ n => .fetch n
  | .mallocAttach n answer => .attach n answer
  | .mallocReset n frame => .fill n frame
  | .mallocMask n frame => .fill n frame
  | .mallocDone frame => .hand frame
  | .completeFind frame => .hand frame
  | .cancelFind frame => .hand frame
  | .cancelFree n => .cancel n
  | .cancelClear n => .clear n
  | .releaseFree n => .unlink n
  | .releaseClear n => .drop n
  | .releaseReset n => .limbo n
  | .releaseAppend n => .limbo n
  | .clearReady => .wipe
  | .clearFree => .wipe
  | _ => .idle

namespace Role

/-- The node `malloc` has reserved. -/
@[simp] def mallocNode : Role → Option NodeId
  | .reserve n => some n
  | .fetch n => some n
  | .attach n _ => some n
  | .fill n _ => some n
  | _ => none

/-- The node `malloc` has reserved and whose buffer it knows. -/
@[simp] def firmNode : Role → Option NodeId
  | .fetch n => some n
  | .attach n _ => some n
  | .fill n _ => some n
  | _ => none

/-- The node that must not have a buffer. -/
@[simp] def bareNode : Role → Option NodeId
  | .fetch n => some n
  | .attach n _ => some n
  | _ => none

/-- The node whose buffer `cancel` frees. -/
@[simp] def cancelNode : Role → Option NodeId
  | .cancel n => some n
  | .clear n => some n
  | _ => none

/-- The node `release` has unlinked. -/
@[simp] def looseNode : Role → Option NodeId
  | .unlink n => some n
  | .drop n => some n
  | .limbo n => some n
  | _ => none

/-- The frame a producer has in hand. -/
@[simp] def handFrame : Role → Option FrameAddr
  | .hand f => some f
  | _ => none

/-- The buffer obtained and not yet attached. -/
@[simp] def attachFrame : Role → Option FrameAddr
  | .attach _ answer => answer
  | _ => none

theorem mallocNode_of_firmNode {r : Role} {n : NodeId} (h : r.firmNode = some n) :
    r.mallocNode = some n := by
  cases r <;> simp_all

theorem firmNode_of_bareNode {r : Role} {n : NodeId} (h : r.bareNode = some n) :
    r.firmNode = some n := by
  cases r <;> simp_all

end Role

/-- The address is that of a live buffer. -/
def Live (q : FrameQueueV2) (f : FrameAddr) : Prop := ∃ b ∈ q.live, b.addr = f

/-- The node points to a buffer that has just been freed.  The node of a `release` counts if
`strict`: it is unlinked, so that no other call will find it. -/
@[simp] def Role.Dangles (strict : Prop) (r : Role) (n : NodeId) : Prop :=
  r = .clear n ∨ strict ∧ r = .drop n

/-- What a role relies on. -/
structure Role.Sound (strict : Prop) (q : FrameQueueV2) (r : Role) : Prop where
  malloc : ∀ n, r.mallocNode = some n → n ∈ q.freeList.nodes ∧ (q.node n).inUse = true
  cancel : ∀ n, r.cancelNode = some n → n ∈ q.freeList.nodes
  loose : ∀ n, r.looseNode = some n → n ∉ q.listed
  hand : ∀ f, r.handFrame = some f →
    ∃ n ∈ q.freeList.nodes, (q.node n).inUse = true ∧ (q.node n).frame = some f
  bare : ∀ n, r.bareNode = some n → (q.node n).frame = none
  full : ∀ n f, r = .fill n f → (q.node n).frame = some f
  attach : ∀ f, r.attachFrame = some f → Live q f
  dead : ∀ n f, r.Dangles strict n → (q.node n).frame = some f → ¬Live q f
  wipe : r ≠ .wipe

/-- The role `r` stays out of the way of `s`. -/
structure Role.Off (q : FrameQueueV2) (r s : Role) : Prop where
  malloc : ∀ n, r.mallocNode = some n → s.mallocNode ≠ some n
  cancel : ∀ n, r.cancelNode = some n → s.cancelNode ≠ some n ∧ s.firmNode ≠ some n
  loose : ∀ n, r.looseNode = some n → s.looseNode ≠ some n
  attach : ∀ f, r.attachFrame = some f → s.attachFrame ≠ some f
  hand : ∀ f, r.handFrame = some f → s.handFrame ≠ some f ∧
    ∀ n, s.mallocNode = some n ∨ s.cancelNode = some n → (q.node n).frame ≠ some f

/-- Two roles stay out of each other's way. -/
def Role.Apart (q : FrameQueueV2) (r s : Role) : Prop := r.Off q s ∧ s.Off q r

/-- **The ownership invariant.** The roles are sound and apart.  Except for the nodes whose buffer
has just been freed, no two nodes have the same buffer, and buffers are live; a buffer not yet
attached belongs to no node. -/
structure Own (strict : Prop) (format : ImageFormat) (created : List NodeId) (q : FrameQueueV2)
    (roles : List Role) : Prop where
  sound : ∀ r ∈ roles, r.Sound strict q
  apart : roles.Pairwise (Role.Apart q)
  inj : ∀ n ∈ created, ∀ m ∈ created, ∀ f, (q.node n).frame = some f →
    (q.node m).frame = some f → .drop n ∉ roles → .drop m ∉ roles → n = m
  live : ∀ n ∈ created, ∀ f, (q.node n).frame = some f → .drop n ∉ roles → .clear n ∉ roles →
    Live q f
  fresh : ∀ r ∈ roles, ∀ f, r.attachFrame = some f → ∀ n ∈ created, .drop n ∉ roles →
    (q.node n).frame ≠ some f
  kind : ∀ b ∈ q.live, bufferKind format = some b.kind

variable {strict : Prop} {format : ImageFormat} {created : List NodeId} {q q' : FrameQueueV2}
  {r r' x y : Role} {rest roles roles' : List Role} {n m : NodeId} {f g : FrameAddr}

theorem Role.Apart.symm (h : r.Apart q x) : x.Apart q r := ⟨h.2, h.1⟩

/-- The order of the roles does not matter. -/
theorem Own.perm (h : Own strict format created q roles) (hp : roles.Perm roles') :
    Own strict format created q roles' where
  sound r hr := h.sound r (hp.mem_iff.mpr hr)
  apart := (hp.pairwise_iff Role.Apart.symm).mp h.apart
  inj n hn m hm f hnf hmf hnd hmd :=
    h.inj n hn m hm f hnf hmf (mt hp.mem_iff.mp hnd) (mt hp.mem_iff.mp hmd)
  live n hn f hnf hnd hnc := h.live n hn f hnf (mt hp.mem_iff.mp hnd) (mt hp.mem_iff.mp hnc)
  fresh r hr f hrf n hn hnd := h.fresh r (hp.mem_iff.mpr hr) f hrf n hn (mt hp.mem_iff.mp hnd)
  kind := h.kind

theorem Own.apart_head (h : Own strict format created q (r :: rest)) (hx : x ∈ rest) :
    r.Apart q x :=
  (List.pairwise_cons.mp h.apart).1 x hx

/-- A node of `free_list` is not one whose unlinked buffer has just been freed. -/
theorem Own.drop_notMem (h : Own strict format created q roles) (hn : n ∈ q.listed) :
    .drop n ∉ roles := fun hd => (h.sound _ hd).loose n rfl hn

/-- The node of a frame in hand is the only linked node with this buffer. -/
theorem Own.eq_of_frame (h : Own strict format created q roles) (hsub : ∀ n ∈ q.listed, n ∈ created)
    (hn : n ∈ q.listed) (hm : m ∈ q.listed) (hnf : (q.node n).frame = some f)
    (hmf : (q.node m).frame = some f) : n = m :=
  h.inj n (hsub n hn) m (hsub m hm) f hnf hmf (h.drop_notMem hn) (h.drop_notMem hm)

/-! ## Replacing one role -/

/-- A role stays sound when the nodes it touches keep their places, reservations and buffers. -/
theorem Role.Sound.transfer (h : x.Sound strict q)
    (hmalloc : ∀ n, x.mallocNode = some n → n ∈ q'.freeList.nodes ∧ (q'.node n).inUse = true)
    (hcancel : ∀ n, x.cancelNode = some n → n ∈ q'.freeList.nodes)
    (hframe : ∀ n, x.firmNode = some n ∨ x.cancelNode = some n ∨ x.looseNode = some n →
      (q'.node n).frame = (q.node n).frame)
    (hhand : ∀ f n, x.handFrame = some f → n ∈ q.freeList.nodes → (q.node n).inUse = true →
      (q.node n).frame = some f →
      n ∈ q'.freeList.nodes ∧ (q'.node n).inUse = true ∧ (q'.node n).frame = some f)
    (hloose : ∀ n, x.looseNode = some n → n ∉ q'.listed)
    (hattach : ∀ f, x.attachFrame = some f → Live q f → Live q' f)
    (hdead : ∀ n f, x.Dangles strict n → (q.node n).frame = some f → Live q' f → Live q f) :
    x.Sound strict q' where
  malloc := hmalloc
  cancel := hcancel
  loose := hloose
  hand f hf := by
    obtain ⟨n, hn, hu, hnf⟩ := h.hand f hf
    exact ⟨n, hhand f n hf hn hu hnf⟩
  bare n hn := by
    rw [hframe n (.inl (Role.firmNode_of_bareNode hn))]
    exact h.bare n hn
  full n f hx := by
    rw [hframe n (.inl (by simp [hx]))]
    exact h.full n f hx
  attach f hf := hattach f hf (h.attach f hf)
  dead n f hx hnf hlive := by
    have hn : x.cancelNode = some n ∨ x.looseNode = some n := by
      rcases hx with rfl | ⟨-, rfl⟩ <;> simp
    rw [hframe n (.inr hn)] at hnf
    exact h.dead n f hx hnf (hdead n f hx hnf hlive)
  wipe := h.wipe

/-- Two roles stay apart when no node they touch gets a buffer they have in hand. -/
theorem Role.Apart.transfer (h : x.Apart q y)
    (hframe : ∀ n f, x.mallocNode = some n ∨ x.cancelNode = some n ∨ y.mallocNode = some n ∨
      y.cancelNode = some n → x.handFrame = some f ∨ y.handFrame = some f →
      (q'.node n).frame = some f → (q.node n).frame = some f) : x.Apart q' y := by
  constructor
  · refine ⟨h.1.malloc, h.1.cancel, h.1.loose, h.1.attach, fun f hf => ⟨(h.1.hand f hf).1, ?_⟩⟩
    intro n hn hnf
    exact (h.1.hand f hf).2 n hn (hframe n f (by tauto) (.inl hf) hnf)
  · refine ⟨h.2.malloc, h.2.cancel, h.2.loose, h.2.attach, fun f hf => ⟨(h.2.hand f hf).1, ?_⟩⟩
    intro n hn hnf
    exact (h.2.hand f hf).2 n hn (hframe n f (by tauto) (.inr hf) hnf)

/-- The invariant is about the lists, the nodes and the live buffers only. -/
theorem Own.congr (h : Own strict format created q roles) (hfree : q'.freeList = q.freeList)
    (hready : q'.readyList = q.readyList) (hnode : q'.node = q.node) (hlive : q'.live = q.live) :
    Own strict format created q' roles where
  sound r hr := by
    have hs := h.sound r hr
    have hlisted : q'.listed = q.listed := by rw [FrameQueueV2.listed, hfree, hready]; rfl
    refine hs.transfer ?_ ?_ (fun n _ => by rw [hnode]) (fun f n _ hn hu hnf => ?_) ?_
      (fun f _ hl => ?_) (fun n f _ _ hl => ?_)
    · rw [hfree, hnode]
      exact hs.malloc
    · rw [hfree]
      exact hs.cancel
    · rw [hfree, hnode]
      exact ⟨hn, hu, hnf⟩
    · rw [hlisted]
      exact hs.loose
    · rwa [Live, hlive]
    · rwa [Live, hlive] at hl
  apart := h.apart.imp fun hxy => hxy.transfer fun n f _ _ hnf => by rwa [hnode] at hnf
  inj := by
    rw [hnode]
    exact h.inj
  live n hn f hnf hnd hnc := by
    rw [hnode] at hnf
    rw [Live, hlive]
    exact h.live n hn f hnf hnd hnc
  fresh := by
    rw [hnode]
    exact h.fresh
  kind := by
    rw [hlive]
    exact h.kind

/-- A role that is not there after one is replaced was not there before. -/
theorem notMem_replace (hr : r ≠ y) (h : y ∉ r' :: rest) : y ∉ r :: rest := by
  intro hmem
  rcases List.mem_cons.mp hmem with rfl | hmem
  · exact hr rfl
  · exact h (List.mem_cons_of_mem _ hmem)

/-- **Replacing one role.** -/
theorem Own.update (h : Own strict format created q (r :: rest)) (hsound : r'.Sound strict q')
    (hrest : ∀ x ∈ rest, x.Sound strict q → r.Apart q x → x.Sound strict q')
    (hnew : ∀ x ∈ rest, x.Sound strict q → r.Apart q x → r'.Apart q' x)
    (hapart : ∀ x ∈ rest, ∀ y ∈ rest, r.Apart q x → r.Apart q y → x.Apart q y → x.Apart q' y)
    (hinj : ∀ n ∈ created, ∀ m ∈ created, ∀ f, (q'.node n).frame = some f →
      (q'.node m).frame = some f → .drop n ∉ r' :: rest → .drop m ∉ r' :: rest → n = m)
    (hlive : ∀ n ∈ created, ∀ f, (q'.node n).frame = some f → .drop n ∉ r' :: rest →
      .clear n ∉ r' :: rest → Live q' f)
    (hfresh : ∀ x ∈ r' :: rest, ∀ f, x.attachFrame = some f → ∀ n ∈ created,
      .drop n ∉ r' :: rest → (q'.node n).frame ≠ some f)
    (hkind : ∀ b ∈ q'.live, bufferKind format = some b.kind) :
    Own strict format created q' (r' :: rest) where
  sound x hx := by
    rcases List.mem_cons.mp hx with rfl | hx
    · exact hsound
    · exact hrest x hx (h.sound x (List.mem_cons_of_mem _ hx)) (h.apart_head hx)
  apart := by
    refine List.pairwise_cons.mpr ⟨fun x hx => ?_, ?_⟩
    · exact hnew x hx (h.sound x (List.mem_cons_of_mem _ hx)) (h.apart_head hx)
    · exact (List.pairwise_cons.mp h.apart).2.imp_of_mem fun {x y} hx hy hxy =>
        hapart x hx y hy (h.apart_head hx) (h.apart_head hy) hxy
  inj := hinj
  live := hlive
  fresh := hfresh
  kind := hkind

/-- A piece that changes no buffer, and keeps the places and reservations of the free nodes, the
node `k` excepted. -/
structure Quiet (k : Option NodeId) (q q' : FrameQueueV2) : Prop where
  free : ∀ n ∈ q.freeList.nodes, k ≠ some n →
    n ∈ q'.freeList.nodes ∧ ((q.node n).inUse = true → (q'.node n).inUse = true)
  frame : ∀ n, (q'.node n).frame = (q.node n).frame
  live : q'.live = q.live

/-- The role relies on nothing about the node. -/
def Role.Ignores (q : FrameQueueV2) (x : Role) (n : NodeId) : Prop :=
  x.mallocNode ≠ some n ∧ x.cancelNode ≠ some n ∧
    ∀ f, x.handFrame = some f → (q.node n).frame ≠ some f

theorem Quiet.live_iff {k : Option NodeId} (h : Quiet k q q') : Live q' f ↔ Live q f := by
  rw [Live, Live, h.live]

/-- **Quiet pieces.** A role is replaced by one that is sound and apart from the others. -/
theorem Own.quiet {k : Option NodeId} (h : Own strict format created q (r :: rest))
    (hq : Quiet k q q') (hsound : r'.Sound strict q')
    (hnew : ∀ x ∈ rest, x.Sound strict q → r.Apart q x → r'.Apart q x)
    (hignore : ∀ n, k = some n → ∀ x ∈ rest, x.Sound strict q → r.Apart q x → x.Ignores q n)
    (hloose : ∀ x ∈ rest, r.Apart q x → ∀ n, x.looseNode = some n → n ∈ q'.listed → n ∈ q.listed)
    (hdrop : ∀ n, r ≠ .drop n) (hclear : ∀ n, r ≠ .clear n) (hattach : r'.attachFrame = none) :
    Own strict format created q' (r' :: rest) := by
  have hnotDrop : ∀ n, .drop n ∉ r' :: rest → .drop n ∉ r :: rest :=
    fun n => notMem_replace (hdrop n)
  have hnotClear : ∀ n, .clear n ∉ r' :: rest → .clear n ∉ r :: rest :=
    fun n => notMem_replace (hclear n)
  refine h.update hsound ?_ ?_ ?_ ?_ ?_ ?_ (by rw [hq.live]; exact h.kind)
  · intro x hx hxs hrx
    -- The node `k` is none of those the role `x` relies on.
    have hk : ∀ n, (x.mallocNode = some n ∨ x.cancelNode = some n ∨
        ∃ f, x.handFrame = some f ∧ (q.node n).frame = some f) → k ≠ some n := by
      rintro n hn rfl
      obtain ⟨hm, hc, hh⟩ := hignore n rfl x hx hxs hrx
      rcases hn with hn | hn | ⟨f, hf, hnf⟩
      · exact hm hn
      · exact hc hn
      · exact hh f hf hnf
    refine hxs.transfer ?_ ?_ ?_ ?_ ?_ ?_ ?_
    · intro n hn
      obtain ⟨hfree, huse⟩ := hxs.malloc n hn
      obtain ⟨hfree', huse'⟩ := hq.free n hfree (hk n (.inl hn))
      exact ⟨hfree', huse' huse⟩
    · exact fun n hn => (hq.free n (hxs.cancel n hn) (hk n (.inr (.inl hn)))).1
    · exact fun n _ => hq.frame n
    · intro f n hf hn hu hnf
      obtain ⟨hfree', huse'⟩ := hq.free n hn (hk n (.inr (.inr ⟨f, hf, hnf⟩)))
      exact ⟨hfree', huse' hu, (hq.frame n).trans hnf⟩
    · exact fun n hn hmem => hxs.loose n hn (hloose x hx hrx n hn hmem)
    · exact fun f _ hlive => hq.live_iff.mpr hlive
    · exact fun n f _ _ hlive => hq.live_iff.mp hlive
  · intro x hx hxs hrx
    exact (hnew x hx hxs hrx).transfer fun n f _ _ hnf => (hq.frame n).symm.trans hnf
  · intro x _ y _ _ _ hxy
    exact hxy.transfer fun n f _ _ hnf => (hq.frame n).symm.trans hnf
  · intro n hn m hm f hnf hmf hnd hmd
    rw [hq.frame] at hnf hmf
    exact h.inj n hn m hm f hnf hmf (hnotDrop n hnd) (hnotDrop m hmd)
  · intro n hn f hnf hnd hnc
    rw [hq.frame] at hnf
    exact hq.live_iff.mpr (h.live n hn f hnf (hnotDrop n hnd) (hnotClear n hnc))
  · intro x hx f hxf n hn hnd
    rw [hq.frame]
    rcases List.mem_cons.mp hx with rfl | hx
    · rw [hattach] at hxf
      exact absurd hxf (by simp)
    · exact h.fresh x (List.mem_cons_of_mem _ hx) f hxf n hn (hnotDrop n hnd)

/-- **Pieces of the allocator.** Only the set of live buffers changes. -/
theorem Own.relive (h : Own strict format created q (r :: rest)) (hfree : q'.freeList = q.freeList)
    (hready : q'.readyList = q.readyList) (hnode : q'.node = q.node) (hsound : r'.Sound strict q')
    (hnew : ∀ x ∈ rest, x.Sound strict q → r.Apart q x → r'.Apart q x)
    (hattach : ∀ x ∈ rest, r.Apart q x → ∀ f, x.attachFrame = some f → Live q f → Live q' f)
    (hdead : ∀ x ∈ rest, ∀ n f, x.Dangles strict n → (q.node n).frame = some f → Live q' f →
      Live q f)
    (hdrop : ∀ n, r ≠ .drop n) (hclear : ∀ n, r ≠ .clear n)
    (hlive : ∀ n ∈ created, ∀ f, (q.node n).frame = some f → .drop n ∉ r' :: rest →
      .clear n ∉ r' :: rest → Live q f → Live q' f)
    (hfresh : ∀ f, r'.attachFrame = some f → ∀ n ∈ created, .drop n ∉ r' :: rest →
      (q.node n).frame ≠ some f)
    (hkind : ∀ b ∈ q'.live, bufferKind format = some b.kind) :
    Own strict format created q' (r' :: rest) := by
  have hnotDrop : ∀ n, .drop n ∉ r' :: rest → .drop n ∉ r :: rest :=
    fun n => notMem_replace (hdrop n)
  have hlisted : q'.listed = q.listed := by rw [FrameQueueV2.listed, hfree, hready]; rfl
  -- the lists and the nodes are as before, so that only what is said of live buffers is new
  refine h.update hsound ?_ ?_ ?_ ?_ ?_ ?_ hkind
  · intro x hx hxs hrx
    refine hxs.transfer ?_ ?_ ?_ ?_ ?_ ?_ ?_
    · rw [hfree, hnode]
      exact hxs.malloc
    · rw [hfree]
      exact hxs.cancel
    · exact fun n _ => by rw [hnode]
    · intro f n _ hn hu hnf
      rw [hfree, hnode]
      exact ⟨hn, hu, hnf⟩
    · rw [hlisted]
      exact hxs.loose
    · exact hattach x hx hrx
    · exact hdead x hx
  · intro x hx hxs hrx
    exact (hnew x hx hxs hrx).transfer fun n f _ _ hnf => by rwa [hnode] at hnf
  · intro x _ y _ _ _ hxy
    exact hxy.transfer fun n f _ _ hnf => by rwa [hnode] at hnf
  · intro n hn m hm f hnf hmf hnd hmd
    rw [hnode] at hnf hmf
    exact h.inj n hn m hm f hnf hmf (hnotDrop n hnd) (hnotDrop m hmd)
  · intro n hn f hnf hnd hnc
    rw [hnode] at hnf
    exact hlive n hn f hnf hnd hnc
      (h.live n hn f hnf (hnotDrop n hnd) (notMem_replace (hclear n) hnc))
  · intro x hx f hxf n hn hnd
    rw [hnode]
    rcases List.mem_cons.mp hx with rfl | hx
    · exact hfresh f hxf n hn hnd
    · exact h.fresh x (List.mem_cons_of_mem _ hx) f hxf n hn (hnotDrop n hnd)

/-- **Stores to `node->frame`.** Only the buffer of the node `k` changes, on which no other role
relies. -/
theorem Own.store {k : NodeId} {z : FrameNode} (h : Own strict format created q (r :: rest))
    (huse : z.inUse = (q.node k).inUse) (hsound : r'.Sound strict (q.setNode k z))
    (hnew : ∀ x ∈ rest, x.Sound strict q → r.Apart q x → r'.Apart (q.setNode k z) x)
    (hignore : ∀ x ∈ rest, x.Sound strict q → r.Apart q x → (x.firmNode ≠ some k ∧
      x.cancelNode ≠ some k ∧ x.looseNode ≠ some k) ∧ ∀ f, x.handFrame = some f →
        (k ∈ q.freeList.nodes → (q.node k).frame ≠ some f) ∧ z.frame ≠ some f)
    (hinj : ∀ n ∈ created, ∀ m ∈ created, ∀ f, ((q.setNode k z).node n).frame = some f →
      ((q.setNode k z).node m).frame = some f → .drop n ∉ r' :: rest → .drop m ∉ r' :: rest →
      n = m)
    (hlive : ∀ n ∈ created, ∀ f, ((q.setNode k z).node n).frame = some f →
      .drop n ∉ r' :: rest → .clear n ∉ r' :: rest → Live q f)
    (hfresh : ∀ x ∈ r' :: rest, ∀ f, x.attachFrame = some f → ∀ n ∈ created,
      .drop n ∉ r' :: rest → ((q.setNode k z).node n).frame ≠ some f) :
    Own strict format created (q.setNode k z) (r' :: rest) := by
  have hother : ∀ n, n ≠ k → (q.setNode k z).node n = q.node n := fun n hn => by simp [hn]
  have hinUse : ∀ n, ((q.setNode k z).node n).inUse = (q.node n).inUse := by
    intro n
    by_cases hn : n = k
    · subst hn
      simpa using huse
    · rw [hother n hn]
  refine h.update hsound ?_ hnew ?_ hinj hlive hfresh h.kind
  · intro x hx hxs hrx
    obtain ⟨⟨hfirm, hcancel, hloose⟩, hhand⟩ := hignore x hx hxs hrx
    -- A role may have reserved `k` as long as it has not looked at its buffer.
    have hne : ∀ n, x.firmNode = some n ∨ x.cancelNode = some n ∨ x.looseNode = some n → n ≠ k := by
      rintro n (hn | hn | hn) rfl
      · exact hfirm hn
      · exact hcancel hn
      · exact hloose hn
    refine hxs.transfer ?_ hxs.cancel ?_ ?_ hxs.loose (fun f _ hl => hl) (fun n f _ _ hl => hl)
    · intro n hn
      obtain ⟨hfree, hu⟩ := hxs.malloc n hn
      exact ⟨hfree, (hinUse n).trans hu⟩
    · exact fun n hn => by rw [hother n (hne n hn)]
    · intro f n hf hn hu hnf
      have hnk : n ≠ k := by
        rintro rfl
        exact (hhand f hf).1 hn hnf
      refine ⟨hn, (hinUse n).trans hu, ?_⟩
      rw [hother n hnk]
      exact hnf
  · intro x hx y hy hrx hry hxy
    apply hxy.transfer
    intro n f _ hf hnf
    by_cases hnk : n = k
    · subst hnk
      have hzf : z.frame = some f := by simpa using hnf
      rcases hf with hf | hf
      · exact absurd hzf ((hignore x hx (h.sound x (List.mem_cons_of_mem _ hx)) hrx).2 f hf).2
      · exact absurd hzf ((hignore y hy (h.sound y (List.mem_cons_of_mem _ hy)) hry).2 f hf).2
    · rwa [hother n hnk] at hnf

end FrameQueue

end YangIpc
