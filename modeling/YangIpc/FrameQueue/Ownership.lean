import YangIpc.FrameQueue.Roles

/-!
# Ownership of buffers by producers

`malloc` and `cancel` change `in_use` under the lock, but allocate, free and store `node->frame`
outside of it.  As long as no `malloc` looks at the buffer of a node on which a `cancel` is still
at work, and the allocator does not return an address to which a node still points, a buffer
belongs to the producer it was returned to: it is live, it is the frame of exactly one node, and
nobody else owns it.  Without the first condition this fails.

## Main results

* `Own.exec`: every allowed piece keeps the ownership invariant
-/

namespace YangIpc

namespace FrameQueue

open Transition

variable {strict : Prop} {format : ImageFormat} {created : List NodeId} {q q' : FrameQueueV2}
  {r r' x y : Role} {rest roles : List Role} {n m : NodeId} {f g : FrameAddr} {env : Env}

/-! ## Sound roles -/

theorem sound_idle : Role.Sound strict q .idle := by
  constructor <;> simp

theorem sound_reserve (hn : n ∈ q.freeList.nodes) (hu : (q.node n).inUse = true) :
    Role.Sound strict q (.reserve n) := by
  constructor <;> simp [hn, hu]

theorem sound_fetch (hn : n ∈ q.freeList.nodes) (hu : (q.node n).inUse = true)
    (hf : (q.node n).frame = none) : Role.Sound strict q (.fetch n) := by
  constructor <;> simp [hn, hu, hf]

theorem sound_attach {answer : Option FrameAddr} (hn : n ∈ q.freeList.nodes)
    (hu : (q.node n).inUse = true) (hf : (q.node n).frame = none)
    (ha : ∀ f, answer = some f → Live q f) : Role.Sound strict q (.attach n answer) := by
  constructor <;> simp [hn, hu, hf]
  exact ha

theorem sound_fill (hn : n ∈ q.freeList.nodes) (hu : (q.node n).inUse = true)
    (hf : (q.node n).frame = some f) : Role.Sound strict q (.fill n f) := by
  constructor <;> simp [hn, hu, hf]

theorem sound_hand (hn : n ∈ q.freeList.nodes) (hu : (q.node n).inUse = true)
    (hf : (q.node n).frame = some f) : Role.Sound strict q (.hand f) := by
  constructor <;> simp
  exact ⟨n, hn, hu, hf⟩

theorem sound_cancel (hn : n ∈ q.freeList.nodes) : Role.Sound strict q (.cancel n) := by
  constructor <;> simp [hn]

theorem sound_clear (hn : n ∈ q.freeList.nodes)
    (hf : ∀ f, (q.node n).frame = some f → ¬Live q f) : Role.Sound strict q (.clear n) := by
  constructor <;> simp [hn]
  rintro m g rfl
  exact hf g

theorem sound_loose (hr : r = .unlink n ∨ r = .limbo n) (hn : n ∉ q.listed) :
    r.Sound strict q := by
  rcases hr with rfl | rfl <;> constructor <;> simp [hn]

theorem sound_drop (hn : n ∉ q.listed) (hf : ∀ f, (q.node n).frame = some f → ¬Live q f) :
    Role.Sound strict q (.drop n) := by
  constructor <;> simp [hn]
  rintro m g - rfl
  exact hf g

/-! ## Roles apart -/

theorem apart_idle : Role.Apart q .idle x := by
  constructor <;> constructor <;> simp

theorem apart_reserve (hmalloc : x.mallocNode ≠ some n)
    (hhand : ∀ f, x.handFrame = some f → (q.node n).frame ≠ some f) :
    Role.Apart q (.reserve n) x := by
  constructor <;> constructor <;> simp
  · exact hmalloc
  · exact fun m hm e => hmalloc (e ▸ hm)
  · exact hhand

theorem apart_hand (hhand : x.handFrame ≠ some f)
    (hnode : ∀ m, x.mallocNode = some m ∨ x.cancelNode = some m → (q.node m).frame ≠ some f) :
    Role.Apart q (.hand f) x := by
  constructor <;> constructor <;> simp
  · exact ⟨hhand, hnode⟩
  · exact fun g hg e => hhand (e ▸ hg)

theorem apart_cancel (hcancel : x.cancelNode ≠ some n) (hmalloc : x.mallocNode ≠ some n)
    (hhand : ∀ f, x.handFrame = some f → (q.node n).frame ≠ some f) :
    Role.Apart q (.cancel n) x := by
  constructor <;> constructor <;> simp
  · exact ⟨hcancel, fun h => hmalloc (Role.mallocNode_of_firmNode h)⟩
  · exact fun m hm e => hcancel (e ▸ hm)
  · exact hhand

theorem apart_unlink (hloose : x.looseNode ≠ some n) : Role.Apart q (.unlink n) x := by
  constructor <;> constructor <;> simp
  · exact hloose
  · exact fun m hm e => hloose (e ▸ hm)

/-- A role keeps out of the way when it keeps its nodes. -/
theorem Role.Apart.congr (h : r.Apart q x) (hmalloc : r'.mallocNode = r.mallocNode)
    (hcancel : r'.cancelNode = r.cancelNode) (hloose : r'.looseNode = r.looseNode)
    (hhand : r'.handFrame = r.handFrame)
    (hfirm : ∀ n, r'.firmNode = some n → x.cancelNode ≠ some n)
    (hattach : ∀ f, r'.attachFrame = some f → x.attachFrame ≠ some f) : r'.Apart q x where
  left := by
    refine ⟨?_, ?_, ?_, hattach, ?_⟩
    · rw [hmalloc]
      exact h.1.malloc
    · rw [hcancel]
      exact h.1.cancel
    · rw [hloose]
      exact h.1.loose
    · rw [hhand]
      exact h.1.hand
  right := by
    refine ⟨?_, ?_, ?_, ?_, ?_⟩
    · rw [hmalloc]
      exact h.2.malloc
    · intro n hn
      rw [hcancel]
      exact ⟨(h.2.cancel n hn).1, fun hr => hfirm n hr hn⟩
    · rw [hloose]
      exact h.2.loose
    · exact fun f hf hr => hattach f hr hf
    · rw [hmalloc, hcancel, hhand]
      exact h.2.hand

/-! ## Calls that begin or return -/

theorem Own.cons_idle (h : Own strict format created q roles) :
    Own strict format created q (.idle :: roles) where
  sound r hr := by
    rcases List.mem_cons.mp hr with rfl | hr
    · exact sound_idle
    · exact h.sound r hr
  apart := List.pairwise_cons.mpr ⟨fun _ _ => apart_idle, h.apart⟩
  inj n hn m hm f hnf hmf hnd hmd :=
    h.inj n hn m hm f hnf hmf (fun hr => hnd (List.mem_cons_of_mem _ hr))
      (fun hr => hmd (List.mem_cons_of_mem _ hr))
  live n hn f hnf hnd hnc := h.live n hn f hnf (fun hr => hnd (List.mem_cons_of_mem _ hr))
    (fun hr => hnc (List.mem_cons_of_mem _ hr))
  fresh r hr f hrf n hn hnd := by
    rcases List.mem_cons.mp hr with rfl | hr
    · simp at hrf
    · exact h.fresh r hr f hrf n hn fun hr' => hnd (List.mem_cons_of_mem _ hr')
  kind := h.kind

theorem Own.of_cons_idle (h : Own strict format created q (.idle :: roles)) :
    Own strict format created q roles where
  sound r hr := h.sound r (List.mem_cons_of_mem _ hr)
  apart := (List.pairwise_cons.mp h.apart).2
  inj n hn m hm f hnf hmf hnd hmd :=
    h.inj n hn m hm f hnf hmf (by simpa using hnd) (by simpa using hmd)
  live n hn f hnf hnd hnc := h.live n hn f hnf (by simpa using hnd) (by simpa using hnc)
  fresh r hr f hrf n hn hnd :=
    h.fresh r (List.mem_cons_of_mem _ hr) f hrf n hn (by simpa using hnd)
  kind := h.kind

/-! ## The pieces of `malloc` -/

theorem Own.mallocSearch (h : Own strict format created q (.idle :: rest))
    (hsub : ∀ n ∈ q.listed, n ∈ created) (hnd : q.listed.Nodup)
    (he : FrameQueue.mallocSearch format q = (q', some n)) :
    Own strict format created q' (.reserve n :: rest) := by
  -- the node has no producer, so no role touches it
  have hnew : n ∈ q.listed → (n ∈ q.freeList.nodes → (q.node n).inUse = false) →
      ∀ x ∈ rest, x.Sound strict q → Role.Apart q .idle x → Role.Apart q (.reserve n) x := by
    intro hl hidle x _ hx _
    refine apart_reserve (fun hm => ?_) fun f hf hnf => ?_
    · obtain ⟨hfree, hu⟩ := hx.malloc n hm
      rw [hidle hfree] at hu
      exact absurd hu (by simp)
    · obtain ⟨m, hm, hu, hmf⟩ := hx.hand f hf
      obtain rfl := h.eq_of_frame hsub hl (mem_listed_of_free hm) hnf hmf
      rw [hidle hm] at hu
      exact absurd hu (by simp)
  rcases mallocSearch_cases format q with ⟨m, hm, hu, he'⟩ | ⟨-, -, l₁, m, l₂, hl, -, -, he'⟩ |
    ⟨-, -, he'⟩ <;> rw [he'] at he
  -- a free node: only its reservation changes
  · obtain ⟨rfl, hmn⟩ := Prod.mk.inj he
    obtain rfl := Option.some.inj hmn
    refine h.quiet (k := none) ⟨fun n hn _ => ⟨hn, fun hu' => ?_⟩, frame_update rfl, rfl⟩
      (sound_reserve hm (by simp [setInUse])) (hnew (mem_listed_of_free hm) fun _ => hu)
      (by simp) (fun _ _ _ _ _ hn => hn) (by simp) (by simp) rfl
    by_cases hnm : n = m
    · subst hnm
      simp [setInUse]
    · simpa [setInUse, hnm] using hu'
  -- a completed node moves to `free_list` as well
  · obtain ⟨rfl, hmn⟩ := Prod.mk.inj he
    obtain rfl := Option.some.inj hmn
    have hr : m ∈ q.readyList.nodes := by simp [hl]
    have hnotFree : m ∉ q.freeList.nodes := fun hf =>
      (List.nodup_append.mp hnd).2.2 m hf m hr rfl
    refine h.quiet (k := none) ⟨fun n hn _ => ⟨List.mem_cons_of_mem _ hn, fun hu' => ?_⟩,
      frame_update rfl, rfl⟩ (sound_reserve List.mem_cons_self (by simp))
      (hnew (mem_listed_of_ready hr) fun hf => absurd hf hnotFree)
      (by simp) (fun _ _ _ n _ hn => (Lists.perm_move_head hr).mem_iff.mp hn) (by simp) (by simp)
      rfl
    have hnm : n ≠ m := by
      rintro rfl
      exact hnotFree hn
    simpa [hnm] using hu'
  · simp at he

/-- Pieces that change nothing of a node but its counters and masks are quiet. -/
theorem quiet_setNode {z : FrameNode} (hf : z.frame = (q.node n).frame)
    (hu : z.inUse = (q.node n).inUse) : Quiet none q (q.setNode n z) where
  free m hm _ := by
    refine ⟨hm, fun hu' => ?_⟩
    by_cases hmn : m = n
    · subst hmn
      simpa [hu] using hu'
    · simpa [hmn] using hu'
  frame := frame_update hf
  live := rfl

theorem Quiet.refl (q : FrameQueueV2) : Quiet none q q :=
  ⟨fun _ hn _ => ⟨hn, id⟩, fun _ => rfl, rfl⟩

theorem Quiet.trans {q'' : FrameQueueV2} (h : Quiet none q q') (h' : Quiet none q' q'') :
    Quiet none q q'' where
  free n hn _ := by
    obtain ⟨hn', hu⟩ := h.free n hn (by simp)
    obtain ⟨hn'', hu'⟩ := h'.free n hn' (by simp)
    exact ⟨hn'', fun hn => hu' (hu hn)⟩
  frame n := (h'.frame n).trans (h.frame n)
  live := h'.live.trans h.live

theorem Own.mallocFrame (h : Own strict format created q (.reserve n :: rest))
    (hcancel : ∀ x ∈ rest, x.cancelNode ≠ some n)
    (hr : r' = .fetch n ∧ (q.node n).frame = none ∨ ∃ f, r' = .fill n f ∧
      (q.node n).frame = some f) : Own strict format created q (r' :: rest) := by
  obtain ⟨hn, hu⟩ := (h.sound _ List.mem_cons_self).malloc n rfl
  rcases hr with ⟨rfl, hf⟩ | ⟨f, rfl, hf⟩
  · refine h.quiet (.refl q) (sound_fetch hn hu hf) (fun x hx _ hrx => ?_) (by simp)
      (fun _ _ _ _ _ hn => hn) (by simp) (by simp) rfl
    exact hrx.congr rfl rfl rfl rfl (by rintro m ⟨⟩; exact hcancel x hx) (by simp)
  · refine h.quiet (.refl q) (sound_fill hn hu hf) (fun x hx _ hrx => ?_) (by simp)
      (fun _ _ _ _ _ hn => hn) (by simp) (by simp) rfl
    exact hrx.congr rfl rfl rfl rfl (by rintro m ⟨⟩; exact hcancel x hx) (by simp)

/-- The allocator gives a buffer that is neither live nor still pointed to. -/
theorem Own.mallocAlloc (h : Own strict format created q (.fetch n :: rest)) {size : ℕ}
    {answer : Option FrameAddr} (hfresh : ∀ f, answer = some f → ¬Live q f)
    (hdangle : ∀ f, answer = some f → ∀ x ∈ rest, ∀ m, x.Dangles strict m →
      (q.node m).frame ≠ some f) :
    Own strict format created (FrameQueue.mallocAlloc format size answer q).1
      (.attach n (FrameQueue.mallocAlloc format size answer q).2 :: rest) := by
  have hs := h.sound _ List.mem_cons_self
  obtain ⟨hn, hu⟩ := hs.malloc n rfl
  have hf : (q.node n).frame = none := hs.bare n rfl
  have hfirm : ∀ x ∈ rest, Role.Apart q (.fetch n) x → x.cancelNode ≠ some n :=
    fun x _ hrx hx => (hrx.2.cancel n hx).2 rfl
  unfold FrameQueue.mallocAlloc
  split
  · rename_i kind f hk
    have hgrow : ∀ g, Live (q.frameBufferMalloc kind size f) g ↔ g = f ∨ Live q g := by
      intro g
      simp only [Live, FrameQueueV2.frameBufferMalloc_live, List.mem_cons, exists_eq_or_imp]
      exact or_congr eq_comm Iff.rfl
    have hnotLive := hfresh f rfl
    -- The address is new: no role holds it, and no node points to it.
    refine h.relive rfl rfl rfl (sound_attach hn hu hf ?_) (fun x hx hxs hrx => ?_)
      (fun x _ _ g _ hg => (hgrow g).mpr (.inr hg)) (fun x hx m g hm hmg hg => ?_) (by simp)
      (by simp) (fun m _ g _ _ _ hg => (hgrow g).mpr (.inr hg)) (fun g hg m hm hmd hmg => ?_)
      (fun b hb => ?_)
    · rintro g ⟨⟩
      exact (hgrow f).mpr (.inl rfl)
    · refine hrx.congr rfl rfl rfl rfl (by rintro m ⟨⟩; exact hfirm x hx hrx) ?_
      rintro g ⟨⟩ hxf
      exact hnotLive (hxs.attach f hxf)
    · rcases (hgrow g).mp hg with rfl | hg
      · exact absurd hmg (hdangle g rfl x hx m hm)
      · exact hg
    · obtain rfl : f = g := by simpa using hg
      by_cases hmc : .clear m ∈ rest
      · exact hdangle f rfl _ hmc m (.inl rfl) hmg
      · exact hnotLive (h.live m hm f hmg (by simpa using hmd) (by simpa using hmc))
    · rcases List.mem_cons.mp hb with rfl | hb
      · exact hk
      · exact h.kind b hb
  -- no memory: nothing changes
  · refine h.quiet (.refl q) (sound_attach hn hu hf (by simp)) (fun x hx _ hrx => ?_) (by simp)
      (fun _ _ _ _ _ hn => hn) (by simp) (by simp) rfl
    exact hrx.congr rfl rfl rfl rfl (by rintro m ⟨⟩; exact hfirm x hx hrx) (by simp)

theorem Own.mallocAttach_none (h : Own strict format created q (.attach n none :: rest)) :
    Own strict format created (setInUse q n false) (.idle :: rest) := by
  have hf : (q.node n).frame = none := (h.sound _ List.mem_cons_self).bare n rfl
  refine h.quiet (k := some n) ⟨fun m hm hmn => ⟨hm, fun hu => ?_⟩, frame_update rfl, rfl⟩
    sound_idle (fun _ _ _ _ => apart_idle) ?_ (fun _ _ _ _ _ hn => hn) (by simp) (by simp) rfl
  · have hne : m ≠ n := fun e => hmn (congrArg some e.symm)
    simpa [setInUse, hne] using hu
  · rintro m ⟨⟩ x _ _ hrx
    refine ⟨hrx.1.malloc n rfl, fun hx => (hrx.2.cancel n hx).2 rfl, fun g _ hg => ?_⟩
    rw [hf] at hg
    exact absurd hg (by simp)

/-- A buffer the node gets is the buffer of no other node. -/
theorem Own.mallocAttach_some (h : Own strict format created q (.attach n (some f) :: rest))
    (hsub : ∀ n ∈ q.listed, n ∈ created) :
    Own strict format created (q.setNode n { q.node n with frame := some f })
      (.fill n f :: rest) := by
  have hs := h.sound _ List.mem_cons_self
  obtain ⟨hn, hu⟩ := hs.malloc n rfl
  have hnone : (q.node n).frame = none := hs.bare n rfl
  have hlive : Live q f := hs.attach f rfl
  have hfresh := h.fresh _ List.mem_cons_self f rfl
  have hother : ∀ m, m ≠ n → ((q.setNode n { q.node n with frame := some f }).node m) = q.node m :=
    fun m hm => by simp [hm]
  -- A producer that has this frame in hand would have it on a linked node.
  have hhand : ∀ x ∈ rest, x.Sound strict q → ∀ g, x.handFrame = some g → g ≠ f := by
    rintro x _ hx g hg rfl
    obtain ⟨m, hm, -, hmg⟩ := hx.hand g hg
    have hml := mem_listed_of_free hm
    exact hfresh m (hsub m hml) (h.drop_notMem hml) hmg
  have hnotDrop : ∀ m, .drop m ∉ Role.fill n f :: rest → .drop m ∉ .attach n (some f) :: rest :=
    fun m hm => by simpa using hm
  refine h.store rfl (sound_fill hn (by simpa using hu) (by simp)) (fun x hx hxs hrx => ?_)
    (fun x hx hxs hrx => ?_) ?_ ?_ ?_
  · have hapart : Role.Apart q (.fill n f) x := hrx.congr rfl rfl rfl rfl
      (by rintro m ⟨⟩; exact fun hc => (hrx.2.cancel n hc).2 rfl) (by simp)
    apply hapart.transfer
    intro m g hm hg hmg
    by_cases hmn : m = n
    · subst hmn
      have hfg : f = g := by simpa using hmg
      rcases hg with hg | hg
      · simp at hg
      · exact absurd hfg.symm (hhand x hx hxs g hg)
    · rwa [hother m hmn] at hmg
  · refine ⟨⟨fun hfirm => hrx.1.malloc n rfl (Role.mallocNode_of_firmNode hfirm),
      fun hc => (hrx.2.cancel n hc).2 rfl, fun hl => hxs.loose n hl (mem_listed_of_free hn)⟩,
      fun g hg => ⟨by simp [hnone], ?_⟩⟩
    simpa using (hhand x hx hxs g hg).symm
  -- two nodes with one buffer: the new buffer is on no other node
  · intro m hm k hk g hmg hkg hmd hkd
    by_cases hmn : m = n <;> by_cases hkn : k = n
    · rw [hmn, hkn]
    · subst hmn
      rw [hother k hkn] at hkg
      obtain rfl : f = g := by simpa using hmg
      exact absurd hkg (hfresh k hk (hnotDrop k hkd))
    · subst hkn
      rw [hother m hmn] at hmg
      obtain rfl : f = g := by simpa using hkg
      exact absurd hmg (hfresh m hm (hnotDrop m hmd))
    · rw [hother m hmn] at hmg
      rw [hother k hkn] at hkg
      exact h.inj m hm k hk g hmg hkg (hnotDrop m hmd) (hnotDrop k hkd)
  · intro m hm g hmg hmd hmc
    by_cases hmn : m = n
    · subst hmn
      obtain rfl : f = g := by simpa using hmg
      exact hlive
    · rw [hother m hmn] at hmg
      exact h.live m hm g hmg (hnotDrop m hmd) (by simpa using hmc)
  -- a second buffer still to be attached is another one
  · intro x hx g hxg m hm hmd hmg
    rcases List.mem_cons.mp hx with rfl | hxr
    · simp at hxg
    · by_cases hmn : m = n
      · subst hmn
        obtain rfl : f = g := by simpa using hmg
        exact (h.apart_head hxr).1.attach f rfl hxg
      · rw [hother m hmn] at hmg
        exact h.fresh x (List.mem_cons_of_mem _ hxr) g hxg m hm (hnotDrop m hmd) hmg

/-- `malloc` resets the node it has reserved. -/
theorem Own.mallocReset (h : Own strict format created q (.fill n f :: rest)) {z : FrameNode}
    (hz : z.frame = (q.node n).frame) (hu : z.inUse = (q.node n).inUse) :
    Own strict format created (q.setNode n z) (.fill n f :: rest) := by
  have hs := h.sound _ List.mem_cons_self
  obtain ⟨hn, hnu⟩ := hs.malloc n rfl
  have hnf : (q.node n).frame = some f := hs.full n f rfl
  exact h.quiet (quiet_setNode hz hu) (sound_fill hn (by simp [hu, hnu]) (by simp [hz, hnf]))
    (fun _ _ _ hrx => hrx) (by simp) (fun _ _ _ _ _ hn => hn) (by simp) (by simp) rfl

/-- `malloc` has the frame in hand. -/
theorem Own.hand_of_fill (h : Own strict format created q (.fill n f :: rest))
    (hsub : ∀ n ∈ q.listed, n ∈ created) : Own strict format created q (.hand f :: rest) := by
  have hs := h.sound _ List.mem_cons_self
  obtain ⟨hn, hu⟩ := hs.malloc n rfl
  have hnf : (q.node n).frame = some f := hs.full n f rfl
  refine h.quiet (.refl q) (sound_hand hn hu hnf) (fun x hx hxs hrx => ?_) (by simp)
    (fun _ _ _ _ _ hn => hn) (by simp) (by simp) rfl
  apply apart_hand (fun hx => (hrx.2.hand f hx).2 n (.inl rfl) hnf)
  intro m hm hmf
  -- a node with this buffer that another role is at work on would be this one
  have hmfree : m ∈ q.freeList.nodes := by
    rcases hm with hm | hm
    · exact (hxs.malloc m hm).1
    · exact hxs.cancel m hm
  obtain rfl := h.eq_of_frame hsub (mem_listed_of_free hn) (mem_listed_of_free hmfree) hnf hmf
  rcases hm with hm | hm
  · exact hrx.1.malloc n rfl hm
  · exact (hrx.2.cancel n hm).2 rfl

/-! ## The pieces of `complete` and `cancel` -/

/-- The node a producer gives back is touched by no other role. -/
theorem ignores_of_hand (hnf : (q.node n).frame = some f) (hrx : Role.Apart q (.hand f) x) :
    x.Ignores q n := by
  refine ⟨fun hm => (hrx.1.hand f rfl).2 n (.inl hm) hnf,
    fun hc => (hrx.1.hand f rfl).2 n (.inr hc) hnf, fun g hg hng => ?_⟩
  obtain rfl : f = g := Option.some.inj (hnf.symm.trans hng)
  exact (hrx.1.hand f rfl).1 hg

theorem Own.completeFind (h : Own strict format created q (.hand f :: rest))
    (hn : n ∈ q.freeList.nodes) (hnf : (q.node n).frame = some f) :
    Own strict format created (publishNode q n) (.idle :: rest) := by
  refine h.quiet (k := some n) ⟨fun m hm hmn => ?_, frame_update rfl, rfl⟩ sound_idle
    (fun _ _ _ _ => apart_idle) ?_ (fun _ _ _ m _ hm => ?_) (by simp) (by simp) rfl
  · have hne : m ≠ n := fun e => hmn (congrArg some e.symm)
    exact ⟨(List.mem_erase_of_ne hne).mpr hm, fun hu => by simpa [hne] using hu⟩
  · rintro m ⟨⟩ x _ _ hrx
    exact ignores_of_hand hnf hrx
  · exact (Lists.perm_move_back hn).mem_iff.mp hm

theorem Own.cancelFind (h : Own strict format created q (.hand f :: rest))
    (hn : n ∈ q.freeList.nodes) (hnf : (q.node n).frame = some f) :
    Own strict format created (setInUse q n false) (.cancel n :: rest) := by
  refine h.quiet (k := some n) ⟨fun m hm hmn => ⟨hm, fun hu => ?_⟩, frame_update rfl, rfl⟩
    (sound_cancel hn) (fun x hx _ hrx => ?_) ?_ (fun _ _ _ _ _ hn => hn) (by simp) (by simp) rfl
  · have hne : m ≠ n := fun e => hmn (congrArg some e.symm)
    simpa [setInUse, hne] using hu
  · obtain ⟨hm, hc, hh⟩ := ignores_of_hand hnf hrx
    exact apart_cancel hc hm hh
  · rintro m ⟨⟩ x _ _ hrx
    exact ignores_of_hand hnf hrx

/-! ## Freeing and forgetting a buffer -/

theorem live_freeFrame (hkind : ∀ b ∈ q.live, bufferKind format = some b.kind)
    (hf : (q.node n).frame = some f) : Live (q.freeFrame format n) g ↔ Live q g ∧ g ≠ f := by
  unfold FrameQueueV2.freeFrame
  rw [hf]
  cases hk : bufferKind format with
  | none =>
    -- without an allocator for the format nothing is live
    have hdead : ¬Live q g := by
      rintro ⟨b, hb, -⟩
      simpa [hk] using hkind b hb
    exact ⟨fun hl => absurd hl hdead, fun hl => absurd hl.1 hdead⟩
  | some kind =>
    simp only [Live, FrameQueueV2.frameBufferFree_live, List.mem_filter, decide_eq_true_eq]
    constructor
    · rintro ⟨b, ⟨hb, hne⟩, rfl⟩
      refine ⟨⟨b, hb, rfl⟩, fun he => hne ⟨?_, he⟩⟩
      exact Option.some.inj ((hkind b hb).symm.trans hk)
    · rintro ⟨⟨b, hb, rfl⟩, hne⟩
      exact ⟨b, ⟨hb, fun he => hne he.2⟩, rfl⟩

/-- `cancel` or `release` frees the buffer of its node, which keeps pointing to it. -/
theorem Own.freeFrame (h : Own strict format created q (r :: rest)) (hn : n ∈ created)
    (hf : (q.node n).frame = some f)
    (hr : r = .cancel n ∧ r' = .clear n ∨ r = .unlink n ∧ r' = .drop n) :
    Own strict format created (q.freeFrame format n) (r' :: rest) := by
  have hlive : ∀ g, Live (q.freeFrame format n) g ↔ Live q g ∧ g ≠ f :=
    fun g => live_freeFrame h.kind hf
  have hs := h.sound r List.mem_cons_self
  -- No second call frees the buffer of this node.
  have hnotDrop : .drop n ∉ r :: rest := by
    rcases hr with ⟨rfl, -⟩ | ⟨rfl, -⟩
    · exact h.drop_notMem (mem_listed_of_free (hs.cancel n rfl))
    · intro hd
      rcases List.mem_cons.mp hd with hd | hd
      · simp at hd
      · exact ((h.apart_head hd).1.loose n rfl) rfl
  -- the exception for the freed node is new, all others were there before
  have hkept : ∀ m, .drop m ∉ r' :: rest → .drop m ∉ r :: rest := by
    rcases hr with ⟨rfl, rfl⟩ | ⟨rfl, rfl⟩ <;> exact fun m hm => by simp_all
  refine h.relive (by simp) (by simp) (by simp) ?_ ?_
    (fun x hx _ g hg hl => ?_) (fun _ _ _ g _ _ hl => ((hlive g).mp hl).1) ?_ ?_
    (fun m hm g hg hmd hmc hl => ?_) ?_ ?_
  · rcases hr with ⟨rfl, rfl⟩ | ⟨rfl, rfl⟩
    · apply sound_clear (by simpa using hs.cancel n rfl)
      intro g hg hl
      rw [FrameQueueV2.freeFrame_node, hf] at hg
      exact ((hlive g).mp hl).2 (Option.some.inj hg).symm
    · apply sound_drop (by simpa [FrameQueueV2.listed] using hs.loose n rfl)
      intro g hg hl
      rw [FrameQueueV2.freeFrame_node, hf] at hg
      exact ((hlive g).mp hl).2 (Option.some.inj hg).symm
  · intro x _ _ hrx
    rcases hr with ⟨rfl, rfl⟩ | ⟨rfl, rfl⟩ <;>
      exact hrx.congr rfl rfl rfl rfl (by simp) (by simp)
  -- a buffer still to be attached is not the one freed, which a node points to
  · refine (hlive g).mpr ⟨hl, ?_⟩
    rintro rfl
    exact h.fresh x (List.mem_cons_of_mem _ hx) g hg n hn hnotDrop hf
  · rcases hr with ⟨rfl, -⟩ | ⟨rfl, -⟩ <;> simp
  · rcases hr with ⟨rfl, -⟩ | ⟨rfl, -⟩ <;> simp
  -- nor is the buffer of another node
  · refine (hlive g).mpr ⟨hl, ?_⟩
    rintro rfl
    obtain rfl := h.inj m hm n hn g hg hf (hkept m hmd) hnotDrop
    rcases hr with ⟨-, rfl⟩ | ⟨-, rfl⟩
    · exact hmc List.mem_cons_self
    · exact hmd List.mem_cons_self
  · rcases hr with ⟨-, rfl⟩ | ⟨-, rfl⟩ <;> simp
  · intro b hb
    apply h.kind b
    unfold FrameQueueV2.freeFrame at hb
    split at hb
    · exact (List.mem_filter.mp hb).1
    · exact hb

/-- `cancel` or `release` forgets the buffer it has freed. -/
theorem Own.clearFrame (h : Own strict format created q (r :: rest))
    (hr : r = .clear n ∧ r' = .idle ∨ r = .drop n ∧ r' = .limbo n) :
    Own strict format created (q.clearFrame n) (r' :: rest) := by
  have hs := h.sound r List.mem_cons_self
  have hnone : ((q.clearFrame n).node n).frame = none := by simp [FrameQueueV2.clearFrame]
  -- a node that still has a buffer is another node, and has kept it
  have hother : ∀ m g, ((q.clearFrame n).node m).frame = some g →
      m ≠ n ∧ (q.node m).frame = some g := by
    intro m g hg
    have hmn : m ≠ n := by
      rintro rfl
      simp [hnone] at hg
    exact ⟨hmn, by simpa [FrameQueueV2.clearFrame, hmn] using hg⟩
  have hkept : ∀ m, m ≠ n → .drop m ∉ r' :: rest → .drop m ∉ r :: rest := by
    rcases hr with ⟨rfl, rfl⟩ | ⟨rfl, rfl⟩ <;> exact fun m hmn hm => by simp_all
  refine h.store rfl ?_ ?_ ?_ ?_ ?_ ?_
  · rcases hr with ⟨rfl, rfl⟩ | ⟨rfl, rfl⟩
    · exact sound_idle
    · exact sound_loose (.inr rfl) (hs.loose n rfl)
  · intro x _ _ hrx
    rcases hr with ⟨rfl, rfl⟩ | ⟨rfl, rfl⟩
    · exact apart_idle
    · have hapart : Role.Apart q (.limbo n) x := hrx.congr rfl rfl rfl rfl (by simp) (by simp)
      exact hapart.transfer fun m g _ _ hg => (hother m g hg).2
  · intro x _ hxs hrx
    rcases hr with ⟨rfl, -⟩ | ⟨rfl, -⟩
    -- the node of a `cancel` has been kept from the others by being at work
    · have hn := mem_listed_of_free (hs.cancel n rfl)
      exact ⟨⟨(hrx.1.cancel n rfl).2, (hrx.1.cancel n rfl).1, fun hl => hxs.loose n hl hn⟩,
        fun g hg => ⟨fun _ => (hrx.2.hand g hg).2 n (.inr rfl), by simp⟩⟩
    -- the node of a `release` is on no list, where the others could find it
    · have hnot : n ∉ q.freeList.nodes := fun hn => hs.loose n rfl (mem_listed_of_free hn)
      exact ⟨⟨fun hx => hnot (hxs.malloc n (Role.mallocNode_of_firmNode hx)).1,
        fun hx => hnot (hxs.cancel n hx), hrx.1.loose n rfl⟩,
        fun g _ => ⟨fun hn => absurd hn hnot, by simp⟩⟩
  · intro m hm k hk g hmg hkg hmd hkd
    obtain ⟨hmn, hmg⟩ := hother m g hmg
    obtain ⟨hkn, hkg⟩ := hother k g hkg
    exact h.inj m hm k hk g hmg hkg (hkept m hmn hmd) (hkept k hkn hkd)
  · intro m hm g hmg hmd hmc
    obtain ⟨hmn, hmg⟩ := hother m g hmg
    apply h.live m hm g hmg (hkept m hmn hmd)
    intro hc
    rcases hr with ⟨rfl, rfl⟩ | ⟨rfl, rfl⟩ <;> simp_all
  · intro x hx g hxg m hm hmd hmg
    obtain ⟨hmn, hmg⟩ := hother m g hmg
    rcases List.mem_cons.mp hx with rfl | hxr
    · rcases hr with ⟨-, rfl⟩ | ⟨-, rfl⟩ <;> simp at hxg
    · exact h.fresh x (List.mem_cons_of_mem _ hxr) g hxg m hm (hkept m hmn hmd) hmg

/-! ## The other pieces -/

/-- A call that returns has no role left. -/
theorem Own.to_idle (h : Own strict format created q (r :: rest)) (hdrop : ∀ n, r ≠ .drop n)
    (hclear : ∀ n, r ≠ .clear n) : Own strict format created q (.idle :: rest) :=
  h.quiet (.refl q) sound_idle (fun _ _ _ _ => apart_idle) (by simp) (fun _ _ _ _ _ hn => hn)
    hdrop hclear rfl

/-- `get_frame` and `release_frame` change the counters and masks of a node only. -/
theorem Own.touch (h : Own strict format created q (.idle :: rest))
    (hfree : q'.freeList = q.freeList) (hready : q'.readyList = q.readyList)
    (hother : ∀ m, m ≠ n → q'.node m = q.node m)
    (hf : (q'.node n).frame = (q.node n).frame) (hu : (q'.node n).inUse = (q.node n).inUse)
    (hlive : q'.live = q.live) : Own strict format created q' (.idle :: rest) := by
  have hmid : Own strict format created (q.setNode n (q'.node n)) (.idle :: rest) :=
    h.quiet (quiet_setNode hf hu) sound_idle (fun _ _ _ _ => apart_idle) (by simp)
      (fun _ _ _ _ _ hn => hn) (by simp) (by simp) rfl
  refine hmid.congr hfree hready (funext fun m => ?_) hlive
  by_cases hmn : m = n
  · subst hmn
    simp
  · simp [hmn, hother m hmn]

/-- `release` unlinks a node for the last consumer. -/
theorem Own.unlink (h : Own strict format created q (.idle :: rest)) (hnd : q.listed.Nodup)
    (hn : n ∈ q.readyList.nodes) :
    Own strict format created (unlinkReady q n) (.unlink n :: rest) := by
  have hlisted := mem_listed_of_ready hn
  have hsub : ∀ m, m ∈ (unlinkReady q n).listed → m ∈ q.listed := by
    intro m hm
    rcases List.mem_append.mp hm with hm | hm
    · exact mem_listed_of_free hm
    · exact mem_listed_of_ready (List.mem_of_mem_erase hm)
  refine h.quiet (k := none) ⟨fun m hm _ => ⟨hm, id⟩, fun _ => rfl, rfl⟩
    (sound_loose (.inl rfl) fun hm => ?_) (fun x _ hxs _ => ?_) (by simp)
    (fun _ _ _ m _ hm => hsub m hm) (by simp) (by simp) rfl
  · rcases List.mem_append.mp hm with hm | hm
    · exact (List.nodup_append.mp hnd).2.2 n hm n hn rfl
    · exact (List.nodup_append.mp hnd).2.1.not_mem_erase hm
  · exact apart_unlink fun hx => hxs.loose n hx hlisted

/-- `release` has no buffer to free. -/
theorem Own.limbo_of_unlink (h : Own strict format created q (.unlink n :: rest)) :
    Own strict format created q (.limbo n :: rest) :=
  h.quiet (.refl q) (sound_loose (.inr rfl) ((h.sound _ List.mem_cons_self).loose n rfl))
    (fun _ _ _ hrx => hrx.congr rfl rfl rfl rfl (by simp) (by simp)) (by simp)
    (fun _ _ _ _ _ hn => hn) (by simp) (by simp) rfl

/-- `release` resets the node it has unlinked. -/
theorem Own.releaseReset (h : Own strict format created q (.limbo n :: rest)) :
    Own strict format created (FrameQueue.releaseReset q n) (.limbo n :: rest) := by
  have hn := (h.sound _ List.mem_cons_self).loose n rfl
  refine h.quiet (k := none) ⟨fun m hm _ => ⟨hm, fun hu => ?_⟩, frame_update rfl, rfl⟩
    (sound_loose (.inr rfl) hn) (fun _ _ _ hrx => hrx) (by simp)
    (fun _ _ _ _ _ hn => hn) (by simp) (by simp) rfl
  have hmn : m ≠ n := by
    rintro rfl
    exact hn (mem_listed_of_free hm)
  simpa [FrameQueue.releaseReset, hmn] using hu

/-- `release` appends the node it has unlinked. -/
theorem Own.releaseAppend (h : Own strict format created q (.limbo n :: rest)) :
    Own strict format created (FrameQueue.releaseAppend q n) (.idle :: rest) := by
  refine h.quiet (k := none) ⟨fun m hm _ => ⟨List.mem_append_left _ hm, id⟩, fun _ => rfl, rfl⟩
    sound_idle (fun _ _ _ _ => apart_idle) (by simp) (fun x _ hrx m hx hm => ?_) (by simp)
    (by simp) rfl
  have hmn : m ≠ n := by
    rintro rfl
    exact hrx.1.loose m rfl hx
  simpa [FrameQueueV2.listed, hmn] using hm

/-- A sweep over `ready_list` keeps every buffer where it is. -/
theorem Own.sweep (h : Own strict format created q (.idle :: rest)) (hnd : q.listed.Nodup)
    {visit : FrameNode → FrameNode × Bool} {stat : ℕ} (hframe : ∀ z, (visit z).1.frame = z.frame)
    (hu : ∀ z, (visit z).1.inUse = z.inUse) :
    Own strict format created (sweepReady visit stat q.readyList.nodes q) (.idle :: rest) := by
  have hready : q.readyList.nodes.Nodup := (List.nodup_append.mp hnd).2.1
  -- one visit: buffers stay, and the free nodes keep their places
  have hnode : ∀ p : FrameQueueV2, p.listed.Perm q.listed → ∀ n ∈ p.readyList.nodes,
      Quiet none p (sweepNode visit stat p n) := by
    intro p hp n hn
    have hmid : Quiet none p (p.setNode n (visit (p.node n)).1) :=
      quiet_setNode (hframe _) (hu _)
    unfold sweepNode
    split
    · have hnotFree : n ∉ p.freeList.nodes := fun hf =>
        (List.nodup_append.mp (hp.nodup_iff.mpr hnd)).2.2 n hf n hn rfl
      refine ⟨fun m hm _ => ⟨List.mem_append_left _ hm, fun hmu => ?_⟩, fun m => ?_, rfl⟩
      · have hmn : m ≠ n := by
          rintro rfl
          exact hnotFree hm
        simpa [hmn] using hmu
      · by_cases hmn : m = n
        · subst hmn
          simp [hframe]
        · simp [hmn]
    · exact hmid
  obtain ⟨hp, hq⟩ := sweepReady_induction visit stat
    (P := fun p => p.listed.Perm q.listed ∧ Quiet none q p)
    (fun p n hp hn => ⟨(sweepNode_perm hn).trans hp.1, hp.2.trans (hnode p hp.1 n hn)⟩)
    q.readyList.nodes q hready (fun _ hm => hm) ⟨.refl _, .refl q⟩
  exact h.quiet hq sound_idle (fun _ _ _ _ => apart_idle) (by simp)
    (fun _ _ _ m _ hm => hp.mem_iff.mp hm) (by simp) (by simp) rfl

/-! ## All pieces -/

/-- The role after a piece: a `malloc` that returns leaves its frame in the hands of the caller. -/
def Pc.after (pc : Pc) : Next → Role
  | .goto pc => pc.role
  | .done (.frame (some frame)) =>
    match pc with
    | .mallocDone _ => .hand frame
    | _ => .idle
  | .done _ => .idle

/-- What keeps a piece of `malloc` from a buffer that is not its own: no `cancel` is at work on
the node it has reserved, and the allocator gives an address that is neither live nor one that
has just been freed and is still pointed to. -/
structure Pc.Undisturbed (strict : Prop) (env : Env) (q : FrameQueueV2) (rest : List Role)
    (pc : Pc) : Prop where
  frame : ∀ size n, pc = .mallocFrame size n → ∀ x ∈ rest, x.cancelNode ≠ some n
  alloc : ∀ size n f, pc = .mallocAlloc size n → env.answer = some f →
    ¬Live q f ∧ ∀ x ∈ rest, ∀ m, x.Dangles strict m → (q.node m).frame ≠ some f

/-- **One piece keeps the ownership invariant.** -/
theorem Own.exec {pc : Pc} (h : Own strict format created q (pc.role :: rest))
    (hsub : ∀ n ∈ q.listed, n ∈ created) (hnd : q.listed.Nodup)
    (hloose : ∀ n, limboNode pc = some n → n ∈ created) (ha : pc.Undisturbed strict env q rest) :
    Own strict format created (pc.exec format env q).1
      (pc.after (pc.exec format env q).2 :: rest) := by
  -- a role changes where a node or its buffer changes hands
  cases pc with
  | mallocSearch size =>
    simp only [Pc.exec]
    split
    · rename_i q' he
      have hq : q' = q := by
        rcases mallocSearch_cases format q with ⟨n, -, -, he'⟩ | ⟨-, -, l₁, n, l₂, -, -, -, he'⟩ |
          ⟨-, -, he'⟩ <;> rw [he'] at he <;> simp_all
      rw [hq]
      exact h
    · rename_i q' n he
      exact h.mallocSearch hsub hnd he
  | mallocFrame size n =>
    cases hf : (q.node n).frame <;> simp only [Pc.exec, hf]
    · exact h.mallocFrame (ha.frame size n rfl) (.inl ⟨rfl, hf⟩)
    · exact h.mallocFrame (ha.frame size n rfl) (.inr ⟨_, rfl, hf⟩)
  | mallocAlloc size n =>
    exact h.mallocAlloc (fun f hf => (ha.alloc size n f rfl hf).1)
      fun f hf => (ha.alloc size n f rfl hf).2
  | mallocAttach n answer =>
    cases answer with
    | none => exact h.mallocAttach_none
    | some f => exact h.mallocAttach_some hsub
  | mallocReset n frame => exact h.mallocReset rfl rfl
  | mallocMask n frame =>
    have hmid : Own strict format created (FrameQueue.mallocMask q n) (.fill n frame :: rest) :=
      h.mallocReset rfl rfl
    exact hmid.hand_of_fill hsub
  | mallocDone frame => exact h.congr rfl rfl rfl rfl
  | completeFind frame =>
    rcases completeFind_cases frame q with ⟨n, hn, -, hnf, he⟩ | ⟨-, he⟩ <;> simp only [Pc.exec, he]
    · exact h.completeFind hn hnf
    · exact h.to_idle (by simp [Pc.role]) (by simp [Pc.role])
  | completePost left => cases left <;> exact h.congr rfl rfl rfl rfl
  | completeDone => exact h.congr rfl rfl rfl rfl
  | cancelFind frame =>
    rcases cancelFind_cases frame q with ⟨n, hn, -, hnf, he⟩ | ⟨-, he⟩ <;> simp only [Pc.exec, he]
    · exact h.cancelFind hn hnf
    · exact h.to_idle (by simp [Pc.role]) (by simp [Pc.role])
  | cancelFree n =>
    cases hf : (q.node n).frame <;> simp only [Pc.exec, hf]
    · exact h.to_idle (by simp [Pc.role]) (by simp [Pc.role])
    · have hn := (h.sound _ List.mem_cons_self).cancel n rfl
      exact h.freeFrame (hsub n (mem_listed_of_free hn)) hf (.inl ⟨rfl, rfl⟩)
  | cancelClear n => exact h.clearFrame (.inl ⟨rfl, rfl⟩)
  | getEnabled id =>
    cases he : FrameQueue.getEnabled id q <;> simp only [Pc.exec, he] <;> exact h
  | getSearch id idx =>
    rcases getSearch_cases id idx q with ⟨l₁, n, l₂, -, -, -, he⟩ | ⟨-, he⟩ <;>
      simp only [Pc.exec, he]
    · cases (q.node n).frame <;>
        exact h.touch (n := n) rfl rfl (fun m hm => by simp [hm]) (by simp) (by simp) rfl
    · exact h
  | getWait id idx =>
    simp only [Pc.exec]
    split
    · exact h
    · split
      · exact h
      · exact h.congr rfl rfl rfl rfl
  | releaseFind idx frame =>
    rcases releaseFind_cases idx frame q with
      ⟨l₁, n, l₂, hl, -, -, ⟨-, -, he⟩ | ⟨-, he⟩⟩ | ⟨-, he⟩ <;> simp only [Pc.exec, he]
    · have hmid : Own strict format created (dropNode idx q n) (.idle :: rest) :=
        h.touch (n := n) rfl rfl (fun m hm => by simp [hm]) (by simp) (by simp) rfl
      exact hmid.unlink hnd (by simp [hl])
    · exact h.touch (n := n) rfl rfl (fun m hm => by simp [hm]) (by simp) (by simp) rfl
    · exact h
  | releaseFree n =>
    cases hf : (q.node n).frame <;> simp only [Pc.exec, hf]
    · exact h.limbo_of_unlink
    · exact h.freeFrame (hloose n rfl) hf (.inr ⟨rfl, rfl⟩)
  | releaseClear n => exact h.clearFrame (.inr ⟨rfl, rfl⟩)
  | releaseReset n => exact h.releaseReset
  | releaseAppend n => exact h.releaseAppend
  | releaseDone => exact h.congr rfl rfl rfl rfl
  | register id idx =>
    have hmid : Own strict format created { q with
        consumers := Function.update q.consumers idx ⟨id, 0, 0, true⟩
        activeConsumers := q.activeConsumers ||| id } (.idle :: rest) := h.congr rfl rfl rfl rfl
    exact hmid.sweep hnd (fun _ => rfl) fun _ => rfl
  | unregister id idx =>
    have hmid : Own strict format created { q with
        activeConsumers := q.activeConsumers &&& ~~~id
        consumers := Function.update q.consumers idx { q.consumers idx with enabled := false } }
        (.idle :: rest) := h.congr rfl rfl rfl rfl
    refine hmid.sweep hnd (fun z => ?_) fun z => ?_ <;>
      · unfold unregisterVisit
        split <;> rfl
  | clearReady => exact absurd rfl (h.sound _ List.mem_cons_self).wipe
  | clearFree => exact absurd rfl (h.sound _ List.mem_cons_self).wipe

end FrameQueue

end YangIpc
