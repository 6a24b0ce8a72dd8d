import YangIpc.Library.Broadcast.System
import YangIpc.Library.Lists
import Mathlib.Data.Finset.Card

/-!
# Reference counts of a broadcast queue

When consumers release only what they hold, the reference count of every queued item is the
number of its holders, and an item stays in its place as long as somebody holds it.  When
consumers are single members, an item nobody holds waits for an active consumer, or was
published to nobody.

## Main definitions

* `Accounted`: the reference counts are the numbers of holders
* `Settled`: what an item nobody holds is waiting for

## Main results

* `Accounted.step`, `Settled.step`: what one step preserves
* `Accounted.persists`: an item stays in its place as long as it is held
-/

namespace Broadcast

variable {β ι κ α : Type*}

/-! ## Holders -/

section Holders

variable [DecidableEq α]

/-- The holders of an item. -/
def holders (holds : Finset (ι × α)) (a : α) : Finset (ι × α) := holds.filter (·.2 = a)

variable {holds : Finset (ι × α)} {i : ι} {a b : α}

theorem mem_holders : (i, b) ∈ holders holds a ↔ (i, b) ∈ holds ∧ b = a := by
  simp [holders]

theorem card_holders_insert [DecidableEq ι] (h : (i, a) ∉ holds) :
    (holders (insert (i, a) holds) a).card = (holders holds a).card + 1 := by
  rw [holders, Finset.filter_insert, if_pos rfl]
  exact Finset.card_insert_of_notMem fun hm => h (Finset.mem_filter.mp hm).1

theorem holders_insert_of_ne [DecidableEq ι] (h : a ≠ b) :
    holders (insert (i, a) holds) b = holders holds b := by
  rw [holders, Finset.filter_insert, if_neg h]
  rfl

theorem card_holders_erase [DecidableEq ι] (h : (i, a) ∈ holds) :
    (holders (holds.erase (i, a)) a).card = (holders holds a).card - 1 := by
  rw [holders, Finset.filter_erase]
  exact Finset.card_erase_of_mem (mem_holders.mpr ⟨h, rfl⟩)

theorem holders_erase_of_ne [DecidableEq ι] (h : a ≠ b) :
    holders (holds.erase (i, a)) b = holders holds b := by
  rw [holders, Finset.filter_erase]
  exact Finset.erase_eq_of_notMem fun hm => h (Finset.mem_filter.mp hm).2

end Holders

/-- Distinct items of a split queue. -/
theorem item_ne {pre post : List (Entry β κ α)} {e x : Entry β κ α}
    (h : ((pre ++ e :: post).map Entry.item).Nodup) (hx : x ∈ pre ++ post) : x.item ≠ e.item := by
  simp only [List.map_append, List.map_cons] at h
  have hmem : x.item ∈ pre.map Entry.item ++ post.map Entry.item := by
    rw [← List.map_append]
    exact List.mem_map_of_mem hx
  intro hxe
  exact (List.nodup_cons.mp (List.nodup_middle.mp h)).1 (hxe ▸ hmem)

/-- Leaving removes some entries and keeps the items of the others. -/
theorem items_leave (g : Set κ) (l : List (Entry β κ α)) :
    ((l.filterMap (Entry.leave g)).map Entry.item).Sublist (l.map Entry.item) := by
  induction l with
  | nil => exact List.Sublist.refl _
  | cons e rest ih =>
    rcases Entry.leave_cases g e with ⟨-, -, -, he⟩ | ⟨-, -, he⟩ | ⟨-, he⟩
    · simpa [he] using ih.trans (List.sublist_cons_self _ _)
    · simpa [he, Entry.forget] using ih
    · simpa [he] using ih

variable {members : ι → Set κ} {valid : ι → Prop} {s s' : State β ι κ α} {ev : Event ι α}

/-! ## Reference counts -/

/-- Consumers release only what they hold. -/
def Honest (s : State β ι κ α) : Event ι α → Prop
  | .release i a => (i, a) ∈ s.holds
  | _ => True

/-- Items are queued once, the reference counts are the numbers of holders, and what is held is
queued and was seen by its holder. -/
structure Accounted [DecidableEq α] (members : ι → Set κ) (valid : ι → Prop)
    (s : State β ι κ α) : Prop where
  items : (s.entries.map Entry.item).Nodup
  counted : ∀ e ∈ s.entries, e.refs = (holders s.holds e.item).card
  held : ∀ i a, (i, a) ∈ s.holds →
    valid i ∧ ∃ e ∈ s.entries, e.item = a ∧ members i ⊆ e.seen

namespace Accounted

variable [DecidableEq α]

theorem refs_ne_zero (h : Accounted members valid s) {e : Entry β κ α} (he : e ∈ s.entries)
    {i : ι} (hi : (i, e.item) ∈ s.holds) : e.refs ≠ 0 := by
  rw [h.counted e he]
  exact Finset.card_ne_zero_of_mem (mem_holders.mpr ⟨hi, rfl⟩)

/-- **Removing what nobody holds.** Items leave the queue, or change what they are meant for, but
everything held stays. -/
theorem shrink (h : Accounted members valid s) (hholds : s'.holds = s.holds)
    (hitems : (s'.entries.map Entry.item).Sublist (s.entries.map Entry.item))
    (hfrom : ∀ e' ∈ s'.entries, ∃ e ∈ s.entries, e.item = e'.item ∧ e.refs = e'.refs)
    (hkeep : ∀ e ∈ s.entries, e.refs ≠ 0 →
      ∃ e' ∈ s'.entries, e'.item = e.item ∧ e'.seen = e.seen) : Accounted members valid s' where
  items := h.items.sublist hitems
  counted e' he' := by
    obtain ⟨e, he, hitem, hrefs⟩ := hfrom e' he'
    rw [← hrefs, h.counted e he, hitem, hholds]
  held i a hi := by
    rw [hholds] at hi
    obtain ⟨hv, e, he, rfl, hseen⟩ := h.held i a hi
    obtain ⟨e', he', hitem, hseen'⟩ := hkeep e he (h.refs_ne_zero he hi)
    exact ⟨hv, e', he', hitem, hseen' ▸ hseen⟩

theorem publish (h : Accounted members valid s) (b : β) {a : α} {n : ℕ} {stamp : α → ℕ}
    {at' : α → Set κ} (fresh : ∀ e ∈ s.entries, e.item ≠ a) :
    Accounted members valid { s with
      entries := s.entries ++ [⟨b, a, s.active, ∅, 0⟩]
      completed := n, stamp := stamp, activeAt := at' } where
  items := by
    simp only [List.map_append, List.map_cons, List.map_nil]
    apply h.items.append (List.nodup_singleton a)
    intro x hx hxa
    obtain ⟨e, he, rfl⟩ := List.mem_map.mp hx
    exact fresh e he (List.mem_singleton.mp hxa)
  counted e he := by
    rcases List.mem_append.mp he with he | he
    · exact h.counted e he
    -- a fresh item has no holder, since held items are queued
    · obtain rfl := List.mem_singleton.mp he
      refine (Finset.card_eq_zero.mpr (Finset.eq_empty_of_forall_notMem ?_)).symm
      rintro ⟨i, b⟩ hi
      obtain ⟨hi, rfl⟩ := mem_holders.mp hi
      obtain ⟨-, e, he, hea, -⟩ := h.held i b hi
      exact fresh e he hea
  held i a' hi := by
    obtain ⟨hv, e, he, hrest⟩ := h.held i a' hi
    exact ⟨hv, e, List.mem_append_left _ he, hrest⟩

variable [DecidableEq ι]

theorem deliver (h : Accounted members valid s) {i : ι} {pre post : List (Entry β κ α)}
    {e : Entry β κ α} {d : ι → List ℕ} (hs : s.entries = pre ++ e :: post)
    (waits : e.Waits (members i)) (hi : valid i) :
    Accounted members valid { s with
      entries := pre ++ e.take (members i) :: post
      holds := insert (i, e.item) s.holds
      delivered := d } where
  items := by
    have hitems := h.items
    rw [hs] at hitems
    simpa [Entry.take] using hitems
  counted x hx := by
    -- the taker does not hold the item yet: a holder has seen what it holds
    have hnew : (i, e.item) ∉ s.holds := by
      intro hmem
      obtain ⟨-, x, hx, hxe, hseen⟩ := h.held i e.item hmem
      have hitems := h.items
      rw [hs] at hitems hx
      have hx : x = e := by
        by_contra hne
        refine item_ne hitems (x := x) ?_ hxe
        simpa [hne] using hx
      subst hx
      obtain ⟨k, -, hk⟩ := waits.1
      have : k ∈ x.seen ∩ members i := ⟨hseen hk, hk⟩
      rw [waits.2] at this
      exact this
    have hitems := h.items
    rw [hs] at hitems
    -- the other items are other than this one, so their holders stay
    have hother : ∀ x ∈ pre ++ post,
        x.refs = (holders (insert (i, e.item) s.holds) x.item).card := by
      intro x hx
      rw [holders_insert_of_ne (item_ne hitems hx).symm]
      exact h.counted x (hs ▸ Lists.mem_split.mpr (.inr hx))
    rcases Lists.mem_split.mp hx with rfl | hx
    · exact (h.counted e (by simp [hs]) ▸ card_holders_insert hnew).symm
    · exact hother x hx
  held j a hj := by
    -- what was queued still is, and has been seen by as many
    have htake : ∀ x ∈ s.entries, ∃ y ∈ pre ++ e.take (members i) :: post,
        y.item = x.item ∧ x.seen ⊆ y.seen := by
      intro x hx
      rw [hs] at hx
      rcases Lists.mem_split.mp hx with rfl | hx
      · exact ⟨x.take (members i), by simp, rfl, Set.subset_union_left⟩
      · exact ⟨x, Lists.mem_split.mpr (.inr hx), rfl, le_rfl⟩
    rcases Finset.mem_insert.mp hj with hj | hj
    · obtain ⟨rfl, rfl⟩ := Prod.mk.inj hj
      exact ⟨hi, e.take (members j), by simp, rfl, Set.subset_union_right⟩
    · obtain ⟨hv, x, hx, rfl, hseen⟩ := h.held j a hj
      obtain ⟨y, hy, hitem, hsub⟩ := htake x hx
      exact ⟨hv, y, hy, hitem, hseen.trans hsub⟩

theorem release (h : Accounted members valid s) {i : ι} {pre post : List (Entry β κ α)}
    {e : Entry β κ α} (hs : s.entries = pre ++ e :: post) (hi : (i, e.item) ∈ s.holds) :
    Accounted members valid { s with
      entries := pre ++ e.drop :: post
      holds := s.holds.erase (i, e.item) } where
  items := by
    have hitems := h.items
    rw [hs] at hitems
    simpa [Entry.drop] using hitems
  counted x hx := by
    have hitems := h.items
    rw [hs] at hitems
    have hother : ∀ x ∈ pre ++ post,
        x.refs = (holders (s.holds.erase (i, e.item)) x.item).card := by
      intro x hx
      rw [holders_erase_of_ne (item_ne hitems hx).symm]
      exact h.counted x (hs ▸ Lists.mem_split.mpr (.inr hx))
    rcases Lists.mem_split.mp hx with rfl | hx
    · exact (h.counted e (by simp [hs]) ▸ card_holders_erase hi).symm
    · exact hother x hx
  held j a hj := by
    obtain ⟨hv, x, hx, rfl, hseen⟩ := h.held j a (Finset.mem_of_mem_erase hj)
    refine ⟨hv, ?_⟩
    rw [hs] at hx
    rcases Lists.mem_split.mp hx with rfl | hx
    · exact ⟨x.drop, by simp, rfl, hseen⟩
    · exact ⟨x, Lists.mem_split.mpr (.inr hx), rfl, hseen⟩

theorem releaseLast (h : Accounted members valid s) {i : ι} {pre post : List (Entry β κ α)}
    {e : Entry β κ α} (hs : s.entries = pre ++ e :: post) (hi : (i, e.item) ∈ s.holds)
    (last : e.drop.refs = 0) :
    Accounted members valid { s with
      entries := pre ++ post
      holds := s.holds.erase (i, e.item) } := by
  refine (h.release hs hi).shrink rfl ?_ ?_ ?_
  · simp only [List.map_append, List.map_cons]
    exact (List.sublist_cons_self _ _).append_left _
  · exact fun x hx => ⟨x, Lists.mem_split.mpr (.inr hx), rfl, rfl⟩
  · intro x hx hne
    refine ⟨x, ?_, rfl, rfl⟩
    have hxe : x ≠ e.drop := by
      rintro rfl
      exact hne last
    simpa [hxe] using hx

/-- **One step keeps the reference counts.** -/
theorem step (h : Accounted members valid s) (hok : Honest s ev)
    (hstep : Step members valid s ev s') : Accounted members valid s' := by
  cases hstep with
  | publish b a fresh => exact h.publish b fresh
  | deliver i pre e post hs before waits hi => exact h.deliver hs waits hi
  | release i pre e post hs more => exact h.release hs hok
  | releaseLast i pre e post hs last done => exact h.releaseLast hs hok last
  | releaseMiss i a miss =>
    -- an honest release does not miss: what is held is queued
    obtain ⟨hv, e, he, hea, -⟩ := h.held i a hok
    rcases miss with miss | miss
    · exact absurd hea (miss e he)
    · exact absurd hv miss
  | discard pre e post hs unheld =>
    refine h.shrink rfl ?_ ?_ ?_
    · simp only [hs, List.map_append, List.map_cons]
      exact (List.sublist_cons_self _ _).append_left _
    · exact fun x hx => ⟨x, hs ▸ Lists.mem_split.mpr (.inr hx), rfl, rfl⟩
    · intro x hx hne
      refine ⟨x, ?_, rfl, rfl⟩
      have hxe : x ≠ e := by
        rintro rfl
        exact hne unheld
      rw [hs] at hx
      simpa [hxe] using hx
  | register i =>
    refine h.shrink rfl (List.filter_sublist.map _) ?_ ?_
    · exact fun x hx => ⟨x, List.mem_of_mem_filter hx, rfl, rfl⟩
    · exact fun x hx hne => ⟨x, by simp [State.join, hx, hne], rfl, rfl⟩
  | unregister i =>
    refine h.shrink rfl (items_leave _ _) ?_ ?_
    · intro x hx
      obtain ⟨e, he, hex⟩ := List.mem_filterMap.mp hx
      refine ⟨e, he, ?_⟩
      rcases Entry.leave_cases (members i) e with ⟨-, -, -, hl⟩ | ⟨-, -, hl⟩ | ⟨-, hl⟩ <;>
        rw [hl] at hex
      · exact absurd hex (by simp)
      · obtain rfl := Option.some.inj hex
        exact ⟨rfl, rfl⟩
      · obtain rfl := Option.some.inj hex
        exact ⟨rfl, rfl⟩
    · intro e he hne
      rcases Entry.leave_cases (members i) e with ⟨-, h0, -⟩ | ⟨-, -, hl⟩ | ⟨-, hl⟩
      · exact absurd h0 hne
      · exact ⟨_, List.mem_filterMap.mpr ⟨e, he, hl⟩, rfl, rfl⟩
      · exact ⟨_, List.mem_filterMap.mpr ⟨e, he, hl⟩, rfl, rfl⟩
  | clear =>
    refine h.shrink rfl (List.filter_sublist.map _) ?_ ?_
    · exact fun x hx => ⟨x, List.mem_of_mem_filter hx, rfl, rfl⟩
    · exact fun x hx hne => ⟨x, by simp [hx, hne], rfl, rfl⟩
  | idle => exact h

/-! ## What is held stays -/

/-- Every queued item was queued in the same place before the step, or was just published. -/
theorem origin (hstep : Step members valid s ev s') {e' : Entry β κ α} (he' : e' ∈ s'.entries) :
    (∃ e ∈ s.entries, e.slot = e'.slot ∧ e.item = e'.item) ∨
      ∀ e ∈ s.entries, e.item ≠ e'.item := by
  have hsame : e' ∈ s.entries → ∃ e ∈ s.entries, e.slot = e'.slot ∧ e.item = e'.item :=
    fun he => ⟨e', he, rfl, rfl⟩
  cases hstep with
  | publish b a fresh =>
    rcases List.mem_append.mp he' with he | he
    · exact .inl (hsame he)
    · obtain rfl := List.mem_singleton.mp he
      exact .inr fresh
  | deliver i pre e post hs before waits hi =>
    refine .inl ?_
    rcases Lists.mem_split.mp he' with rfl | he
    · exact ⟨e, by simp [hs], rfl, rfl⟩
    · exact hsame (hs ▸ Lists.mem_split.mpr (.inr he))
  | release i pre e post hs more =>
    refine .inl ?_
    rcases Lists.mem_split.mp he' with rfl | he
    · exact ⟨e, by simp [hs], rfl, rfl⟩
    · exact hsame (hs ▸ Lists.mem_split.mpr (.inr he))
  | releaseLast i pre e post hs last done =>
    exact .inl (hsame (hs ▸ Lists.mem_split.mpr (.inr he')))
  | releaseMiss i a miss => exact .inl (hsame he')
  | discard pre e post hs unheld =>
    exact .inl (hsame (hs ▸ Lists.mem_split.mpr (.inr he')))
  | register i => exact .inl (hsame (List.mem_of_mem_filter he'))
  | unregister i =>
    obtain ⟨e, he, hleave⟩ := List.mem_filterMap.mp he'
    refine .inl ⟨e, he, ?_⟩
    rcases Entry.leave_cases (members i) e with ⟨-, -, -, hl⟩ | ⟨-, -, hl⟩ | ⟨-, hl⟩ <;>
      rw [hl] at hleave
    · exact absurd hleave (by simp)
    · obtain rfl := Option.some.inj hleave
      exact ⟨rfl, rfl⟩
    · obtain rfl := Option.some.inj hleave
      exact ⟨rfl, rfl⟩
  | clear => exact .inl (hsame (List.mem_of_mem_filter he'))
  | idle => exact .inl (hsame he')

/-- **What is held stays.** An item held before and after a step is queued in the same place. -/
theorem persists (h : Accounted members valid s) (hok : Honest s ev)
    (hstep : Step members valid s ev s') {i : ι} {a : α} (hi : (i, a) ∈ s.holds)
    (hi' : (i, a) ∈ s'.holds) :
    ∃ e ∈ s.entries, ∃ e' ∈ s'.entries, e.item = a ∧ e'.item = a ∧ e.slot = e'.slot := by
  obtain ⟨-, e', he', rfl, -⟩ := (h.step hok hstep).held i a hi'
  rcases origin hstep he' with ⟨e, he, hslot, hitem⟩ | hnew
  · exact ⟨e, he, e', he', hitem, rfl, hslot⟩
  · obtain ⟨-, e, he, hea, -⟩ := h.held i _ hi
    exact absurd hea (hnew e he)

end Accounted

/-! ## What the others wait for -/

/-- Consumers leave one member at a time. -/
def Single (members : ι → Set κ) : Event ι α → Prop
  | .unregister i => ∃ k, members i = {k}
  | _ => True

/-- An item waits for active members only, and one that nobody holds waits for somebody or was
published to nobody. -/
structure Settled (s : State β ι κ α) : Prop where
  pending : ∀ e ∈ s.entries, e.pending ⊆ s.active
  stuck : ∀ e ∈ s.entries, e.refs = 0 →
    e.pending.Nonempty ∨ (e.wanted = ∅ ∧ s.activeAt e.item = ∅)

namespace Settled

theorem shrink (h : Settled s) (hactive : s.active ⊆ s'.active) (hat : s'.activeAt = s.activeAt)
    (hfrom : ∀ e ∈ s'.entries, e ∈ s.entries) : Settled s' where
  pending e he := (h.pending e (hfrom e he)).trans hactive
  stuck e he := by
    rw [hat]
    exact h.stuck e (hfrom e he)

/-- An item is replaced by one that waits for no more members. -/
theorem replace (h : Settled s) {pre post : List (Entry β κ α)} {e e' : Entry β κ α}
    (hs : s.entries = pre ++ e :: post) (hs' : s'.entries = pre ++ e' :: post)
    (hactive : s'.active = s.active) (hat : s'.activeAt = s.activeAt)
    (hpending : e'.pending ⊆ e.pending) (hstuck : e'.refs = 0 → e'.pending.Nonempty) :
    Settled s' := by
  have hold : ∀ x ∈ pre ++ post, x ∈ s.entries := fun x hx =>
    hs ▸ Lists.mem_split.mpr (.inr hx)
  constructor
  · intro x hx
    rw [hs'] at hx
    rw [hactive]
    rcases Lists.mem_split.mp hx with rfl | hx
    · exact hpending.trans (h.pending e (hs ▸ Lists.mem_split.mpr (.inl rfl)))
    · exact h.pending x (hold x hx)
  · intro x hx h0
    rw [hs'] at hx
    rw [hat]
    rcases Lists.mem_split.mp hx with rfl | hx
    · exact .inl (hstuck h0)
    · exact h.stuck x (hold x hx) h0

/-- One member leaves. -/
theorem leave (h : Settled s) {k : κ} (hactive : s'.active = s.active \ {k})
    (hat : s'.activeAt = s.activeAt) (hs : s'.entries = s.entries.filterMap (Entry.leave {k})) :
    Settled s' := by
  constructor
  · intro x hx m hm
    rw [hs] at hx
    obtain ⟨e, he, hleave⟩ := List.mem_filterMap.mp hx
    obtain ⟨hme, hne⟩ := Entry.mem_pending_of_leave hleave hm
    rw [hactive]
    exact ⟨h.pending e he hme, hne⟩
  · intro x hx h0
    rw [hs] at hx
    rw [hat]
    obtain ⟨e, he, hleave⟩ := List.mem_filterMap.mp hx
    rcases Entry.leave_cases {k} e with ⟨-, -, -, hl⟩ | ⟨-, hmore, hl⟩ | ⟨-, hl⟩ <;>
      rw [hl] at hleave
    · exact absurd hleave.symm (Option.some_ne_none x)
    · -- what waits for nobody any more has left the queue
      obtain rfl := Option.some.inj hleave
      refine .inl (Set.nonempty_iff_ne_empty.mpr fun hempty => ?_)
      exact hmore h0 (Entry.done_iff.mpr hempty)
    · obtain rfl := Option.some.inj hleave
      exact h.stuck _ he h0

variable [DecidableEq ι] [DecidableEq α]

/-- **One step keeps the queue settled.** -/
theorem step (h : Settled s) (hok : Single members ev) (hstep : Step members valid s ev s') :
    Settled s' := by
  cases hstep with
  | publish b a fresh =>
    constructor
    · intro e he
      rcases List.mem_append.mp he with he | he
      · exact h.pending e he
      · obtain rfl := List.mem_singleton.mp he
        exact Set.sdiff_subset
    · intro e he h0
      rcases List.mem_append.mp he with he | he
      · simpa only [Function.update_of_ne (fresh e he)] using h.stuck e he h0
      · obtain rfl := List.mem_singleton.mp he
        -- a new item waits for all active members, if there are any
        rcases Set.eq_empty_or_nonempty s.active with hempty | hne
        · exact .inr ⟨hempty, by simpa using hempty⟩
        · exact .inl (by simpa [Entry.pending] using hne)
  | deliver i pre e post hs before waits hi =>
    refine h.replace hs rfl rfl rfl (fun k hk => (Entry.mem_pending_take.mp hk).1) fun h0 => ?_
    -- the item taken has a holder now
    exact absurd h0 (by simp [Entry.take])
  | release i pre e post hs more =>
    refine h.replace hs rfl rfl rfl (fun k hk => hk) fun h0 => ?_
    -- if it were done as well, it would have been the last release
    refine Set.nonempty_iff_ne_empty.mpr fun hempty => ?_
    exact more ⟨h0, Entry.done_iff.mpr hempty⟩
  | releaseLast i pre e post hs last done =>
    exact h.shrink le_rfl rfl fun x hx => hs ▸ Lists.mem_split.mpr (.inr hx)
  | releaseMiss i a miss => exact h.shrink le_rfl rfl fun x hx => hx
  | discard pre e post hs unheld =>
    exact h.shrink le_rfl rfl fun x hx => hs ▸ Lists.mem_split.mpr (.inr hx)
  | register i => exact h.shrink Set.subset_union_left rfl fun x hx => List.mem_of_mem_filter hx
  | unregister i =>
    obtain ⟨k, hk⟩ := hok
    exact h.leave (by rw [hk]) rfl (by rw [hk])
  | clear => exact h.shrink le_rfl rfl fun x hx => List.mem_of_mem_filter hx
  | idle => exact h

end Settled

end Broadcast
