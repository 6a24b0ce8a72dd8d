import YangIpc.Library.Broadcast.Delivery

/-!
# What the items of a broadcast queue contain

An item is a place in memory, and is used again and again.  Its content when it is published is that
of the publication.  As long as nobody writes to an item that is queued, a queued item has the
content of its latest publication, so a consumer reads what was published.

## Main definitions

* `Event.publishes`: the contents that an event publishes
* `Carries memory published s`: the queued items have the contents of their publications
* `received`: the contents that a consumer was given

## Main results

* `entry_step`: where the entries of the queue come from
* `Carries.step`, `Carries.write`: what happens to the queue, and what is written
* `received_step`: what a consumer is given in a step
* `Exact.received`: nothing is left out
-/

namespace Broadcast

variable {β ι κ α γ : Type*} {members : ι → Set κ} {valid : ι → Prop} {s s' : State β ι κ α}
  {ev : Event ι α} {memory : α → γ} {published : List γ} {i : ι} {k : κ}

/-- The contents that an event publishes. -/
def Event.publishes (memory : α → γ) : Event ι α → List γ
  | publish a => [memory a]
  | _ => []

/-- Every item that is queued has the content of its latest publication, and only publications
are delivered. -/
structure Carries (memory : α → γ) (published : List γ) (s : State β ι κ α) : Prop where
  length : published.length = s.completed
  content : ∀ e ∈ s.entries, published[s.stamp e.item]? = some (memory e.item)
  delivered : ∀ i, ∀ t ∈ s.delivered i, t < published.length

/-- The contents of publications, by their numbers. -/
def contents (published : List γ) (l : List ℕ) : List γ := l.filterMap (published[·]?)

section Contents

variable {l : List ℕ} {more : List γ}

@[simp] theorem contents_nil : contents published [] = [] := rfl

@[simp] theorem contents_append {l' : List ℕ} :
    contents published (l ++ l') = contents published l ++ contents published l' :=
  List.filterMap_append

theorem contents_singleton {n : ℕ} {x : γ} (h : published[n]? = some x) :
    contents published [n] = [x] := by
  rw [contents, List.filterMap_cons_some h, List.filterMap_nil]

/-- Later publications do not change those that have happened. -/
theorem contents_more (h : ∀ t ∈ l, t < published.length) :
    contents (published ++ more) l = contents published l :=
  List.filterMap_congr fun t ht => List.getElem?_append_left (h t ht)

/-- The contents of consecutive publications. -/
theorem contents_range' (n : ℕ) :
    ∀ m, contents published (List.range' m n) = (published.drop m).take n := by
  induction n with
  | zero => exact fun m => List.take_zero.symm
  | succ n ih =>
    intro m
    rw [List.range'_succ, contents, List.filterMap_cons]
    cases hm : published[m]? with
    | none =>
      have hle : published.length ≤ m := List.getElem?_eq_none_iff.mp hm
      refine (ih (m + 1)).trans ?_
      rw [List.drop_eq_nil_of_le hle, List.drop_eq_nil_of_le (by omega), List.take_nil,
        List.take_nil]
    | some x =>
      obtain ⟨hlt, rfl⟩ := List.getElem?_eq_some_iff.mp hm
      rw [List.drop_eq_getElem_cons hlt, List.take_succ_cons]
      exact congrArg _ (ih (m + 1))

/-- The contents of the items in a list that wait for a member. -/
theorem contents_waiting {stamp : α → ℕ} {entries : List (Entry β κ α)}
    {p : Entry β κ α → Bool} (hp : ∀ e, p e = true ↔ k ∈ e.pending)
    (h : ∀ e ∈ entries, published[stamp e.item]? = some (memory e.item)) :
    contents published (waiting stamp k entries) =
      (entries.filter p).map fun e => memory e.item := by
  induction entries with
  | nil => rfl
  | cons e rest ih =>
    have hrest := ih fun x hx => h x (List.mem_cons_of_mem _ hx)
    -- an entry that waits for the member adds its number on one side and its content on the other
    by_cases hk : k ∈ e.pending
    · rw [waiting_cons_of_mem hk, contents, List.filterMap_cons_some (h e List.mem_cons_self),
        List.filter_cons_of_pos ((hp e).mpr hk), List.map_cons]
      exact congrArg _ hrest
    · rw [waiting_cons_of_notMem hk, hrest, List.filter_cons_of_neg (mt (hp e).mp hk)]

end Contents

section Steps

variable [DecidableEq ι] [DecidableEq α]

/-- **Where the entries come from.** An entry was queued before the step, for the same publication,
or was just published. -/
theorem entry_step (hstep : Step members valid s ev s') {e' : Entry β κ α}
    (he' : e' ∈ s'.entries) :
    (∃ e ∈ s.entries, e.item = e'.item ∧ s'.stamp e'.item = s.stamp e'.item) ∨
      ev = .publish e'.item ∧ s'.stamp e'.item = s.completed := by
  cases hstep with
  | publish b a fresh =>
    rcases List.mem_append.mp he' with he | he
    · exact .inl ⟨e', he, rfl, Function.update_of_ne (fresh e' he) _ _⟩
    · obtain rfl := List.mem_singleton.mp he
      exact .inr ⟨rfl, Function.update_self _ _ _⟩
  | deliver i pre e post hs before waits hi =>
    rcases Lists.mem_split.mp he' with rfl | he
    · exact .inl ⟨e, by simp [hs], rfl, rfl⟩
    · exact .inl ⟨e', hs ▸ Lists.mem_split.mpr (.inr he), rfl, rfl⟩
  | release i pre e post hs more =>
    rcases Lists.mem_split.mp he' with rfl | he
    · exact .inl ⟨e, by simp [hs], rfl, rfl⟩
    · exact .inl ⟨e', hs ▸ Lists.mem_split.mpr (.inr he), rfl, rfl⟩
  | releaseLast i pre e post hs last done =>
    exact .inl ⟨e', hs ▸ Lists.mem_split.mpr (.inr he'), rfl, rfl⟩
  | releaseMiss i a miss => exact .inl ⟨e', he', rfl, rfl⟩
  | discard pre e post hs unheld =>
    exact .inl ⟨e', hs ▸ Lists.mem_split.mpr (.inr he'), rfl, rfl⟩
  | register i => exact .inl ⟨e', List.mem_of_mem_filter he', rfl, rfl⟩
  | unregister i =>
    obtain ⟨e, he, hleave⟩ := List.mem_filterMap.mp he'
    refine .inl ⟨e, he, ?_, rfl⟩
    rcases Entry.leave_cases (members i) e with ⟨-, -, -, hl⟩ | ⟨-, -, hl⟩ | ⟨-, hl⟩ <;>
      rw [hl] at hleave
    · exact absurd hleave (by simp)
    · obtain rfl := Option.some.inj hleave
      rfl
    · obtain rfl := Option.some.inj hleave
      rfl
  | clear => exact .inl ⟨e', List.mem_of_mem_filter he', rfl, rfl⟩
  | idle => exact .inl ⟨e', he', rfl, rfl⟩

/-- The publications are counted. -/
theorem completed_step (hstep : Step members valid s ev s') :
    s'.completed = s.completed + (ev.publishes memory).length := by
  cases hstep <;> rfl

/-- What a step adds to the deliveries of a consumer. -/
theorem delivered_step (hstep : Step members valid s ev s') (i : ι) :
    s'.delivered i = s.delivered i ∨
      (∃ e ∈ s.entries, e.Waits (members i) ∧ ev = .deliver i e.item ∧
        s'.delivered i = s.delivered i ++ [s.stamp e.item]) ∨
      ev = .register i ∧ s.active ∩ members i = ∅ ∧ s'.delivered i = [] := by
  cases hstep with
  | deliver j pre e post hs before waits hj =>
    by_cases hij : i = j
    · subst hij
      exact .inr (.inl ⟨e, by simp [hs], waits, rfl, Function.update_self _ _ _⟩)
    · exact .inl (Function.update_of_ne hij _ _)
  | register j =>
    simp only [State.join]
    split
    · rename_i hout
      by_cases hij : i = j
      · subst hij
        exact .inr (.inr ⟨rfl, hout, Function.update_self _ _ _⟩)
      · exact .inl (Function.update_of_ne hij _ _)
    · exact .inl rfl
  | _ => exact .inl rfl

omit [DecidableEq ι] [DecidableEq α] in
/-- A queued item has the number of a publication. -/
theorem Carries.stamp_lt (h : Carries memory published s) {e : Entry β κ α} (he : e ∈ s.entries) :
    s.stamp e.item < published.length := by
  obtain ⟨hlt, -⟩ := List.getElem?_eq_some_iff.mp (h.content e he)
  exact hlt

/-- **What happens to the queue** keeps the contents. -/
theorem Carries.step (h : Carries memory published s) (hstep : Step members valid s ev s') :
    Carries memory (published ++ ev.publishes memory) s' where
  length := by rw [List.length_append, h.length, completed_step hstep]
  content e' he' := by
    rcases entry_step hstep he' with ⟨e, he, hitem, hstamp⟩ | ⟨rfl, hstamp⟩
    · rw [hstamp, ← hitem, List.getElem?_append_left (h.stamp_lt he), h.content e he]
    -- the new entry has the number of the publication that is appended
    · rw [hstamp, ← h.length]
      exact List.getElem?_concat_length
  delivered i t ht := by
    rw [List.length_append]
    rcases delivered_step hstep i with hsame | ⟨e, he, -, -, hmore⟩ | ⟨-, -, hnil⟩
    · have := h.delivered i t (hsame ▸ ht)
      omega
    · rcases List.mem_append.mp (hmore ▸ ht) with ht | ht
      · have := h.delivered i t ht
        omega
      · have := h.stamp_lt he
        rw [List.mem_singleton.mp ht]
        omega
    · rw [hnil] at ht
      exact absurd ht List.not_mem_nil

/-- **What a consumer is given in a step**: nothing, the content of an item, or it begins a new
period. -/
theorem received_step (h : Carries memory published s) (hstep : Step members valid s ev s')
    (i : ι) :
    contents (published ++ ev.publishes memory) (s'.delivered i) =
        contents published (s.delivered i) ∨
      (∃ e ∈ s.entries, ev = .deliver i e.item ∧
        contents (published ++ ev.publishes memory) (s'.delivered i) =
          contents published (s.delivered i) ++ [memory e.item]) ∨
      ev = .register i ∧ s.active ∩ members i = ∅ ∧ s'.delivered i = [] := by
  rcases delivered_step hstep i with hsame | ⟨e, he, -, rfl, hmore⟩ | hnew
  · rw [hsame, contents_more (h.delivered i)]
    exact .inl rfl
  · refine .inr (.inl ⟨e, he, rfl, ?_⟩)
    show contents (published ++ []) _ = _
    rw [List.append_nil, hmore, contents_append, contents_singleton (h.content e he)]
  · exact .inr (.inr hnew)

/-- Who is given an item holds it. -/
theorem holds_deliver {a : α} (hstep : Step members valid s (.deliver i a) s') :
    (i, a) ∈ s'.holds := by
  cases hstep
  exact Finset.mem_insert_self _ _

/-- An item that is not queued stays so until it is published. -/
theorem unqueued_step (hstep : Step members valid s ev s') {a : α}
    (ha : ∀ e ∈ s.entries, e.item ≠ a) (hev : ev ≠ .publish a) : ∀ e ∈ s'.entries, e.item ≠ a := by
  rintro e' he' rfl
  rcases entry_step hstep he' with ⟨e, he, hitem, -⟩ | ⟨hpublish, -⟩
  · exact ha e he hitem
  · exact hev hpublish

omit [DecidableEq ι] in
/-- **An item that is not queued** may be written to. -/
theorem Carries.write (h : Carries memory published s) {a : α} (ha : ∀ e ∈ s.entries, e.item ≠ a)
    (x : γ) : Carries (Function.update memory a x) published s where
  length := h.length
  content e he := by rw [h.content e he, Function.update_of_ne (ha e he)]
  delivered := h.delivered

omit [DecidableEq ι] [DecidableEq α] in
/-- **Nothing is left out.** What an active consumer was given since it joined, and what waits for
it, are the publications since then. -/
theorem Exact.received (hexact : Exact i k s) (h : Carries memory published s)
    {p : Entry β κ α → Bool} (hp : ∀ e, p e = true ↔ k ∈ e.pending) (hactive : k ∈ s.active) :
    contents published (s.delivered i) ++ (s.entries.filter p).map (fun e => memory e.item) =
      published.drop (s.since i) := by
  -- the account of a consumer is what it was given and what waits for it, in this order
  obtain ⟨n, haccount, hn⟩ := hexact.consecutive
  rw [← contents_waiting hp h.content, ← contents_append]
  show contents published (s.account i k) = _
  rw [haccount, contents_range', List.take_of_length_le]
  rw [List.length_drop, h.length, ← hn hactive]
  omega

/-- A consumer that is not active is given nothing. -/
theorem Exact.inactive (hexact : Exact i k s) (hmem : members i = {k})
    (hstep : Step members valid s ev s') (hout : k ∉ s.active) (hnil : s.delivered i = []) :
    s'.delivered i = [] := by
  rcases delivered_step hstep i with hsame | ⟨e, he, hwaits, -, -⟩ | ⟨-, -, hnew⟩
  · rw [hsame, hnil]
  · rw [hmem] at hwaits
    exact absurd (hexact.pending e he (Entry.waits_singleton.mp hwaits)) hout
  · exact hnew

/-- Who is active stays so unless it leaves. -/
theorem active_step (hstep : Step members valid s ev s') {k : κ} (hk : k ∈ s.active)
    (hev : ∀ j, ev = .unregister j → k ∉ members j) : k ∈ s'.active := by
  cases hstep with
  | register i => exact .inl hk
  | unregister i => exact ⟨hk, hev i rfl⟩
  | _ => exact hk

end Steps

end Broadcast
