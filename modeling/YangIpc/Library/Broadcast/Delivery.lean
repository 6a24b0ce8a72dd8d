import YangIpc.Library.Broadcast.System
import YangIpc.Library.Lists
import Mathlib.Data.List.Range

/-!
# Delivery order of a broadcast queue

What a consumer has been given since it joined, followed by what still waits for it, are
publications of its registration period in increasing order.  If nothing is discarded or cleared,
they are all publications of the period.

The consumer watched is a single member; every other consumer stands for other members.

## Main definitions

* `waiting`: the numbers of the items that wait for a member, oldest first
* `Change`: what may happen to the account of a consumer
* `InOrder`: increasing numbers, all from the registration period
* `Exact`: consecutive numbers from the beginning of the registration period

## Main results

* `account_step`: what one step does to the account
* `InOrder.step`, `Exact.step`: what one step preserves
-/

namespace Broadcast

variable {β ι κ α : Type*}

open Classical in
/-- The numbers of the items in a list that wait for the member `k`. -/
noncomputable def waiting (stamp : α → ℕ) (k : κ) (l : List (Entry β κ α)) : List ℕ :=
  (l.filter fun e => k ∈ e.pending).map fun e => stamp e.item

section Waiting

variable {stamp : α → ℕ} {k : κ} {l l₁ l₂ : List (Entry β κ α)} {e : Entry β κ α}

@[simp] theorem waiting_append : waiting stamp k (l₁ ++ l₂) =
    waiting stamp k l₁ ++ waiting stamp k l₂ := by
  simp [waiting]

theorem waiting_cons_of_mem (h : k ∈ e.pending) :
    waiting stamp k (e :: l) = stamp e.item :: waiting stamp k l := by
  simp [waiting, h]

theorem waiting_cons_of_notMem (h : k ∉ e.pending) :
    waiting stamp k (e :: l) = waiting stamp k l := by
  simp [waiting, h]

theorem waiting_cons_congr {e' : Entry β κ α} (hitem : e'.item = e.item)
    (h : k ∈ e'.pending ↔ k ∈ e.pending) :
    waiting stamp k (e' :: l) = waiting stamp k (e :: l) := by
  by_cases hk : k ∈ e.pending
  · rw [waiting_cons_of_mem hk, waiting_cons_of_mem (h.mpr hk), hitem]
  · rw [waiting_cons_of_notMem hk, waiting_cons_of_notMem (mt h.mp hk)]

theorem waiting_eq_nil (h : ∀ e ∈ l, k ∉ e.pending) : waiting stamp k l = [] := by
  simpa [waiting, List.filter_eq_nil_iff] using h

theorem waiting_sublist (h : l₁.Sublist l₂) :
    (waiting stamp k l₁).Sublist (waiting stamp k l₂) :=
  (h.filter _).map _

/-- Removing items that do not wait for `k` changes nothing for `k`. -/
theorem waiting_filter {p : Entry β κ α → Bool} (h : ∀ e, k ∈ e.pending → p e = true) :
    waiting stamp k (l.filter p) = waiting stamp k l := by
  unfold waiting
  rw [List.filter_filter]
  congr 1
  apply List.filter_congr
  intro e _
  by_cases hk : k ∈ e.pending
  · simp [hk, h e hk]
  · simp [hk]

theorem waiting_update [DecidableEq α] {a : α} {t : ℕ} (h : ∀ e ∈ l, e.item ≠ a) :
    waiting (Function.update stamp a t) k l = waiting stamp k l := by
  unfold waiting
  apply List.map_congr_left
  intro e he
  exact Function.update_of_ne (h e (List.mem_of_mem_filter he)) _ _

/-- When another consumer leaves, nothing changes for `k`. -/
theorem waiting_leave {g : Set κ} (hg : k ∉ g) :
    waiting stamp k (l.filterMap (Entry.leave g)) = waiting stamp k l := by
  induction l with
  | nil => rfl
  | cons e rest ih =>
    rcases Entry.leave_cases g e with ⟨-, -, hd, he⟩ | ⟨-, -, he⟩ | ⟨-, he⟩
    -- the entry is removed: it would wait for nobody else
    · have hk : k ∉ e.pending := by
        intro hk
        have := Entry.mem_pending_forget.mpr ⟨hk, hg⟩
        rw [Entry.done_iff.mp hd] at this
        exact this
      rw [List.filterMap_cons_none he, waiting_cons_of_notMem hk, ih]
    -- the entry stays and forgets `g`
    · rw [List.filterMap_cons_some he]
      by_cases hk : k ∈ e.pending
      · rw [waiting_cons_of_mem hk,
          waiting_cons_of_mem (Entry.mem_pending_forget.mpr ⟨hk, hg⟩), ih]
        rfl
      · rw [waiting_cons_of_notMem hk,
          waiting_cons_of_notMem fun h => hk (Entry.mem_pending_forget.mp h).1, ih]
    · rw [List.filterMap_cons_some he]
      by_cases hk : k ∈ e.pending
      · rw [waiting_cons_of_mem hk, waiting_cons_of_mem hk, ih]
      · rw [waiting_cons_of_notMem hk, waiting_cons_of_notMem hk, ih]

/-- When `k` leaves, nothing waits for it any more. -/
theorem waiting_leave_self : waiting stamp k (l.filterMap (Entry.leave {k})) = [] := by
  apply waiting_eq_nil
  intro x hx hk
  obtain ⟨e, -, hleave⟩ := List.mem_filterMap.mp hx
  exact (Entry.mem_pending_of_leave hleave hk).2 rfl

/-- Taking an item changes nothing for the members that do not take it. -/
theorem waiting_take {g : Set κ} (hg : k ∉ g) :
    waiting stamp k (l₁ ++ e.take g :: l₂) = waiting stamp k (l₁ ++ e :: l₂) := by
  rw [waiting_append, waiting_append]
  congr 1
  exact waiting_cons_congr rfl (by simp [Entry.mem_pending_take, hg])

/-- What is taken is the oldest of the waiting items. -/
theorem waiting_take_self (before : ∀ x ∈ l₁, ¬x.Waits {k}) (waits : e.Waits {k}) :
    waiting stamp k (l₁ ++ e :: l₂) =
      stamp e.item :: waiting stamp k (l₁ ++ e.take {k} :: l₂) := by
  have hnil : waiting stamp k l₁ = [] :=
    waiting_eq_nil fun x hx hk => before x hx (Entry.waits_singleton.mpr hk)
  have htaken : k ∉ (e.take {k}).pending := fun h => (Entry.mem_pending_take.mp h).2 rfl
  rw [waiting_append, waiting_append, hnil,
    waiting_cons_of_mem (Entry.waits_singleton.mp waits), waiting_cons_of_notMem htaken]
  rfl

theorem waiting_drop :
    waiting stamp k (l₁ ++ e.drop :: l₂) = waiting stamp k (l₁ ++ e :: l₂) := by
  rw [waiting_append, waiting_append]
  congr 1
  exact waiting_cons_congr rfl (by simp)

theorem waiting_done (done : e.Done) :
    waiting stamp k (l₁ ++ l₂) = waiting stamp k (l₁ ++ e :: l₂) := by
  have hk : k ∉ e.pending := by
    rw [Entry.done_iff.mp done]
    exact Set.notMem_empty k
  rw [waiting_append, waiting_append, waiting_cons_of_notMem hk]

end Waiting

/-! ## What a step does to one consumer -/

section Watch

variable {members : ι → Set κ} {valid : ι → Prop} {s s' : State β ι κ α} {ev : Event ι α}
  {i : ι} {k : κ} [DecidableEq ι] [DecidableEq α]

/-- Everyone but the consumer `i` stands for other members than `k`. -/
def Apart (members : ι → Set κ) (i : ι) (k : κ) : Event ι α → Prop
  | .deliver j _ => j = i ∨ k ∉ members j
  | .register j => j = i ∨ k ∉ members j
  | .unregister j => j = i ∨ k ∉ members j
  | _ => True

/-- Nothing is discarded or cleared. -/
def Lossless : Event ι α → Prop
  | .discard _ => False
  | .clear => False
  | _ => True

/-- What `i` has been given since it joined, and what waits for its member `k`. -/
noncomputable def State.account (s : State β ι κ α) (i : ι) (k : κ) : List ℕ :=
  s.delivered i ++ waiting s.stamp k s.entries

/-- What may happen to the account of a consumer in a step. -/
inductive Change (i : ι) (k : κ) (ev : Event ι α) (s s' : State β ι κ α) : Prop
  /-- a publication while the consumer is active -/
  | added (completed : s'.completed = s.completed + 1) (since : s'.since i = s.since i)
      (before : k ∈ s.active) (account : s'.account i k = s.account i k ++ [s.completed])
  /-- a publication while it is not -/
  | passed (completed : s'.completed = s.completed + 1) (since : s'.since i = s.since i)
      (after : k ∉ s'.active) (account : s'.account i k = s.account i k)
  /-- the consumer joins, and a new period begins -/
  | begun (completed : s'.completed = s.completed) (since : s'.since i = s.completed)
      (account : s'.account i k = [])
  /-- nothing -/
  | kept (completed : s'.completed = s.completed) (since : s'.since i = s.since i)
      (active : k ∈ s'.active → k ∈ s.active) (account : s'.account i k = s.account i k)
  /-- the consumer leaves, and nothing waits for it any more -/
  | left (completed : s'.completed = s.completed) (since : s'.since i = s.since i)
      (after : k ∉ s'.active) (account : s'.account i k = s.delivered i)
  /-- items are discarded or cleared -/
  | lost (completed : s'.completed = s.completed) (since : s'.since i = s.since i)
      (lossy : ¬Lossless ev) (account : (s'.account i k).Sublist (s.account i k))

omit [DecidableEq α] in
/-- The items removed when a consumer joins wait for nobody. -/
theorem waiting_join (s : State β ι κ α) (j : ι) :
    waiting s.stamp k (s.join members j).entries = waiting s.stamp k s.entries := by
  apply waiting_filter
  intro e hk
  have hne : e.wanted ≠ ∅ := Set.nonempty_iff_ne_empty.mp ⟨k, hk.1⟩
  simp [hne]

omit [DecidableEq α] in
/-- A consumer joins, for the first time or once more. -/
theorem change_join_self (hmem : members i = {k})
    (hpending : ∀ e ∈ s.entries, k ∈ e.pending → k ∈ s.active) :
    Change i k ev s (s.join members i) := by
  by_cases hk : k ∈ s.active
  · -- joining once more begins no new period
    have hdelivered : (s.join members i).delivered = s.delivered := by simp [State.join, hmem, hk]
    refine .kept rfl ?_ (fun _ => hk) ?_
    · simp [State.join, hmem, hk]
    · rw [State.account, hdelivered]
      exact congrArg _ (waiting_join s i)
  · have hnil : waiting s.stamp k s.entries = [] :=
      waiting_eq_nil fun e he hke => hk (hpending e he hke)
    have hdelivered : (s.join members i).delivered i = [] := by simp [State.join, hmem, hk]
    refine .begun rfl ?_ ?_
    · simp [State.join, hmem, hk]
    · rw [State.account, hdelivered]
      exact (waiting_join s i).trans hnil

omit [DecidableEq α] in
/-- Another consumer joins. -/
theorem change_join_of_ne {j : ι} (hji : j ≠ i) (hout : k ∉ members j) :
    Change i k ev s (s.join members j) := by
  have hsince : (s.join members j).since i = s.since i := by
    simp only [State.join]
    split
    · exact Function.update_of_ne (Ne.symm hji) _ _
    · rfl
  have hdelivered : (s.join members j).delivered i = s.delivered i := by
    simp only [State.join]
    split
    · exact Function.update_of_ne (Ne.symm hji) _ _
    · rfl
  refine .kept rfl hsince (fun hk => hk.resolve_right hout) ?_
  rw [State.account, hdelivered]
  exact congrArg _ (waiting_join s j)

/-- **What a step does to the account of a consumer.** -/
theorem account_step (hmem : members i = {k}) (hpending : ∀ e ∈ s.entries, k ∈ e.pending →
      k ∈ s.active) (hok : Apart members i k ev) (hstep : Step members valid s ev s') :
    Change i k ev s s' := by
  cases hstep with
  | publish b a fresh =>
    -- the new item waits for `k` if `k` is active
    by_cases hk : k ∈ s.active
    · refine .added rfl rfl hk ?_
      simp only [State.account, waiting_append, waiting_update fresh]
      rw [waiting_cons_of_mem (by simpa [Entry.pending] using hk)]
      simp [waiting]
    · refine .passed rfl rfl hk ?_
      simp only [State.account, waiting_append, waiting_update fresh]
      rw [waiting_cons_of_notMem (by simpa [Entry.pending] using hk)]
      simp [waiting]
  | deliver j pre e post hs before waits hj =>
    refine .kept rfl rfl id ?_
    simp only [State.account, hs]
    by_cases hji : j = i
    -- the oldest item waiting moves from the second part of the account to the first
    · subst hji
      rw [hmem] at before waits
      rw [hmem, Function.update_self, waiting_take_self before waits]
      simp
    · rw [Function.update_of_ne (Ne.symm hji), waiting_take (hok.resolve_left hji)]
  | release j pre e post hs more =>
    refine .kept rfl rfl id ?_
    simp only [State.account, hs, waiting_drop]
  | releaseLast j pre e post hs last done =>
    refine .kept rfl rfl id ?_
    rw [State.account, State.account, hs, ← waiting_done done]
  | releaseMiss j a miss => exact .kept rfl rfl id rfl
  | discard pre e post hs unheld =>
    refine .lost rfl rfl id ?_
    simp only [State.account, hs]
    refine (waiting_sublist ?_).append_left _
    exact (List.sublist_cons_self _ _).append_left _
  | register j =>
    by_cases hji : j = i
    · subst hji
      exact change_join_self hmem hpending
    · exact change_join_of_ne hji (hok.resolve_left hji)
  | unregister j =>
    by_cases hji : j = i
    · subst hji
      refine .left rfl rfl ?_ ?_
      · simp [hmem]
      · simp only [State.account, hmem, waiting_leave_self, List.append_nil]
    · refine .kept rfl rfl (fun hk => hk.1) ?_
      simp only [State.account, waiting_leave (hok.resolve_left hji)]
  | clear =>
    refine .lost rfl rfl id ?_
    exact (waiting_sublist List.filter_sublist).append_left _
  | idle => exact .kept rfl rfl id rfl

/-- Whatever happens, items wait for `k` only while `k` is active. -/
theorem pending_active_step (hmem : members i = {k})
    (h : ∀ e ∈ s.entries, k ∈ e.pending → k ∈ s.active) (hok : Apart members i k ev)
    (hstep : Step members valid s ev s') : ∀ e ∈ s'.entries, k ∈ e.pending → k ∈ s'.active := by
  intro x hx hkx
  cases hstep with
  | publish b a fresh =>
    rcases List.mem_append.mp hx with hx | hx
    · exact h x hx hkx
    · obtain rfl := List.mem_singleton.mp hx
      exact hkx.1
  | deliver j pre e post hs before waits hj =>
    rcases Lists.mem_split.mp hx with rfl | hx
    · exact h e (by simp [hs]) (Entry.mem_pending_take.mp hkx).1
    · exact h x (hs ▸ Lists.mem_split.mpr (.inr hx)) hkx
  | release j pre e post hs more =>
    rcases Lists.mem_split.mp hx with rfl | hx
    · exact h e (by simp [hs]) hkx
    · exact h x (hs ▸ Lists.mem_split.mpr (.inr hx)) hkx
  | releaseLast j pre e post hs last done =>
    exact h x (hs ▸ Lists.mem_split.mpr (.inr hx)) hkx
  | releaseMiss j a miss => exact h x hx hkx
  | discard pre e post hs unheld =>
    exact h x (hs ▸ Lists.mem_split.mpr (.inr hx)) hkx
  | register j => exact .inl (h x (List.mem_of_mem_filter hx) hkx)
  | unregister j =>
    have hwait : waiting s.stamp k (s.entries.filterMap (Entry.leave (members j))) ≠ [] := by
      simp only [waiting, ne_eq, List.map_eq_nil_iff, List.filter_eq_nil_iff, not_forall]
      exact ⟨x, hx, by simpa using hkx⟩
    -- when `i` itself leaves, nothing waits for `k` any more
    by_cases hji : j = i
    · subst hji
      exact absurd (by rw [hmem]; exact waiting_leave_self) hwait
    · have hout := hok.resolve_left hji
      refine ⟨?_, hout⟩
      by_contra hk
      rw [waiting_leave hout] at hwait
      exact hwait (waiting_eq_nil fun e he hke => hk (h e he hke))
  | clear => exact h x (List.mem_of_mem_filter hx) hkx
  | idle => exact h x hx hkx

/-! ## The invariants -/

/-- The account of a consumer is increasing and within its registration period. -/
structure InOrder (i : ι) (k : κ) (s : State β ι κ α) : Prop where
  pending : ∀ e ∈ s.entries, k ∈ e.pending → k ∈ s.active
  sorted : (s.account i k).Pairwise (· < ·)
  period : ∀ t ∈ s.account i k, s.since i ≤ t ∧ t < s.completed
  begun : s.since i ≤ s.completed

/-- **One step keeps deliveries in order.** -/
theorem InOrder.step (h : InOrder i k s) (hmem : members i = {k}) (hok : Apart members i k ev)
    (hstep : Step members valid s ev s') : InOrder i k s' := by
  have hpending := pending_active_step hmem h.pending hok hstep
  have hsub : ∀ l, l.Sublist (s.account i k) → s'.completed = s.completed →
      s'.since i = s.since i → s'.account i k = l → InOrder i k s' := by
    rintro l hl hc hsince rfl
    refine ⟨hpending, h.sorted.sublist hl, fun t ht => ?_, by rw [hc, hsince]; exact h.begun⟩
    rw [hc, hsince]
    exact h.period t (hl.subset ht)
  cases account_step hmem h.pending hok hstep with
  | added hc hsince _ hacc =>
    -- the new number is above all others
    refine ⟨hpending, ?_, fun t ht => ?_, ?_⟩
    · rw [hacc, List.pairwise_append]
      refine ⟨h.sorted, List.pairwise_singleton _ _, fun t ht u hu => ?_⟩
      rw [List.mem_singleton.mp hu]
      exact (h.period t ht).2
    · rw [hacc] at ht
      rw [hc, hsince]
      rcases List.mem_append.mp ht with ht | ht
      · have := h.period t ht
        omega
      · rw [List.mem_singleton.mp ht]
        exact ⟨h.begun, by omega⟩
    · rw [hc, hsince]
      exact h.begun.trans (Nat.le_succ _)
  | passed hc hsince _ hacc =>
    -- only the counter moves
    refine ⟨hpending, by rw [hacc]; exact h.sorted, fun t ht => ?_, ?_⟩
    · rw [hacc] at ht
      have := h.period t ht
      omega
    · rw [hc, hsince]
      exact h.begun.trans (Nat.le_succ _)
  | begun hc hsince hacc =>
    exact ⟨hpending, by rw [hacc]; exact .nil, by simp [hacc], by rw [hc, hsince]⟩
  | kept hc hsince _ hacc => exact hsub _ (.refl _) hc hsince hacc
  | left hc hsince _ hacc => exact hsub _ (List.sublist_append_left _ _) hc hsince hacc
  | lost hc hsince _ hacc => exact hsub _ hacc hc hsince rfl

/-- The account of a consumer is consecutive from the beginning of its registration period, and
complete while the consumer is active. -/
structure Exact (i : ι) (k : κ) (s : State β ι κ α) : Prop where
  pending : ∀ e ∈ s.entries, k ∈ e.pending → k ∈ s.active
  consecutive : ∃ n, s.account i k = List.range' (s.since i) n ∧
    (k ∈ s.active → s.since i + n = s.completed)

/-- **One step without losses keeps deliveries consecutive.** -/
theorem Exact.step (h : Exact i k s) (hmem : members i = {k}) (hok : Apart members i k ev)
    (hlossless : Lossless ev) (hstep : Step members valid s ev s') : Exact i k s' := by
  obtain ⟨n, hn, hactive⟩ := h.consecutive
  refine ⟨pending_active_step hmem h.pending hok hstep, ?_⟩
  cases account_step hmem h.pending hok hstep with
  | added hc hsince hin hacc =>
    -- the account grows by the next number
    refine ⟨n + 1, ?_, fun _ => ?_⟩
    · rw [hacc, hn, hsince, ← hactive hin, List.range'_concat]
      simp
    · have := hactive hin
      omega
  | passed hc hsince hout hacc => exact ⟨n, by rw [hacc, hn, hsince], fun h => absurd h hout⟩
  | begun hc hsince hacc => exact ⟨0, by rw [hacc]; rfl, fun _ => by rw [hc, hsince]; rfl⟩
  | kept hc hsince hk hacc =>
    exact ⟨n, by rw [hacc, hn, hsince], fun h => by rw [hc, hsince]; exact hactive (hk h)⟩
  | left hc hsince hout hacc =>
    -- a beginning of the account is left
    obtain ⟨m, -, hm, -⟩ := List.range'_eq_append_iff.mp hn.symm
    exact ⟨m, by rw [hacc, hsince, hm], fun h => absurd h hout⟩
  | lost _ _ hlossy _ => exact absurd hlossless hlossy

end Watch

end Broadcast
