import YangIpc.Library.Lists
import YangIpc.Library.Run
import YangIpc.Signalling.Vector

/-!
# The queue of requests

Any thread may put a request into the vector of `YangIpcMessage.c`, with the lock held.  One thread
handles the first request and frees it without the lock, and only removes it from the vector with
the lock held.  When it has stopped, `yang_destroy_ipcmessage` goes on in its place, with nobody
else around.

Requests are numbered by the calls that bring them: every caller allocates its own.

## Main definitions

* `QueuePoint`, `QueueState`, `QueueState.step`: the consumer, the threads and the vector
* `ExactlyOnce`: what is promised of the requests

## Main results

* `Shape.consume`, `Shape.insert`: what one step of the consumer, and an insertion, keep
* `handled_exactly_once`: the promise holds in every state reached, and the drain can be reached
-/

namespace YangIpc

namespace Signalling

open Transition

/-- Where the consumer is. -/
inductive QueuePoint
  /-- at the condition `isLoop` -/
  | outer
  /-- at the condition `vsize > 0` -/
  | test
  /-- about to read the first element -/
  | read
  /-- about to call `handleMessage` -/
  | handle (request : Option ℕ)
  /-- in `handleMessage` -/
  | handling (request : ℕ)
  /-- about to free the first element; the thread has freed url and data -/
  | free (request : ℕ)
  /-- about to remove the first element -/
  | remove
  /-- the thread has ended -/
  | stopped
  /-- `yang_destroy_ipcmessage` has emptied the vector -/
  | destroyed
  /-- it has followed a null pointer, or left the array -/
  | faulty
deriving DecidableEq, Repr

/-- The session, the consumer and the callers of `yang_ipcmessage_putMessage`. -/
structure QueueState where
  isStart : Bool
  isLoop : Bool
  messages : YangVector ℕ
  point : QueuePoint
  /-- The consumer is `yang_destroy_ipcmessage`. -/
  draining : Bool
  /-- The number of requests allocated so far. -/
  allocated : ℕ
  /-- The requests whose callers have passed the test of `isLoop`, and not taken the lock yet. -/
  callers : List ℕ
  /-- The requests put into the vector, in order. -/
  inserted : List ℕ
  /-- The requests that `handleMessage` was called with. -/
  called : List ℕ
  /-- The requests that it has returned from. -/
  returned : List ℕ
  freed : List ℕ
deriving DecidableEq, Repr

/-- The steps of the threads. -/
inductive QueueAction
  /-- a thread calls `yang_ipcmessage_putMessage` with a new request, and tests `isLoop` -/
  | putMessage
  /-- a caller inserts its request, with the lock held -/
  | insert (request : ℕ)
  /-- the consumer takes its next step -/
  | consume
  /-- `yang_ipcmessage_stop` -/
  | stop
  /-- `yang_destroy_ipcmessage` has waited for the thread -/
  | drain
deriving DecidableEq, Repr

namespace QueueState

/-- The next step of the consumer. -/
def consume (s : QueueState) : Option QueueState :=
  match s.point with
  | .outer =>
    if s.isLoop then some { s with point := .test }
    else some { s with isStart := false, point := .stopped }
  | .test =>
    if 0 < s.messages.vsize then some { s with point := .read }
    else if s.draining then some { s with point := .destroyed }
    else some { s with point := .outer }
  | .read =>
    match s.messages.payload[0]? with
    | some request => some { s with point := .handle request }
    | none => some { s with point := .faulty }
  | .handle request =>
    match request with
    | some r => some { s with called := s.called ++ [r], point := .handling r }
    | none => some { s with point := .faulty }
  | .handling r => some { s with returned := s.returned ++ [r], point := .free r }
  | .free _ =>
    match s.messages.payload[0]?, s.messages.set 0 none with
    | some (some r), some messages =>
      some { s with freed := s.freed ++ [r], messages := messages, point := .remove }
    | some none, _ => some { s with point := .remove }
    | _, _ => some { s with point := .faulty }
  | .remove =>
    match s.messages.remove 0 with
    | some messages => some { s with messages := messages, point := .test }
    | none => some { s with point := .faulty }
  | .stopped | .destroyed | .faulty => none

/-- A request is put into the vector. -/
def insert (s : QueueState) (request : ℕ) : QueueState :=
  match s.messages.insert (some request) with
  | some messages =>
    { s with
      messages := messages
      callers := s.callers.erase request
      inserted := s.inserted ++ [request] }
  | none => { s with point := .faulty }

/-- The state after a step, if it is possible.  Nobody calls during the drain. -/
def next (s : QueueState) : QueueAction → Option QueueState
  | .putMessage =>
    if s.draining then none
    else if s.isLoop then
      some { s with allocated := s.allocated + 1, callers := s.callers ++ [s.allocated] }
    else some { s with allocated := s.allocated + 1 }
  | .insert request => if ¬s.draining ∧ request ∈ s.callers then some (s.insert request) else none
  | .consume => s.consume
  | .stop => some { s with isLoop := false }
  | .drain =>
    if ¬s.isStart ∧ ¬s.draining then
      some { s with isLoop := false, draining := true, point := .test }
    else none

/-- The transition system. -/
def step (s : QueueState) (a : QueueAction) (t : QueueState) : Prop := s.next a = some t

/-- The thread begins its loop. -/
def start : QueueState := ⟨true, true, .create, .outer, false, 0, [], [], [], [], []⟩

end QueueState

/-- Every request is handled at most once and in the order of the insertions, and freed at most
once and after its handler has returned; after the drain, all of them have been. -/
structure ExactlyOnce (s : QueueState) : Prop where
  nodup : s.inserted.Nodup
  called : s.called <+: s.inserted
  returned : s.returned <+: s.called
  freed : s.freed <+: s.returned
  safe : s.point ≠ .faulty
  drained : s.point = .destroyed → s.called = s.inserted ∧ s.freed = s.inserted

/-! ## The invariant -/

namespace QueuePoint

/-- The first element is null between the two last steps. -/
def nulls : QueuePoint → List (Option ℕ)
  | remove => [none]
  | _ => []

/-- The request that `handleMessage` was called with, and that is not freed. -/
def current : QueuePoint → List ℕ
  | handling r | free r => [r]
  | _ => []

/-- The request that it has returned from, and that is not freed. -/
def finished : QueuePoint → List ℕ
  | free r => [r]
  | _ => []

/-- What the consumer relies on, when the requests `q` wait. -/
def Expects (q : List ℕ) : QueuePoint → Prop
  | read => q ≠ []
  | handle request => ∃ r, request = some r ∧ q.head? = some r
  | handling r | free r => q.head? = some r
  | destroyed => q = []
  | faulty => False
  | _ => True

/-- What the flags are there. -/
def Fits (isStart draining : Bool) : QueuePoint → Prop
  | outer => draining = false
  | stopped => isStart = false ∧ draining = false
  | destroyed => draining = true
  | _ => True

/-- The steps left when nobody calls, and the consumer is about to end. -/
def weight (n : ℕ) : QueuePoint → ℕ
  | test => 6 * n + 5
  | read => 6 * n + 4
  | handle _ => 6 * n + 3
  | handling _ => 6 * n + 2
  | free _ => 6 * n + 1
  | remove => 6 * n + 6
  | outer => 2
  | stopped => 1
  | destroyed | faulty => 0

end QueuePoint

/-- The requests `q` wait in the vector, the first of them first. -/
structure Shape (s : QueueState) (q : List ℕ) : Prop where
  valid : s.messages.Valid
  contents : s.messages.contents = s.point.nulls ++ q.map some
  inserted : s.inserted = s.freed ++ q
  called : s.called = s.freed ++ s.point.current
  returned : s.returned = s.freed ++ s.point.finished
  expects : s.point.Expects q
  nodup : (s.inserted ++ s.callers).Nodup
  below : ∀ r ∈ s.inserted ++ s.callers, r < s.allocated
  started : s.isStart = false → s.draining = true ∨ s.point = .stopped
  fits : s.point.Fits s.isStart s.draining

variable {s t : QueueState} {q : List ℕ} {a : QueueAction}

/-- A step that only moves the consumer. -/
theorem Shape.move (h : Shape s q) {p p' : QueuePoint} (hpoint : s.point = p)
    (hnulls : p'.nulls = p.nulls) (hcurrent : p'.current = p.current)
    (hfinished : p'.finished = p.finished) (hexpects : p'.Expects q)
    (hstarted : s.isStart = false → s.draining = true)
    (hfits : p'.Fits s.isStart s.draining) : Shape { s with point := p' } q := by
  subst hpoint
  exact
    { h with
      contents := hnulls ▸ h.contents
      called := hcurrent ▸ h.called
      returned := hfinished ▸ h.returned
      expects := hexpects
      started := fun hstart => .inl (hstarted hstart)
      fits := hfits }

/-- What the clauses about the consumer say where it is. -/
theorem Shape.found (h : Shape s q) {p : QueuePoint} (hpoint : s.point = p) :
    s.messages.contents = p.nulls ++ q.map some ∧ s.called = s.freed ++ p.current ∧
      s.returned = s.freed ++ p.finished ∧ p.Expects q ∧ p.Fits s.isStart s.draining := by
  subst hpoint
  exact ⟨h.contents, h.called, h.returned, h.expects, h.fits⟩

/-- Before the thread stops it has started, or it is the drain. -/
theorem Shape.going (h : Shape s q) {p : QueuePoint} (hpoint : s.point = p) (hp : p ≠ .stopped)
    (hstart : s.isStart = false) : s.draining = true :=
  (h.started hstart).resolve_right (hpoint ▸ hp)

theorem Shape.vsize (h : Shape s q) {p : QueuePoint} (hpoint : s.point = p)
    (hnulls : p.nulls = []) : s.messages.vsize = q.length := by
  rw [← h.valid.length_contents, h.contents, hpoint, hnulls, List.nil_append, List.length_map]

/-- The first element is the request that has waited longest. -/
theorem Shape.first (h : Shape s q) {p : QueuePoint} (hpoint : s.point = p) (hnulls : p.nulls = [])
    {r : ℕ} (hq : q.head? = some r) : s.messages.payload[0]? = some (some r) := by
  obtain ⟨rest, rfl⟩ : ∃ rest, q = r :: rest := List.head?_eq_some_iff.mp hq
  have hpos : 0 < s.messages.vsize := h.vsize hpoint hnulls ▸ Nat.succ_pos rest.length
  rw [YangVector.getElem?_contents hpos, h.contents, hpoint, hnulls]
  rfl

/-- What one step of the consumer keeps, and that it comes nearer to its end when it is to. -/
def Consumes (s : QueueState) (q : List ℕ) : Prop :=
  ∃ t q', s.consume = some t ∧ Shape t q' ∧ t.draining = s.draining ∧ t.isLoop = s.isLoop ∧
    (s.draining = true ∨ s.isLoop = false → t.point.weight q'.length < s.point.weight q.length)

theorem Shape.outer (h : Shape s q) (hpoint : s.point = .outer) : Consumes s q := by
  have hgoing := h.going hpoint (by simp)
  obtain ⟨hcontents, hcalled, hreturned, -, hfits⟩ := h.found hpoint
  have hnot : ¬s.draining = true := ne_true_of_eq_false hfits
  unfold Consumes QueueState.consume
  rw [hpoint]
  by_cases hloop : s.isLoop = true
  · exact ⟨_, q, if_pos hloop, h.move hpoint rfl rfl rfl trivial hgoing trivial, rfl, rfl,
      fun h => absurd h fun h => h.elim hnot (ne_false_of_eq_true hloop)⟩
  · have hstopped : Shape { s with isStart := false, point := .stopped } q :=
      { h with
        contents := hcontents
        called := hcalled
        returned := hreturned
        expects := trivial
        started := fun _ => .inr rfl
        fits := ⟨rfl, hfits⟩ }
    exact ⟨_, q, if_neg hloop, hstopped, rfl, rfl, fun _ => Nat.lt_succ_self _⟩

theorem Shape.test (h : Shape s q) (hpoint : s.point = .test) : Consumes s q := by
  have hvsize := h.vsize hpoint rfl
  have hgoing := h.going hpoint (by simp)
  unfold Consumes QueueState.consume
  rw [hpoint]
  by_cases hwaiting : 0 < s.messages.vsize
  · have hne : q ≠ [] := List.ne_nil_of_length_pos (hvsize ▸ hwaiting)
    exact ⟨_, q, if_pos hwaiting, h.move hpoint rfl rfl rfl hne hgoing trivial, rfl, rfl,
      fun _ => Nat.lt_succ_self _⟩
  obtain rfl : q = [] := List.length_eq_zero_iff.mp (hvsize ▸ Nat.eq_zero_of_not_pos hwaiting)
  by_cases hdraining : s.draining = true
  · exact ⟨_, [], (if_neg hwaiting).trans (if_pos hdraining),
      h.move hpoint rfl rfl rfl rfl hgoing hdraining, rfl, rfl, fun _ => Nat.succ_pos _⟩
  · exact ⟨_, [], (if_neg hwaiting).trans (if_neg hdraining),
      h.move hpoint rfl rfl rfl trivial hgoing (eq_false_of_ne_true hdraining), rfl, rfl,
      fun _ => Nat.lt_of_sub_pos (Nat.succ_pos 2)⟩

theorem Shape.read (h : Shape s q) (hpoint : s.point = .read) : Consumes s q := by
  have hgoing := h.going hpoint (by simp)
  obtain ⟨-, -, -, hne, -⟩ := h.found hpoint
  obtain ⟨r, rest, rfl⟩ := List.exists_cons_of_ne_nil hne
  unfold Consumes QueueState.consume
  simp only [hpoint, h.first hpoint rfl rfl]
  exact ⟨_, r :: rest, rfl, h.move hpoint rfl rfl rfl ⟨r, rfl, rfl⟩ hgoing trivial, rfl,
    rfl, fun _ => Nat.lt_succ_self _⟩

theorem Shape.handle (h : Shape s q) {request : Option ℕ} (hpoint : s.point = .handle request) :
    Consumes s q := by
  obtain ⟨hcontents, hcalled, hreturned, ⟨r, rfl, hq⟩, -⟩ := h.found hpoint
  unfold Consumes QueueState.consume
  rw [hpoint]
  refine ⟨_, q, rfl, ?_, rfl, rfl, fun _ => Nat.lt_succ_self _⟩
  exact
    { h with
      contents := hcontents
      called := congrArg (· ++ [r]) (hcalled.trans (List.append_nil s.freed))
      returned := hreturned
      expects := hq
      started := fun hstart => .inl (h.going hpoint (by simp) hstart)
      fits := trivial }

theorem Shape.handling (h : Shape s q) {r : ℕ} (hpoint : s.point = .handling r) :
    Consumes s q := by
  obtain ⟨hcontents, hcalled, hreturned, hexpects, -⟩ := h.found hpoint
  unfold Consumes QueueState.consume
  rw [hpoint]
  refine ⟨_, q, rfl, ?_, rfl, rfl, fun _ => Nat.lt_succ_self _⟩
  exact
    { h with
      contents := hcontents
      called := hcalled
      returned := congrArg (· ++ [r]) (hreturned.trans (List.append_nil s.freed))
      expects := hexpects
      started := fun hstart => .inl (h.going hpoint (by simp) hstart)
      fits := trivial }

/-- The request is freed, and the first element becomes null. -/
theorem Shape.free (h : Shape s q) {r : ℕ} (hpoint : s.point = .free r) : Consumes s q := by
  obtain ⟨hcontents, hcalled, hreturned, hexpects, -⟩ := h.found hpoint
  obtain ⟨rest, rfl⟩ : ∃ rest, q = r :: rest := List.head?_eq_some_iff.mp hexpects
  have hpos : 0 < s.messages.vsize := h.vsize hpoint rfl ▸ Nat.succ_pos rest.length
  obtain ⟨messages, hset, hvalid, hset'⟩ := YangVector.set_spec h.valid hpos none
  unfold Consumes QueueState.consume
  simp only [hpoint, h.first hpoint rfl rfl, hset]
  refine ⟨_, rest, rfl, ?_, rfl, rfl, fun _ => ?_⟩
  · exact
      { valid := hvalid
        contents := by rw [hset', hcontents]; rfl
        inserted := by rw [h.inserted, List.append_assoc]; rfl
        called := hcalled.trans (List.append_nil (s.freed ++ [r])).symm
        returned := hreturned.trans (List.append_nil (s.freed ++ [r])).symm
        expects := trivial
        nodup := h.nodup
        below := h.below
        started := fun hstart => .inl (h.going hpoint (by simp) hstart)
        fits := trivial }
  · simp [QueuePoint.weight]
    omega

/-- The null element is removed. -/
theorem Shape.remove (h : Shape s q) (hpoint : s.point = .remove) : Consumes s q := by
  obtain ⟨hcontents, hcalled, hreturned, -, -⟩ := h.found hpoint
  obtain ⟨messages, hremove, hvalid, hremove'⟩ := YangVector.remove_spec h.valid 0
  unfold Consumes QueueState.consume
  simp only [hpoint, hremove]
  refine ⟨_, q, rfl, ?_, rfl, rfl, fun _ => Nat.lt_succ_self _⟩
  exact
    { h with
      valid := hvalid
      contents := by rw [hremove', hcontents]; rfl
      called := hcalled
      returned := hreturned
      expects := trivial
      started := fun hstart => .inl (h.going hpoint (by simp) hstart)
      fits := trivial }

/-- **The consumer** always finds the request it expects, and comes nearer to the end of a
drain. -/
theorem Shape.consume (h : Shape s q) (hstopped : s.point ≠ .stopped)
    (hdestroyed : s.point ≠ .destroyed) : Consumes s q := by
  cases hpoint : s.point with
  | outer => exact h.outer hpoint
  | test => exact h.test hpoint
  | read => exact h.read hpoint
  | handle request => exact h.handle hpoint
  | handling r => exact h.handling hpoint
  | free r => exact h.free hpoint
  | remove => exact h.remove hpoint
  | stopped => exact absurd hpoint hstopped
  | destroyed => exact absurd hpoint hdestroyed
  | faulty =>
    obtain ⟨-, -, -, hexpects, -⟩ := h.found hpoint
    exact hexpects.elim

/-- The request that waits longest stays the first one. -/
theorem QueuePoint.Expects.append {p : QueuePoint} (h : p.Expects q) (hp : p ≠ .destroyed) (r : ℕ) :
    p.Expects (q ++ [r]) := by
  have hhead {x : ℕ} (hx : q.head? = some x) : (q ++ [r]).head? = some x := by
    obtain ⟨rest, rfl⟩ := List.head?_eq_some_iff.mp hx
    rfl
  cases p with
  | read => exact List.append_ne_nil_of_left_ne_nil h _
  | handle request =>
    obtain ⟨x, hrequest, hx⟩ := h
    exact ⟨x, hrequest, hhead hx⟩
  | handling x => exact hhead h
  | free x => exact hhead h
  | destroyed => exact absurd rfl hp
  | outer | test | remove | stopped => trivial
  | faulty => exact h

/-- **An insertion**, wherever the consumer is. -/
theorem Shape.insert (h : Shape s q) (hdraining : ¬s.draining = true) {r : ℕ}
    (hr : r ∈ s.callers) : Shape (s.insert r) (q ++ [r]) := by
  obtain ⟨messages, hinsert, hvalid, hcontents⟩ := YangVector.insert_spec h.valid r
  have hperm : (s.inserted ++ [r] ++ s.callers.erase r).Perm (s.inserted ++ s.callers) :=
    Lists.perm_move_tail hr
  have hp : s.point ≠ .destroyed := by
    intro hpoint
    obtain ⟨-, -, -, -, hfits⟩ := h.found hpoint
    exact hdraining hfits
  unfold QueueState.insert
  rw [hinsert]
  exact
    { h with
      valid := hvalid
      contents := by
        rw [hcontents, h.contents, List.map_append, List.append_assoc]
        rfl
      inserted := by
        rw [h.inserted, List.append_assoc]
      expects := h.expects.append hp r
      nodup := hperm.nodup_iff.mpr h.nodup
      below := fun x hx => h.below x (hperm.mem_iff.mp hx) }

/-- **One step** of any thread. -/
theorem Shape.step (h : Shape s q) (hstep : s.step a t) : ∃ q', Shape t q' := by
  cases a with
  | putMessage =>
    obtain ⟨-, ht⟩ := Option.ite_none_left_eq_some.mp hstep
    split at ht
    · obtain rfl := Option.some.inj ht
      -- the new request has not been seen before
      have hnew : s.allocated ∉ s.inserted ++ s.callers := fun hmem =>
        Nat.lt_irrefl _ (h.below _ hmem)
      refine ⟨q, { h with nodup := ?_, below := fun r hr => ?_ }⟩
      · rw [← List.append_assoc]
        exact List.nodup_append_comm.mp (List.nodup_cons.mpr ⟨hnew, h.nodup⟩)
      · rw [← List.append_assoc] at hr
        rcases List.mem_append.mp hr with hr | hr
        · exact Nat.lt_succ_of_lt (h.below r hr)
        · exact List.mem_singleton.mp hr ▸ Nat.lt_succ_self _
    · obtain rfl := Option.some.inj ht
      exact ⟨q, { h with below := fun r hr => Nat.lt_succ_of_lt (h.below r hr) }⟩
  | insert r =>
    obtain ⟨⟨hdraining, hr⟩, ht⟩ := Option.ite_none_right_eq_some.mp hstep
    obtain rfl := Option.some.inj ht
    exact ⟨q ++ [r], h.insert hdraining hr⟩
  | consume =>
    by_cases hstopped : s.point = .stopped
    · exact absurd hstep (by simp [QueueState.step, QueueState.next, QueueState.consume, hstopped])
    by_cases hdestroyed : s.point = .destroyed
    · exact absurd hstep
        (by simp [QueueState.step, QueueState.next, QueueState.consume, hdestroyed])
    obtain ⟨t', q', hconsume, ht', -⟩ := h.consume hstopped hdestroyed
    obtain rfl : t' = t := Option.some.inj (hconsume.symm.trans hstep)
    exact ⟨q', ht'⟩
  | stop =>
    obtain rfl := Option.some.inj hstep
    exact ⟨q, { h with }⟩
  | drain =>
    obtain ⟨⟨hstart, hdraining⟩, ht⟩ := Option.ite_none_right_eq_some.mp hstep
    obtain rfl := Option.some.inj ht
    -- the thread has ended
    have hpoint : s.point = .stopped :=
      (h.started (eq_false_of_ne_true hstart)).resolve_left hdraining
    obtain ⟨hcontents, hcalled, hreturned, -, -⟩ := h.found hpoint
    exact ⟨q,
      { h with
        contents := hcontents
        called := hcalled
        returned := hreturned
        expects := trivial
        started := fun _ => .inl rfl
        fits := trivial }⟩

/-- The promise is kept. -/
theorem Shape.exactlyOnce (h : Shape s q) : ExactlyOnce s := by
  have hhead {r : ℕ} (hr : q.head? = some r) : [r] <+: q := by
    obtain ⟨rest, rfl⟩ := List.head?_eq_some_iff.mp hr
    exact ⟨rest, rfl⟩
  have hcurrent : s.point.current <+: q := by
    cases hpoint : s.point with
    | handling r => exact hhead (h.found hpoint).2.2.2.1
    | free r => exact hhead (h.found hpoint).2.2.2.1
    | _ => exact List.nil_prefix
  have hfinished : s.point.finished <+: s.point.current := by
    cases s.point with
    | free r => exact List.prefix_refl _
    | _ => exact List.nil_prefix
  refine ⟨h.nodup.of_append_left, ?_, ?_, ?_, ?_, fun hdestroyed => ?_⟩
  · rw [h.called, h.inserted]
    exact (List.prefix_append_right_inj _).mpr hcurrent
  · rw [h.returned, h.called]
    exact (List.prefix_append_right_inj _).mpr hfinished
  · rw [h.returned]
    exact List.prefix_append _ _
  · intro hpoint
    obtain ⟨-, -, -, hexpects, -⟩ := h.found hpoint
    exact hexpects
  · obtain ⟨-, -, -, rfl, -⟩ := h.found hdestroyed
    rw [h.called, h.inserted, hdestroyed]
    exact ⟨rfl, (List.append_nil _).symm⟩

/-- **A consumer that is to end ends**, when nobody calls. -/
theorem Shape.ends (h : Shape s q) (hending : s.draining = true ∨ s.isLoop = false) :
    ∃ t q', Reaches QueueState.step s t ∧ Shape t q' ∧ t.draining = s.draining ∧
      (t.point = .stopped ∨ t.point = .destroyed) := by
  -- every step of the consumer takes some of the weight away
  induction hweight : s.point.weight q.length using Nat.strongRecOn generalizing s q with
  | ind n ih =>
    by_cases hstopped : s.point = .stopped
    · exact ⟨s, q, .refl s, h, rfl, .inl hstopped⟩
    by_cases hdestroyed : s.point = .destroyed
    · exact ⟨s, q, .refl s, h, rfl, .inr hdestroyed⟩
    obtain ⟨u, q', hconsume, hu, hdraining, hloop, hless⟩ := h.consume hstopped hdestroyed
    obtain ⟨t, q'', hrun, ht, hsame, hpoint⟩ :=
      ih _ (hweight ▸ hless hending) hu (by rwa [hdraining, hloop]) rfl
    have hstep : s.step .consume u := hconsume
    exact ⟨t, q'', .head hstep hrun, ht, hsame.trans hdraining, hpoint⟩

/-- **The vector can be drained** from every state: the thread is stopped and ends, and then the
drain does. -/
theorem Shape.drains (h : Shape s q) :
    ∃ t, Reaches QueueState.step s t ∧ t.point = .destroyed := by
  have hstop : s.step .stop { s with isLoop := false } := rfl
  have hquiet : Shape { s with isLoop := false } q := { h with }
  obtain ⟨u, q₁, hrun, hu, -, hpoint | hpoint⟩ := hquiet.ends (.inr rfl)
  · obtain ⟨-, -, -, -, hfits⟩ := hu.found hpoint
    have hdrain : u.step .drain { u with isLoop := false, draining := true, point := .test } := by
      simp [QueueState.step, QueueState.next, hfits.1, hfits.2]
    obtain ⟨q₂, hdraining⟩ := hu.step hdrain
    obtain ⟨t, q₃, hrun', ht, hsame, hpoint' | hpoint'⟩ := hdraining.ends (.inl rfl)
    · obtain ⟨-, -, -, -, hfits'⟩ := ht.found hpoint'
      exact absurd (hsame.symm.trans hfits'.2) (by simp)
    · have hrest : Reaches QueueState.step u t := .head hdrain hrun'
      exact ⟨t, .head hstop (hrun.trans hrest), hpoint'⟩
  · exact ⟨u, .head hstop hrun, hpoint⟩

theorem shape_start : Shape .start [] where
  valid := YangVector.valid_create
  contents := rfl
  inserted := rfl
  called := rfl
  returned := rfl
  expects := trivial
  nodup := List.nodup_nil
  below _ h := absurd h List.not_mem_nil
  started h := absurd h (by decide)
  fits := rfl

/-- **Requests are handled exactly once.** In every run, whoever calls and whenever the thread is
stopped, requests are handled at most once and in the order of the insertions, and freed at most
once and after their handler has returned; the thread can always be stopped and the vector be
drained, and then all of them have been handled. -/
theorem handled_exactly_once (s : QueueState) (h : Reaches QueueState.step .start s) :
    ExactlyOnce s ∧ ∃ t, Reaches QueueState.step s t ∧ t.point = .destroyed := by
  obtain ⟨q, hshape⟩ := h.invariant (P := fun s => ∃ q, Shape s q) ⟨[], shape_start⟩
    fun t a u ⟨_, ht⟩ ha => ht.step ha
  exact ⟨hshape.exactlyOnce, hshape.drains⟩

/-- The step an action leads to. -/
def QueueState.move (s : QueueState) (a : QueueAction) : Option (QueueAction × QueueState) :=
  (s.next a).map (a, ·)

/-- Two requests: the thread is stopped after the first, and the drain handles the second. -/
def stoppedBetween : List QueueAction :=
  [.putMessage, .putMessage, .insert 1] ++ List.replicate 8 QueueAction.consume ++
    [.stop, .consume, .insert 0, .drain] ++ List.replicate 7 QueueAction.consume

/-- Both are handled, in the order in which they were inserted. -/
theorem handled_exactly_once_both :
    ∃ s, s.point = .destroyed ∧ s.called = [1, 0] ∧ ExactlyOnce s := by
  have hplay : (play QueueState.move (fun _ _ => true) stoppedBetween .start).any
      (fun s => s.point = .destroyed ∧ s.called = [1, 0]) = true := by decide +kernel
  obtain ⟨s, hrun, hs⟩ := exists_reaches_of_play (fun _ _ _ _ => next_of_labelled) hplay
  obtain ⟨hpoint, hcalled⟩ := of_decide_eq_true hs
  exact ⟨s, hpoint, hcalled, (handled_exactly_once s (hrun.mono fun _ _ _ ha => ha.2)).1⟩

end Signalling

end YangIpc
