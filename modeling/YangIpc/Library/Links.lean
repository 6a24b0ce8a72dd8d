import Mathlib.Data.List.Basic
import Mathlib.Data.List.Nodup
import Mathlib.Logic.Function.Basic

/-!
# Doubly linked nodes

Nodes that carry the links to the nodes before and behind them, in a heap that gives the links of
every node.  A list of nodes is linked if the links are those of its order; a part of a list is
linked between the node before it and the one behind it.

## Main definitions

* `Link`: the links of a node
* `Linked heap p l q`: the nodes of `l` are linked, behind `p` and before `q`
* `setNext`, `setPrev`: one link is written, if there is a node

## Main results

* `linked_append`: the parts of a linked list
* `Linked.congr`: only the links of its nodes matter
* `Linked.setNext`, `Linked.setPrev`: a linked part is given another neighbour
* `Linked.unlink`: a node is unlinked
-/

namespace Links

variable {α : Type*}

/-- The links of a node. -/
structure Link (α : Type*) where
  next : Option α
  prev : Option α
deriving DecidableEq, Repr

/-- The nodes of a list are linked in its order.  Before the first one is `p`, and behind the last
one `q`. -/
def Linked (heap : α → Link α) : Option α → List α → Option α → Prop
  | _, [], _ => True
  | p, x :: rest, q =>
    (heap x).prev = p ∧ (heap x).next = rest.head?.or q ∧ Linked heap (some x) rest q

variable {heap heap' : α → Link α} {p q v : Option α} {l l' : List α} {x y : α}

/-! ## Parts of a list -/

/-- **The parts of a linked list** are linked to each other. -/
theorem linked_append :
    Linked heap p (l ++ l') q ↔
      Linked heap p l (l'.head?.or q) ∧ Linked heap (l.getLast?.or p) l' q := by
  induction l generalizing p with
  | nil => simp [Linked]
  | cons x rest ih =>
    have hnext : (rest ++ l').head?.or q = rest.head?.or (l'.head?.or q) := by
      rw [List.head?_append, Option.or_assoc]
    have hlast : (x :: rest).getLast?.or p = rest.getLast?.or (some x) := by
      rw [List.getLast?_cons]
      cases rest.getLast? <;> rfl
    simp only [List.cons_append, Linked, hnext, hlast, ih, and_assoc]

/-- Only the links of its nodes matter. -/
theorem Linked.congr (h : Linked heap p l q) (hsame : ∀ x ∈ l, heap' x = heap x) :
    Linked heap' p l q := by
  induction l generalizing p with
  | nil => trivial
  | cons x rest ih =>
    obtain ⟨hprev, hnext, hrest⟩ := h
    have hx := hsame x List.mem_cons_self
    exact ⟨by rw [hx, hprev], by rw [hx, hnext],
      ih hrest fun y hy => hsame y (List.mem_cons_of_mem x hy)⟩

/-- The links of a node of a list. -/
theorem Linked.links (h : Linked heap p (l ++ x :: l') q) :
    heap x = ⟨l'.head?.or q, l.getLast?.or p⟩ := by
  obtain ⟨-, hprev, hnext, -⟩ := linked_append.mp h
  rw [← hprev, ← hnext]

/-! ## Writing a link -/

variable [DecidableEq α]

/-- The link of a node to the next one is written. -/
def setNext (heap : α → Link α) (x value : Option α) : α → Link α :=
  match x with
  | some x => Function.update heap x { heap x with next := value }
  | none => heap

/-- The link of a node to the one before it is written. -/
def setPrev (heap : α → Link α) (x value : Option α) : α → Link α :=
  match x with
  | some x => Function.update heap x { heap x with prev := value }
  | none => heap

@[simp] theorem setNext_none : setNext heap none v = heap := rfl

@[simp] theorem setPrev_none : setPrev heap none v = heap := rfl

theorem setNext_of_ne {o : Option α} (h : o ≠ some y) : setNext heap o v y = heap y := by
  cases o with
  | none => rfl
  | some x => exact Function.update_of_ne (fun hyx => h (congrArg some hyx.symm)) _ _

theorem setPrev_of_ne {o : Option α} (h : o ≠ some y) : setPrev heap o v y = heap y := by
  cases o with
  | none => rfl
  | some x => exact Function.update_of_ne (fun hyx => h (congrArg some hyx.symm)) _ _

@[simp] theorem setNext_self : setNext heap (some x) v x = ⟨v, (heap x).prev⟩ :=
  Function.update_self ..

@[simp] theorem setPrev_self : setPrev heap (some x) v x = ⟨(heap x).next, v⟩ :=
  Function.update_self ..

/-- **Another node behind the last one.** -/
theorem Linked.setNext (h : Linked heap p l q) (hnodup : l.Nodup) :
    Linked (setNext heap l.getLast? v) p l v := by
  rcases List.eq_nil_or_concat l with rfl | ⟨init, x, rfl⟩
  · trivial
  · rw [List.concat_eq_append] at h hnodup ⊢
    obtain ⟨hinit, hprev, -, -⟩ := linked_append.mp h
    rw [List.getLast?_append_cons, List.getLast?_singleton]
    refine linked_append.mpr ⟨hinit.congr fun y hy => setNext_of_ne ?_, ?_, ?_, trivial⟩
    · rintro ⟨⟩
      exact (List.nodup_append.mp hnodup).2.2 x hy x List.mem_cons_self rfl
    · rw [setNext_self, hprev]
    · rw [setNext_self]
      rfl

/-- **Another node before the first one.** -/
theorem Linked.setPrev (h : Linked heap p l q) (hnodup : l.Nodup) :
    Linked (setPrev heap l.head? v) v l q := by
  cases l with
  | nil => trivial
  | cons x rest =>
    obtain ⟨-, hnext, hrest⟩ := h
    refine ⟨?_, ?_, hrest.congr fun y hy => setPrev_of_ne ?_⟩
    · rw [List.head?_cons, setPrev_self]
    · rw [List.head?_cons, setPrev_self, hnext]
    · rintro ⟨⟩
      exact (List.nodup_cons.mp hnodup).1 hy

/-- **A node is unlinked**: the nodes before and behind it are linked to each other. -/
theorem Linked.unlink (h : Linked heap p (l ++ x :: l') q) (hnodup : (l ++ x :: l').Nodup) :
    Linked (Links.setPrev (Links.setNext heap l.getLast? (l'.head?.or q)) l'.head?
      (l.getLast?.or p)) p (l ++ l') q := by
  obtain ⟨hl, hrest, hapart⟩ := List.nodup_append.mp hnodup
  have hl' : l'.Nodup := (List.nodup_cons.mp hrest).2
  obtain ⟨hbefore, -, -, hbehind⟩ := linked_append.mp h
  refine linked_append.mpr ⟨?_, ?_⟩
  · refine (hbefore.setNext hl).congr fun y hy => setPrev_of_ne fun hfirst => ?_
    exact hapart y hy y (List.mem_cons_of_mem x (List.mem_of_head? hfirst)) rfl
  · refine Linked.setPrev (hbehind.congr fun y hy => setNext_of_ne fun hlast => ?_) hl'
    exact hapart y (List.mem_of_getLast? hlast) y (List.mem_cons_of_mem x hy) rfl

end Links
