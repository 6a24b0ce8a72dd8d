import YangIpc.FrameQueue.State
import YangIpc.Library.Links

/-!
# The lists in memory

`frame_list_t` of `frame_que_v2.c` with its pointers: a list has a `head`, a `tail` and a `count`,
and the nodes carry `next` and `prev`.  The other modules take a list to be the sequence of its
nodes, which is what the functions below are shown to work on.

## Main definitions

* `ListMemory`: the links of the nodes, and the lists
* `frameListAddTailNolock`, `frameListAddHeadNolock`, `frameListRemoveNolock`, `frameListPopHead`:
  the functions
* `Represents`: a well-formed list, and its sequence

## Main results

* `addTail_refines`, `addHead_refines`, `remove_refines`, `popHead_refines`: each function
* `lists_refine_sequences`: all of them
* `abstracts_addTail`, `abstracts_addHead`, `abstracts_remove`: the functions of the other modules
-/

namespace YangIpc

namespace FrameQueue

namespace Intrusive

open Links

/-! ## Memory -/

/-- A pointer that is not `NULL`. -/
abbrev Pointer := { address : UInt32 // address ≠ 0 }

/-- `frame_list_t`. -/
structure FrameListT where
  head : Option Pointer
  tail : Option Pointer
  count : UInt32
deriving DecidableEq

/-- The links of the nodes, and the lists. -/
structure ListMemory where
  node : Pointer → Link Pointer
  list : Pointer → FrameListT

namespace ListMemory

variable (mem : ListMemory)

/-- `x->next = value`, unless `x` is `NULL`. -/
@[simps -fullyApplied] def setNext (x value : Option Pointer) : ListMemory :=
  { mem with node := Links.setNext mem.node x value }

/-- `x->prev = value`, unless `x` is `NULL`. -/
@[simps -fullyApplied] def setPrev (x value : Option Pointer) : ListMemory :=
  { mem with node := Links.setPrev mem.node x value }

/-- `list->head = value`. -/
@[simps -fullyApplied] def setHead (list : Pointer) (value : Option Pointer) : ListMemory :=
  { mem with list := Function.update mem.list list { mem.list list with head := value } }

/-- `list->tail = value`. -/
@[simps -fullyApplied] def setTail (list : Pointer) (value : Option Pointer) : ListMemory :=
  { mem with list := Function.update mem.list list { mem.list list with tail := value } }

/-- `list->count = value`. -/
@[simps -fullyApplied] def setCount (list : Pointer) (value : UInt32) : ListMemory :=
  { mem with list := Function.update mem.list list { mem.list list with count := value } }

end ListMemory

/-! ## The functions -/

section Functions

variable (mem : ListMemory)

/-- `frame_list_add_tail_nolock`. -/
def frameListAddTailNolock : Option Pointer → Option Pointer → ListMemory
  | some list, some node =>
    let mem := mem.setNext node none
    let mem := mem.setPrev node (mem.list list).tail
    let mem := mem.setNext (mem.list list).tail node
    let mem := mem.setTail list node
    let mem := if (mem.list list).head = none then mem.setHead list node else mem
    mem.setCount list ((mem.list list).count + 1)
  | _, _ => mem

/-- `frame_list_add_head_nolock`. -/
def frameListAddHeadNolock : Option Pointer → Option Pointer → ListMemory
  | some list, some node =>
    let mem := mem.setNext node (mem.list list).head
    let mem := mem.setPrev node none
    let mem := mem.setPrev (mem.list list).head node
    let mem := mem.setHead list node
    let mem := if (mem.list list).tail = none then mem.setTail list node else mem
    mem.setCount list ((mem.list list).count + 1)
  | _, _ => mem

/-- `frame_list_remove_nolock`. -/
def frameListRemoveNolock : Option Pointer → Option Pointer → ListMemory
  | some list, some node =>
    let mem :=
      match (mem.node node).prev with
      | some prev => mem.setNext prev (mem.node node).next
      | none => mem.setHead list (mem.node node).next
    let mem :=
      match (mem.node node).next with
      | some next => mem.setPrev next (mem.node node).prev
      | none => mem.setTail list (mem.node node).prev
    let mem := mem.setCount list ((mem.list list).count - 1)
    let mem := mem.setNext node none
    mem.setPrev node none
  | _, _ => mem

/-- `frame_list_pop_head`, between the start and the end of its critical section. -/
def frameListPopHead : Option Pointer → Option Pointer × ListMemory
  | none => (none, mem)
  | some list =>
    match (mem.list list).head with
    | none => (none, mem)
    | some node =>
      let mem := mem.setHead list (mem.node node).next
      let mem :=
        match (mem.list list).head with
        | some head => mem.setPrev head none
        | none => mem.setTail list none
      let mem := mem.setCount list ((mem.list list).count - 1)
      let mem := mem.setNext node none
      (some node, mem.setPrev node none)

end Functions

/-! ## Well-formed lists -/

/-- A list is well formed, and its nodes from `head` to `tail` are those of `s`. -/
structure Represents (mem : ListMemory) (list : Pointer) (s : List Pointer) : Prop where
  head : (mem.list list).head = s.head?
  tail : (mem.list list).tail = s.getLast?
  count : (mem.list list).count.toNat = s.length
  linked : Linked mem.node none s none
  nodup : s.Nodup

/-- A step of a list that writes no links but those of the nodes of `s`. -/
structure Confined (mem mem' : ListMemory) (list : Pointer) (s : List Pointer) : Prop where
  node : ∀ x, x ∉ s → mem'.node x = mem.node x
  list : ∀ other, other ≠ list → mem'.list other = mem.list other

/-- A step of a list, on the nodes of `s`, after which the list is `t`.  Any other list that has
none of these nodes is untouched: its `frame_list_t` and its links are what they were. -/
structure Refines (mem mem' : ListMemory) (list : Pointer) (s t : List Pointer) : Prop where
  represents : Represents mem' list t
  untouched : ∀ other, other ≠ list → ∀ r, Represents mem other r → (∀ x ∈ r, x ∉ s) →
    Represents mem' other r ∧ mem'.list other = mem.list other ∧
      ∀ x ∈ r, mem'.node x = mem.node x

section Refinement

variable {mem : ListMemory} {list node : Pointer} {s t : List Pointer}

/-- There are fewer nodes than addresses. -/
theorem length_lt_of_nodup (h : s.Nodup) : s.length < 4294967296 := by
  have hnodup : (s.map fun x => x.val.toNat).Nodup :=
    h.map fun x y hxy => Subtype.ext (UInt32.toNat_inj.mp hxy)
  have hsub : (s.map fun x => x.val.toNat) ⊆ List.range' 1 4294967295 := by
    intro a ha
    obtain ⟨x, -, rfl⟩ := List.mem_map.mp ha
    have hne : x.val.toNat ≠ 0 := fun hzero => x.property (UInt32.toNat_inj.mp hzero)
    have hlt := x.val.toNat_lt
    rw [List.mem_range'_1]
    omega
  -- the addresses are different numbers that are not zero, so the count does not overflow
  have hle := (List.subperm_of_subset hnodup hsub).length_le
  rw [List.length_map, List.length_range'] at hle
  omega

/-! ### At the ends -/

theorem addTail_node :
    (frameListAddTailNolock mem list node).node =
      Links.setNext (Links.setPrev (Links.setNext mem.node node none) node (mem.list list).tail)
        (mem.list list).tail node := by
  simp only [frameListAddTailNolock]
  split <;> rfl

theorem addTail_list :
    (frameListAddTailNolock mem list node).list = Function.update mem.list list
      ⟨(mem.list list).head.or node, node, (mem.list list).count + 1⟩ := by
  cases hhead : (mem.list list).head <;> simp [frameListAddTailNolock, hhead]

theorem addHead_node :
    (frameListAddHeadNolock mem list node).node =
      Links.setPrev (Links.setPrev (Links.setNext mem.node node (mem.list list).head) node none)
        (mem.list list).head node := by
  simp only [frameListAddHeadNolock]
  split <;> rfl

theorem addHead_list :
    (frameListAddHeadNolock mem list node).list = Function.update mem.list list
      ⟨node, (mem.list list).tail.or node, (mem.list list).count + 1⟩ := by
  cases htail : (mem.list list).tail <;> simp [frameListAddHeadNolock, htail]

/-- One node more is counted. -/
theorem toNat_count_add_one (h : Represents mem list s) (hnode : node ∉ s) :
    ((mem.list list).count + 1).toNat = s.length + 1 := by
  have hlt := length_lt_of_nodup (List.nodup_cons.mpr ⟨hnode, h.nodup⟩)
  rw [List.length_cons] at hlt
  rw [UInt32.toNat_add, h.count]
  exact Nat.mod_eq_of_lt hlt

/-- **A node is added at the tail.** -/
theorem addTail_represents (h : Represents mem list s) (hnode : node ∉ s) :
    Represents (frameListAddTailNolock mem list node) list (s ++ [node]) := by
  have htail : (mem.list list).tail ≠ some node := fun hlast =>
    hnode (List.mem_of_getLast? (h.tail.symm.trans hlast))
  have hnodup : (s ++ [node]).Nodup :=
    List.nodup_append_comm.mp (List.nodup_cons.mpr ⟨hnode, h.nodup⟩)
  refine ⟨?_, ?_, ?_, ?_, hnodup⟩
  · rw [addTail_list, Function.update_self, h.head, List.head?_append]
    rfl
  · rw [addTail_list, Function.update_self, List.getLast?_concat]
  · rw [addTail_list, Function.update_self, List.length_append]
    exact toNat_count_add_one h hnode
  · rw [addTail_node, linked_append]
    constructor
    · rw [h.tail]
      refine Linked.setNext (h.linked.congr fun x hx => ?_) h.nodup
      have hne : some node ≠ some x := fun heq => hnode (Option.some.inj heq ▸ hx)
      rw [setPrev_of_ne hne, setNext_of_ne hne]
    · refine ⟨?_, ?_, trivial⟩
      · rw [setNext_of_ne htail, setPrev_self, h.tail, Option.or_none]
      · rw [setNext_of_ne htail, setPrev_self, setNext_self]
        rfl

/-- **A node is added at the head.** -/
theorem addHead_represents (h : Represents mem list s) (hnode : node ∉ s) :
    Represents (frameListAddHeadNolock mem list node) list (node :: s) := by
  have hhead : (mem.list list).head ≠ some node := fun hfirst =>
    hnode (List.mem_of_head? (h.head.symm.trans hfirst))
  refine ⟨?_, ?_, ?_, ?_, List.nodup_cons.mpr ⟨hnode, h.nodup⟩⟩
  · rw [addHead_list, Function.update_self, List.head?_cons]
  · rw [addHead_list, Function.update_self, h.tail, List.getLast?_cons]
    cases s.getLast? <;> rfl
  · rw [addHead_list, Function.update_self, List.length_cons]
    exact toNat_count_add_one h hnode
  · rw [addHead_node]
    refine ⟨?_, ?_, ?_⟩
    · rw [setPrev_of_ne hhead, setPrev_self]
    · rw [setPrev_of_ne hhead, setPrev_self, setNext_self, h.head, Option.or_none]
    · rw [h.head]
      refine Linked.setPrev (h.linked.congr fun x hx => ?_) h.nodup
      have hne : some node ≠ some x := fun heq => hnode (Option.some.inj heq ▸ hx)
      rw [setPrev_of_ne hne, setNext_of_ne hne]

/-! ### Anywhere -/

section Remove

variable {next prev : Option Pointer}

theorem remove_node (h : mem.node node = ⟨next, prev⟩) (hprev : prev ≠ some node) :
    (frameListRemoveNolock mem list node).node =
      Links.setPrev (Links.setNext (Links.setPrev (Links.setNext mem.node prev next) next prev)
        node none) node none := by
  -- the function reads the links of the node again behind the first write
  have hsame : Links.setNext mem.node prev next node = ⟨next, prev⟩ :=
    (setNext_of_ne hprev).trans h
  cases prev with
  | none => cases next <;> simp [frameListRemoveNolock, h]
  | some prev => cases next <;> simp [frameListRemoveNolock, h, hsame]

theorem remove_list (h : mem.node node = ⟨next, prev⟩) (hprev : prev ≠ some node) :
    (frameListRemoveNolock mem list node).list = Function.update mem.list list
      ⟨if prev = none then next else (mem.list list).head,
        if next = none then prev else (mem.list list).tail, (mem.list list).count - 1⟩ := by
  have hsame : Links.setNext mem.node prev next node = ⟨next, prev⟩ :=
    (setNext_of_ne hprev).trans h
  cases prev with
  | none => cases next <;> simp [frameListRemoveNolock, h]
  | some prev => cases next <;> simp [frameListRemoveNolock, h, hsame]

end Remove

/-- **A node is removed**, between those before and behind it. -/
theorem remove_represents {front back : List Pointer}
    (h : Represents mem list (front ++ node :: back)) :
    Represents (frameListRemoveNolock mem list node) list (front ++ back) := by
  obtain ⟨hfront, hrest, hapart⟩ := List.nodup_append.mp h.nodup
  obtain ⟨hnode, hback⟩ := List.nodup_cons.mp hrest
  have hlinks := h.linked.links
  rw [Option.or_none, Option.or_none] at hlinks
  have hlast : front.getLast? ≠ some node := fun hlast =>
    hapart node (List.mem_of_getLast? hlast) node List.mem_cons_self rfl
  refine ⟨?_, ?_, ?_, ?_, List.nodup_append.mpr ⟨hfront, hback, fun x hx y hy =>
    hapart x hx y (List.mem_cons_of_mem node hy)⟩⟩
  · rw [remove_list hlinks hlast, Function.update_self, h.head]
    cases front <;> simp
  · rw [remove_list hlinks hlast, Function.update_self, h.tail]
    cases back <;> simp
  · have hcount := h.count
    rw [List.length_append, List.length_cons] at hcount
    rw [remove_list hlinks hlast, Function.update_self, UInt32.toNat_sub_of_le, hcount,
      List.length_append]
    · rfl
    · rw [UInt32.le_iff_toNat_le, hcount]
      exact Nat.le_add_left 1 _
  · rw [remove_node hlinks hlast]
    -- the neighbours are linked with each other
    have hunlinked := h.linked.unlink h.nodup
    rw [Option.or_none, Option.or_none] at hunlinked
    -- the links of the removed node are written last, and it is in the list no more
    refine hunlinked.congr fun x hx => ?_
    have hne : some node ≠ some x := by
      rintro ⟨⟩
      rcases List.mem_append.mp hx with hx | hx
      · exact hapart node hx node List.mem_cons_self rfl
      · exact hnode hx
    rw [setPrev_of_ne hne, setNext_of_ne hne]

/-- Popping the head is removing it. -/
theorem popHead_eq (h : Represents mem list (node :: s)) :
    frameListPopHead mem list = (some node, frameListRemoveNolock mem list node) := by
  have hhead : (mem.list list).head = some node := h.head
  have hlinks : mem.node node = ⟨s.head?.or none, none⟩ := h.linked.links (l := [])
  cases hnext : s.head? with
  | none =>
    rw [hnext] at hlinks
    simp [frameListPopHead, frameListRemoveNolock, hhead, hlinks]
  | some next =>
    rw [hnext] at hlinks
    simp [frameListPopHead, frameListRemoveNolock, hhead, hlinks]

/-! ### Other lists -/

theorem Confined.refines {mem' : ListMemory} (h : Confined mem mem' list s)
    (ht : Represents mem' list t) : Refines mem mem' list s t := by
  refine ⟨ht, fun other hother r hr hapart => ?_⟩
  have hlist := h.list other hother
  have hnode : ∀ x ∈ r, mem'.node x = mem.node x := fun x hx => h.node x (hapart x hx)
  refine ⟨⟨?_, ?_, ?_, hr.linked.congr hnode, hr.nodup⟩, hlist, hnode⟩
  · rw [hlist, hr.head]
  · rw [hlist, hr.tail]
  · rw [hlist, hr.count]

theorem addTail_confined (h : Represents mem list s) :
    Confined mem (frameListAddTailNolock mem list node) list (s ++ [node]) := by
  refine ⟨fun x hx => ?_, fun other hother => ?_⟩
  · rw [List.mem_append, List.mem_singleton, not_or] at hx
    have hnode : some node ≠ some x := fun heq => hx.2 (Option.some.inj heq).symm
    have htail : (mem.list list).tail ≠ some x := fun hlast =>
      hx.1 (List.mem_of_getLast? (h.tail.symm.trans hlast))
    rw [addTail_node, setNext_of_ne htail, setPrev_of_ne hnode, setNext_of_ne hnode]
  · rw [addTail_list, Function.update_of_ne hother]

theorem addHead_confined (h : Represents mem list s) :
    Confined mem (frameListAddHeadNolock mem list node) list (node :: s) := by
  refine ⟨fun x hx => ?_, fun other hother => ?_⟩
  · rw [List.mem_cons, not_or] at hx
    have hnode : some node ≠ some x := fun heq => hx.1 (Option.some.inj heq).symm
    have hhead : (mem.list list).head ≠ some x := fun hfirst =>
      hx.2 (List.mem_of_head? (h.head.symm.trans hfirst))
    rw [addHead_node, setPrev_of_ne hhead, setPrev_of_ne hnode, setNext_of_ne hnode]
  · rw [addHead_list, Function.update_of_ne hother]

theorem remove_confined {front back : List Pointer}
    (h : Represents mem list (front ++ node :: back)) :
    Confined mem (frameListRemoveNolock mem list node) list (front ++ node :: back) := by
  have hlinks := h.linked.links
  rw [Option.or_none, Option.or_none] at hlinks
  have hlast : front.getLast? ≠ some node := fun hlast =>
    (List.nodup_append.mp h.nodup).2.2 node (List.mem_of_getLast? hlast) node List.mem_cons_self
      rfl
  refine ⟨fun x hx => ?_, fun other hother => ?_⟩
  · rw [List.mem_append, List.mem_cons, not_or, not_or] at hx
    have hnode : some node ≠ some x := fun heq => hx.2.1 (Option.some.inj heq).symm
    have hprev : front.getLast? ≠ some x := fun hprev => hx.1 (List.mem_of_getLast? hprev)
    have hnext : back.head? ≠ some x := fun hnext => hx.2.2 (List.mem_of_head? hnext)
    rw [remove_node hlinks hlast, setPrev_of_ne hnode, setNext_of_ne hnode, setPrev_of_ne hnext,
      setNext_of_ne hprev]
  · rw [remove_list hlinks hlast, Function.update_of_ne hother]

/-! ### The functions -/

theorem addTail_refines (h : Represents mem list s) (hnode : node ∉ s) :
    Refines mem (frameListAddTailNolock mem list node) list (s ++ [node]) (s ++ [node]) :=
  (addTail_confined h).refines (addTail_represents h hnode)

theorem addHead_refines (h : Represents mem list s) (hnode : node ∉ s) :
    Refines mem (frameListAddHeadNolock mem list node) list (node :: s) (node :: s) :=
  (addHead_confined h).refines (addHead_represents h hnode)

theorem remove_refines (h : Represents mem list s) (hnode : node ∈ s) :
    Refines mem (frameListRemoveNolock mem list node) list s (s.erase node) := by
  obtain ⟨front, back, rfl⟩ := List.append_of_mem hnode
  have hfront : node ∉ front := fun hfront =>
    (List.nodup_append.mp h.nodup).2.2 node hfront node List.mem_cons_self rfl
  rw [List.erase_append_right _ hfront, List.erase_cons_head]
  exact (remove_confined h).refines (remove_represents h)

theorem popHead_refines (h : Represents mem list s) :
    (frameListPopHead mem list).1 = s.head? ∧
      Refines mem (frameListPopHead mem list).2 list s s.tail := by
  cases s with
  | nil =>
    have hhead : (mem.list list).head = none := h.head
    have hempty : frameListPopHead mem list = (none, mem) := by
      simp [frameListPopHead, hhead]
    rw [hempty]
    exact ⟨rfl, h, fun other _ r hr _ => ⟨hr, rfl, fun _ _ => rfl⟩⟩
  | cons node rest =>
    have hremoved := remove_refines h List.mem_cons_self
    rw [List.erase_cons_head] at hremoved
    rw [popHead_eq h]
    exact ⟨rfl, hremoved⟩

end Refinement

/-- **The lists are sequences**: a node that is added comes last or first, a node that is removed
is erased, and the first one is popped. -/
theorem lists_refine_sequences (mem : ListMemory) (list : Pointer) (s : List Pointer)
    (h : Represents mem list s) :
    (∀ node, node ∉ s →
      Refines mem (frameListAddTailNolock mem list node) list (s ++ [node]) (s ++ [node]) ∧
      Refines mem (frameListAddHeadNolock mem list node) list (node :: s) (node :: s)) ∧
    (∀ node ∈ s, Refines mem (frameListRemoveNolock mem list node) list s (s.erase node)) ∧
    (frameListPopHead mem list).1 = s.head? ∧
      Refines mem (frameListPopHead mem list).2 list s s.tail :=
  ⟨fun _ hnode => ⟨addTail_refines h hnode, addHead_refines h hnode⟩,
    fun _ hnode => remove_refines h hnode, popHead_refines h⟩

/-- Memory without nodes in lists. -/
def unlinked : ListMemory := ⟨fun _ => ⟨none, none⟩, fun _ => ⟨none, none, 0⟩⟩

/-- Two nodes are added to the list at the address 16. -/
def twoNodes : ListMemory :=
  frameListAddTailNolock (frameListAddTailNolock unlinked (some ⟨16, by decide⟩)
    (some ⟨64, by decide⟩)) (some ⟨16, by decide⟩) (some ⟨128, by decide⟩)

theorem represents_twoNodes :
    Represents twoNodes ⟨16, by decide⟩ [⟨64, by decide⟩, ⟨128, by decide⟩] :=
  have hempty : Represents unlinked ⟨16, by decide⟩ [] := ⟨rfl, rfl, rfl, trivial, List.nodup_nil⟩
  addTail_represents (addTail_represents hempty List.not_mem_nil) (by decide)

theorem lists_refine_sequences_twoNodes :
    let list : Pointer := ⟨16, by decide⟩
    let s : List Pointer := [⟨64, by decide⟩, ⟨128, by decide⟩]
    (∀ node, node ∉ s →
      Refines twoNodes (frameListAddTailNolock twoNodes list node) list (s ++ [node])
        (s ++ [node]) ∧
      Refines twoNodes (frameListAddHeadNolock twoNodes list node) list (node :: s)
        (node :: s)) ∧
    (∀ node ∈ s, Refines twoNodes (frameListRemoveNolock twoNodes list node) list s
      (s.erase node)) ∧
    (frameListPopHead twoNodes list).1 = s.head? ∧
      Refines twoNodes (frameListPopHead twoNodes list).2 list s s.tail :=
  lists_refine_sequences twoNodes ⟨16, by decide⟩ _ represents_twoNodes

/-! ## The sequences of the queue -/

/-- The address of a node, as the other modules name it. -/
def Pointer.id (x : Pointer) : NodeId := x.val.toNat

theorem Pointer.id_injective : Function.Injective Pointer.id := fun _ _ h =>
  Subtype.ext (UInt32.toNat_inj.mp h)

/-- A list in memory is well formed and stands for a sequence with its count. -/
def Abstracts (mem : ListMemory) (list : Pointer) (l : FrameList) : Prop :=
  ∃ s, Represents mem list s ∧ l = ⟨s.map Pointer.id, s.length⟩

section Abstracts

variable {mem : ListMemory} {list node : Pointer} {l : FrameList}

/-- **The functions on sequences** are what those in memory do. -/
theorem abstracts_addTail (h : Abstracts mem list l) (hnode : node.id ∉ l.nodes) :
    Abstracts (frameListAddTailNolock mem list node) list
      (FrameQueue.frameListAddTailNolock l node.id) := by
  obtain ⟨s, hs, rfl⟩ := h
  have hnot : node ∉ s := fun hmem => hnode (List.mem_map_of_mem hmem)
  refine ⟨s ++ [node], addTail_represents hs hnot, ?_⟩
  simp [FrameQueue.frameListAddTailNolock]

theorem abstracts_addHead (h : Abstracts mem list l) (hnode : node.id ∉ l.nodes) :
    Abstracts (frameListAddHeadNolock mem list node) list
      (FrameQueue.frameListAddHeadNolock l node.id) := by
  obtain ⟨s, hs, rfl⟩ := h
  have hnot : node ∉ s := fun hmem => hnode (List.mem_map_of_mem hmem)
  exact ⟨node :: s, addHead_represents hs hnot, rfl⟩

theorem abstracts_remove (h : Abstracts mem list l) (hnode : node.id ∈ l.nodes) :
    Abstracts (frameListRemoveNolock mem list node) list
      (FrameQueue.frameListRemoveNolock l node.id) := by
  obtain ⟨s, hs, rfl⟩ := h
  have hmem : node ∈ s := (List.mem_map_of_injective Pointer.id_injective).mp hnode
  refine ⟨s.erase node, (remove_refines hs hmem).represents, ?_⟩
  simp [FrameQueue.frameListRemoveNolock, List.map_erase Pointer.id_injective,
    List.length_erase_of_mem hmem]

end Abstracts

end Intrusive

end FrameQueue

end YangIpc
