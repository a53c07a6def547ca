import ApiDocs.Program.Encode
import Mathlib.Order.Bounds.Basic

/-!
# Parents follow from the nodes

An arena keeps the parent of each node beside the nodes, and every node that is added takes over
those of its children that are already there.  Nothing keeps a caller from naming a child twice,
from naming one that another node has, or from naming the node itself or one that is added later.
In each case **the parent of a node is the last node behind it that lists it**, so the parents say
nothing that the nodes do not.

## Main definitions

* `Arena.Call`, `Arena.build` — the calls that build an arena, and the arena they build.
* `Arena.Lists`, `Arena.listersBehind` — the nodes that list a child.
* `Arena.Linked` — the parent of a node is the last one behind it that lists it.
* `Arena.Addressed`, `Arena.FollowsNodes` — every node has an index, and what follows for indexes.
* `Json.numerals` — the natural numbers of a document, from left to right.

## Main statements

* `parent_add`, `lists_setFlags` — what a call does to parents and children.
* `Linked.make`, `build_linked` — what one call keeps, and what all calls together keep.
* `children_written` — the children of a node are the indexes that are written for it.
* `parents_follow_nodes` — the parents of every arena that calls can build.

## Design notes

**Places are natural numbers, indexes are words.**  Which node is the last one is a matter of
places, and `Linked` holds of arenas of any size.  An index leads back to its place only while there
are no more nodes than indexes, so walks along parents are left to arenas that are `Addressed`.
-/

namespace ApiDocs

/-! ## Indexes -/

namespace NodeIndex

theorem isPresent_iff {index : NodeIndex} : index.isPresent = true ↔ index ≠ absent := by
  simp [isPresent]

theorem toNat_ofNat {place : Nat} (small : place < absent.toNat) : (ofNat place).toNat = place := by
  have inWord : place < 2 ^ 32 := Nat.lt_trans small (by decide)
  exact Nat.mod_eq_of_lt inWord

theorem ofNat_ne_absent {place : Nat} (small : place < absent.toNat) : ofNat place ≠ absent := by
  intro same
  have back := toNat_ofNat small
  rw [same] at back
  exact Nat.lt_irrefl _ (back ▸ small)

end NodeIndex

namespace Arena

/-! ## Calls -/

/-- A call that builds an arena. -/
inductive Call where
  /-- Adds a node. -/
  | node (node : Node)
  /-- Adds a node without flags. -/
  | parts (kind : Kind) (start stop : UInt32) (payload : Payload)
  /-- Sets flags of a node. -/
  | flags (index : NodeIndex) (flags : UInt16)

/-- The arena after a call. -/
def make (arena : Arena) : Call → Arena
  | .node node => (arena.add node).2
  | .parts kind start stop payload => (arena.add { kind, start, stop, payload }).2
  | .flags index flags => arena.setFlags index flags

/-- The arena that a list of calls builds. -/
def build (calls : List Call) : Arena :=
  calls.foldl make {}

/-- The node at a place lists a child. -/
def Lists (arena : Arena) (place : Nat) (child : NodeIndex) : Prop :=
  ∃ node, arena.nodes[place]? = some node ∧ child ∈ node.payload.children

/-- The places behind a child at which a node lists it. -/
def listersBehind (arena : Arena) (child : NodeIndex) : Set Nat :=
  { place | child.toNat < place ∧ arena.Lists place child }

variable {arena : Arena} {node : Node} {child : NodeIndex} {place : Nat}

theorem Lists.lt_size (lists : arena.Lists place child) : place < arena.nodes.size := by
  obtain ⟨node, found, -⟩ := lists
  obtain ⟨inside, -⟩ := Array.getElem?_eq_some_iff.1 found
  exact inside

/-! ## Adding a node -/

@[simp] theorem size_linkChildren (parents : Array NodeIndex) (index : NodeIndex)
    (children : List NodeIndex) : (linkChildren parents index children).size = parents.size := by
  induction children generalizing parents with
  | nil => rfl
  | cons first children ih =>
      rw [linkChildren, List.foldl_cons]
      exact (ih _).trans Array.size_modify

/-- Linking puts the new node in the places of its children, as far as there are such places. -/
theorem getElem?_linkChildren (parents : Array NodeIndex) (index : NodeIndex)
    (children : List NodeIndex) (child : NodeIndex) :
    (linkChildren parents index children)[child.toNat]? =
      if child ∈ children then parents[child.toNat]?.map fun _ => index
      else parents[child.toNat]? := by
  induction children generalizing parents with
  | nil => simp [linkChildren]
  | cons first children ih =>
      rw [linkChildren, List.foldl_cons]
      refine (ih _).trans ?_
      rw [Array.getElem?_modify]
      by_cases here : first.toNat = child.toNat
      · obtain rfl : first = child := NodeIndex.toNat_injective here
        simp [Function.comp_def]
      · have different : child ≠ first := fun same => here (congrArg NodeIndex.toNat same.symm)
        simp [here, different]

/-- The parents after a node was added. -/
theorem parent_add (sizes : arena.parents.size = arena.nodes.size) :
    (arena.add node).2.parent child =
      if child.toNat < arena.nodes.size ∧ child ∈ node.payload.children then
        .ofNat arena.nodes.size
      else arena.parent child := by
  by_cases isPresent : child.isPresent = true
  · simp only [parent, add, isPresent, if_true, Array.getElem?_push, size_linkChildren, sizes,
      getElem?_linkChildren]
    rcases Nat.lt_trichotomy child.toNat arena.nodes.size with before | here | behind
    · by_cases isChild : child ∈ node.payload.children
      · simp [before, isChild, Nat.ne_of_lt before, sizes]
      · simp [isChild, Nat.ne_of_lt before]
    · simp [here, sizes]
    · have outside : arena.parents.size ≤ child.toNat := sizes ▸ Nat.le_of_lt behind
      simp [Nat.ne_of_gt behind, Nat.lt_asymm behind, outside]
  · have noChild : child ∉ node.payload.children := fun isChild =>
      isPresent (List.mem_filter.1 isChild).2
    simp [parent, isPresent, noChild]

/-- What is listed after a node was added. -/
theorem lists_add :
    (arena.add node).2.Lists place child ↔
      arena.Lists place child ∨ place = arena.nodes.size ∧ child ∈ node.payload.children := by
  simp only [Lists, add, Array.getElem?_push]
  by_cases here : place = arena.nodes.size
  · simp [here]
  · simp [here]

/-! ## Setting flags -/

theorem size_setFlags (index : NodeIndex) (flags : UInt16) :
    (arena.setFlags index flags).nodes.size = arena.nodes.size := by
  rw [setFlags]
  split
  · exact Array.size_modify
  · rfl

theorem parents_setFlags (index : NodeIndex) (flags : UInt16) :
    (arena.setFlags index flags).parents = arena.parents := by
  rw [setFlags]
  split <;> rfl

/-- Flags are no part of the data, so they list nothing. -/
theorem lists_setFlags (index : NodeIndex) (flags : UInt16) :
    (arena.setFlags index flags).Lists place child ↔ arena.Lists place child := by
  rw [setFlags]
  split
  · simp only [Lists, Array.getElem?_modify]
    split <;> simp
  · rfl

/-! ## Any calls -/

/-- What every call keeps: there are as many parents as nodes, and the parent of a node is the last
one behind it that lists it. -/
structure Linked (arena : Arena) : Prop where
  sizes : arena.parents.size = arena.nodes.size
  parent : ∀ child,
    (∃ place, IsGreatest (arena.listersBehind child) place ∧ arena.parent child = .ofNat place) ∨
      arena.listersBehind child = ∅ ∧ arena.parent child = .absent

theorem Linked.add (linked : arena.Linked) (node : Node) : (arena.add node).2.Linked := by
  refine ⟨by simp [Arena.add, linked.sizes], fun child => ?_⟩
  rw [parent_add linked.sizes]
  by_cases taken : child.toNat < arena.nodes.size ∧ child ∈ node.payload.children
  · -- The new node lists the child, and no node is behind the new one.
    have new : arena.nodes.size ∈ (arena.add node).2.listersBehind child :=
      ⟨taken.1, lists_add.2 (.inr ⟨rfl, taken.2⟩)⟩
    refine .inl ⟨arena.nodes.size, ⟨new, ?_⟩, by simp [taken]⟩
    rintro place ⟨-, lists⟩
    rcases lists_add.1 lists with before | ⟨rfl, -⟩
    · exact Nat.le_of_lt before.lt_size
    · exact Nat.le_refl _
  · have same : (arena.add node).2.listersBehind child = arena.listersBehind child := by
      ext place
      simp only [listersBehind, Set.mem_ofPred_eq, lists_add, and_congr_right_iff,
        or_iff_left_iff_imp]
      rintro behind ⟨rfl, isChild⟩
      exact (taken ⟨behind, isChild⟩).elim
    rw [if_neg taken, same]
    exact linked.parent child

theorem Linked.setFlags (linked : arena.Linked) (index : NodeIndex) (flags : UInt16) :
    (arena.setFlags index flags).Linked := by
  refine ⟨by rw [parents_setFlags, size_setFlags, linked.sizes], fun child => ?_⟩
  have same : (arena.setFlags index flags).listersBehind child = arena.listersBehind child := by
    ext place
    simp only [listersBehind, Set.mem_ofPred_eq, lists_setFlags]
  rw [same, Arena.parent, parents_setFlags]
  exact linked.parent child

theorem Linked.make (linked : arena.Linked) (call : Call) : (arena.make call).Linked := by
  cases call with
  | node node => exact linked.add node
  | parts kind start stop payload => exact linked.add _
  | flags index flags => exact linked.setFlags index flags

theorem build_linked (calls : List Call) : (build calls).Linked := by
  have empty : ({} : Arena).Linked := by
    refine ⟨rfl, fun child => .inr ⟨?_, by simp [Arena.parent]⟩⟩
    simp [listersBehind, Lists]
  exact List.foldlRecOn calls make empty fun _ linked call _ => linked.make call

/-! ## Walks along parents -/

/-- Every node of an arena has an index of its own. -/
def Addressed (arena : Arena) : Prop :=
  arena.nodes.size ≤ NodeIndex.absent.toNat

namespace Linked

/-- A parent that is there is the last lister. -/
theorem parent_eq_iff (linked : arena.Linked) (addressed : arena.Addressed) {upper : NodeIndex}
    (isPresent : upper.isPresent = true) :
    arena.parent child = upper ↔ IsGreatest (arena.listersBehind child) upper.toNat := by
  rcases linked.parent child with ⟨place, greatest, isParent⟩ | ⟨none, isParent⟩
  · have small : place < NodeIndex.absent.toNat :=
      Nat.lt_of_lt_of_le greatest.1.2.lt_size addressed
    rw [isParent]
    constructor
    · rintro rfl
      rwa [NodeIndex.toNat_ofNat small]
    · intro other
      apply NodeIndex.toNat_injective
      rw [NodeIndex.toNat_ofNat small]
      exact greatest.unique other
  · rw [isParent, none]
    constructor
    · rintro rfl
      exact (NodeIndex.isPresent_iff.1 isPresent rfl).elim
    · rintro ⟨member, -⟩
      exact member.elim

/-- A parent stands behind its child. -/
theorem lt_parent (linked : arena.Linked) (addressed : arena.Addressed)
    (isPresent : (arena.parent child).isPresent = true) :
    child.toNat < (arena.parent child).toNat ∧ (arena.parent child).toNat < arena.nodes.size := by
  obtain ⟨⟨behind, lists⟩, -⟩ := (linked.parent_eq_iff addressed isPresent).1 rfl
  exact ⟨behind, lists.lt_size⟩

/-- Walks along parents end: each step leads further back, and there are finitely many nodes. -/
theorem walk_ends (linked : arena.Linked) (addressed : arena.Addressed)
    (inside : child.toNat < arena.nodes.size) :
    ∃ steps, steps + child.toNat ≤ arena.nodes.size ∧ arena.parent^[steps] child = .absent := by
  induction room : arena.nodes.size - child.toNat using Nat.strongRecOn generalizing child with
  | _ room ih =>
      by_cases isPresent : (arena.parent child).isPresent = true
      · obtain ⟨behind, parentInside⟩ := linked.lt_parent addressed isPresent
        obtain ⟨steps, few, ends⟩ :=
          ih (arena.nodes.size - (arena.parent child).toNat) (by omega) parentInside rfl
        exact ⟨steps + 1, by omega, ends⟩
      · rw [NodeIndex.isPresent_iff, not_not] at isPresent
        exact ⟨1, by omega, isPresent⟩

/-- Where a child is listed by one node only, and that one stands behind it, the parent is the one
that lists it. -/
theorem parent_eq_iff_lists (linked : arena.Linked) (addressed : arena.Addressed)
    (behind : ∀ place, arena.Lists place child → child.toNat < place)
    (once : ∀ first second, arena.Lists first child → arena.Lists second child → first = second)
    {upper : NodeIndex} (isPresent : upper.isPresent = true) :
    arena.parent child = upper ↔ arena.Lists upper.toNat child := by
  rw [linked.parent_eq_iff addressed isPresent]
  constructor
  · exact fun greatest => greatest.1.2
  · intro lists
    exact ⟨⟨behind _ lists, lists⟩, fun other member => Nat.le_of_eq (once _ _ member.2 lists)⟩

end Linked

/-- What follows for the indexes of an arena in which every node has one. -/
structure FollowsNodes (arena : Arena) : Prop where
  /-- The parent of a node is the largest index behind it whose node lists it. -/
  largest : ∀ {child upper : NodeIndex}, upper.isPresent = true →
    (arena.parent child = upper ↔ IsGreatest (arena.listersBehind child) upper.toNat)
  /-- Each step along parents leads further back. -/
  increases : ∀ {child : NodeIndex}, (arena.parent child).isPresent = true →
    child.toNat < (arena.parent child).toNat ∧ (arena.parent child).toNat < arena.nodes.size
  /-- Every walk along parents ends, after no more steps than there are nodes from its start on. -/
  ends : ∀ {child : NodeIndex}, child.toNat < arena.nodes.size →
    ∃ steps, steps + child.toNat ≤ arena.nodes.size ∧ arena.parent^[steps] child = .absent
  /-- A child that one node behind it lists, and no other node, has that node for its parent. -/
  only : ∀ {child : NodeIndex}, (∀ place, arena.Lists place child → child.toNat < place) →
    (∀ first second, arena.Lists first child → arena.Lists second child → first = second) →
    ∀ {upper : NodeIndex}, upper.isPresent = true →
      (arena.parent child = upper ↔ arena.Lists upper.toNat child)

theorem Linked.followsNodes (linked : arena.Linked) (addressed : arena.Addressed) :
    arena.FollowsNodes where
  largest := linked.parent_eq_iff addressed
  increases := linked.lt_parent addressed
  ends := linked.walk_ends addressed
  only := linked.parent_eq_iff_lists addressed

end Arena

/-! ## Written children -/

/-- The natural numbers of a document, from left to right. -/
def Json.numerals : Json → List Nat
  | .nat value => [value]
  | .array items => itemNumerals items
  | .object fields => fieldNumerals fields
  | _ => []
where
  itemNumerals : List Json → List Nat
    | [] => []
    | item :: items => item.numerals ++ itemNumerals items
  fieldNumerals : List (String × Json) → List Nat
    | [] => []
    | (_, value) :: fields => value.numerals ++ fieldNumerals fields

namespace Payload

open Json (numerals)

theorem numerals_encode_index (index : NodeIndex) : numerals index.encode = [index.toNat] := rfl

theorem numerals_encodeNodes (nodes : NodeList) :
    numerals (encodeNodes nodes) = nodes.map NodeIndex.toNat := by
  have items : ∀ nodes : NodeList, numerals.itemNumerals (nodes.map NodeIndex.encode) =
      nodes.map NodeIndex.toNat := by
    intro nodes
    induction nodes with
    | nil => rfl
    | cons index nodes ih =>
        rw [List.map_cons, numerals.itemNumerals, ih, numerals_encode_index]
        rfl
  simp [encodeNodes, numerals, numerals.fieldNumerals, items]

theorem numerals_encodeNodes? (nodes : Option NodeList) :
    numerals (encodeNodes? nodes) = (nodes.getD []).map NodeIndex.toNat := by
  cases nodes with
  | none => rfl
  | some nodes => exact numerals_encodeNodes nodes

/-- All numbers that are written for typed data are indexes that it stores, and all of these are
written, field by field. -/
theorem numerals_encode (payload : Payload) :
    numerals payload.encode = payload.indexes.map NodeIndex.toNat := by
  cases payload <;>
    simp [encode, encodeTagged?, ClassPayload.encode, Kind.encode, indexes, indexes.classIndexes,
      numerals, numerals.fieldNumerals, numerals_encode_index, numerals_encodeNodes,
      numerals_encodeNodes?]

/-- The children of a node are the indexes that are written for it, less those of absent nodes. -/
theorem children_written (payload : Payload) :
    payload.children.map NodeIndex.toNat =
      (numerals payload.encode).filter (· ≠ NodeIndex.absent.toNat) := by
  rw [numerals_encode, List.filter_map, children]
  congr 1
  refine List.filter_congr fun index _ => ?_
  simp [NodeIndex.isPresent, NodeIndex.toNat_injective.eq_iff]

end Payload

/-- **The parents of an arena follow from its nodes.**  After any calls, whatever children they
name, there are as many parents as nodes, and the parent of a node is the last node behind it that
lists it, or absent if there is none.  While every node has an index, walks along parents lead
further back with each step and end, and a child that just one node behind it lists has that node
for its parent.  What a node lists are the indexes that are written for its data, in the order of
the fields and without those of absent nodes. -/
theorem parents_follow_nodes :
    (∀ calls : List Arena.Call, (Arena.build calls).Linked ∧
      ((Arena.build calls).Addressed → (Arena.build calls).FollowsNodes)) ∧
    ∀ payload : Payload, payload.children.map NodeIndex.toNat =
      payload.encode.numerals.filter (· ≠ NodeIndex.absent.toNat) := by
  refine ⟨fun calls => ?_, Payload.children_written⟩
  have linked := Arena.build_linked calls
  exact ⟨linked, linked.followsNodes⟩

/-- A name that two nodes list.  The first of them lists itself as well, an absent node, and a node
that is added later. -/
def Arena.sharedName : List Arena.Call :=
  [.parts .identifier 0 1 (.identifier "a"),
    .parts .moduleBlock 0 9 (.block [⟨0⟩, ⟨1⟩, .absent, ⟨3⟩]),
    .node
      { kind := .typeReference, start := 0, stop := 4
        payload := .typeReference ⟨0⟩ (some [⟨1⟩]) },
    .flags ⟨1⟩ 4,
    .parts .identifier 8 9 (.identifier "b")]

/-- The later of the two nodes is the parent, the node that lists itself is a child of the other,
and the node that was listed too early has no parent. -/
theorem parents_follow_nodes_shared :
    let arena := Arena.build Arena.sharedName
    arena.Addressed ∧ arena.parent ⟨0⟩ = ⟨2⟩ ∧
      IsGreatest (arena.listersBehind ⟨0⟩) 2 ∧ IsGreatest (arena.listersBehind ⟨1⟩) 2 ∧
      arena.listersBehind ⟨3⟩ = ∅ ∧
      (∃ steps ≤ 4, arena.parent^[steps] ⟨0⟩ = .absent) ∧
      (Payload.block [⟨0⟩, ⟨1⟩, .absent, ⟨3⟩]).children.map NodeIndex.toNat = [0, 1, 3] := by
  intro arena
  have size : arena.nodes.size = 4 := by decide
  have addressed : arena.Addressed := size.trans_le (by decide)
  obtain ⟨linked, followsNodes⟩ := parents_follow_nodes.1 Arena.sharedName
  have follows := followsNodes addressed
  have first : arena.parent ⟨0⟩ = ⟨2⟩ := by decide
  have second : arena.parent ⟨1⟩ = ⟨2⟩ := by decide
  have third : arena.parent ⟨3⟩ = .absent := by decide
  refine ⟨addressed, first, (follows.largest rfl).1 first, (follows.largest rfl).1 second, ?_, ?_,
    ?_⟩
  · rcases linked.parent ⟨3⟩ with ⟨place, greatest, isParent⟩ | ⟨none, -⟩
    · have inside := greatest.1.2.lt_size
      have small : place < NodeIndex.absent.toNat := Nat.lt_of_lt_of_le inside addressed
      exact (NodeIndex.ofNat_ne_absent small (isParent.symm.trans third)).elim
    · exact none
  · have inside : NodeIndex.toNat ⟨0⟩ < arena.nodes.size := by decide
    obtain ⟨steps, few, ends⟩ := follows.ends inside
    exact ⟨steps, Nat.le_of_add_right_le (size ▸ few), ends⟩
  · rw [parents_follow_nodes.2]
    decide

end ApiDocs
