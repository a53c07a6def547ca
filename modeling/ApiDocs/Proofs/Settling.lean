import Mathlib.Data.Finset.Card
import Mathlib.Data.Finset.Range
import Mathlib.Data.List.Nodup
import Mathlib.Data.List.Perm.Subperm
import Mathlib.Logic.Function.Iterate
import Mathlib.Logic.Relation

/-!
# Recursion along acyclic links

A recursion over the nodes of a table is given by its step: the answer at a node, computed from the
answers at other nodes.  The links between nodes are indexes that anyone could have written, so
nothing in the table itself bounds the recursion.  If the links are acyclic, then a chain of nested
calls meets every node of the table at most once, and **the recursion settles** within as many calls
as there are nodes, and one more for an index that belongs to no node.

## Main definitions

* `Settles` — the answer at a node does not depend on what happens below a certain depth.
* `Follows` — a step asks only for the answers at nodes that links lead to.
* `AcyclicLinks` — links between the nodes of a table of a given size, without cycles.
* `AcyclicLinks.height` — a measure that decreases along links.

## Main statements

* `length_le_of_nodup` — a chain that meets no node twice is no longer than the table.
* `AcyclicLinks.height_lt` — the measure decreases, and the size of the table bounds it.
* `AcyclicLinks.settles` — a step that follows acyclic links settles.
* `AcyclicLinks.of_walk` — the links of a walk that always ends are acyclic.
-/

namespace ApiDocs

open Relation (TransGen ReflTransGen)

variable {ι α : Type}

/-- A recursion settles on a value at a node: whatever answers the calls that are nested `n` deep,
for any `n` from the bound on, the call at the node has this value.  So no call is nested deeper. -/
def Settles (step : (ι → α) → ι → α) (bound : Nat) (index : ι) (value : α) : Prop :=
  ∀ (deeper : ι → α) (n : Nat), bound ≤ n → step^[n] deeper index = value

theorem Settles.unique {step : (ι → α) → ι → α} {bound : Nat} {index : ι} {value other : α}
    (one : Settles step bound index value) (two : Settles step bound index other) :
    value = other := by
  have deeper : ι → α := fun _ => value
  rw [← one deeper bound (Nat.le_refl _), ← two deeper bound (Nat.le_refl _)]

/-- A step asks only for the answers at nodes that links lead to. -/
def Follows (step : (ι → α) → ι → α) (links : ι → ι → Prop) : Prop :=
  ∀ {first second : ι → α} {index : ι},
    (∀ next, TransGen links index next → first next = second next) →
    step first index = step second index

/-- Distinct nodes of a table are no more than its size. -/
theorem length_le_of_nodup {place : ι → Nat} (distinct : Function.Injective place) {size : Nat}
    {nodes : List ι} (nodup : nodes.Nodup) (inside : ∀ node ∈ nodes, place node < size) :
    nodes.length ≤ size := by
  have places : nodes.map place ⊆ List.range size := by
    intro n member
    obtain ⟨node, isNode, rfl⟩ := List.mem_map.1 member
    exact List.mem_range.2 (inside node isNode)
  calc nodes.length = (nodes.map place).length := (List.length_map _).symm
    _ ≤ (List.range size).length := ((nodup.map distinct).subperm places).length_le
    _ = size := List.length_range

/-- Links between the nodes of a table with the given size, without cycles.  A node that has links
has a place of its own in the table. -/
structure AcyclicLinks (links : ι → ι → Prop) (place : ι → Nat) (size : Nat) : Prop where
  acyclic : ∀ index, ¬TransGen links index index
  inside : ∀ {index next}, links index next → place index < size
  distinct : ∀ {index next other otherNext}, links index next → links other otherNext →
    place index = place other → index = other

namespace AcyclicLinks

variable {links : ι → ι → Prop} {place : ι → Nat} {size : Nat}

open Classical in
/-- The places of the nodes with links that are reached from a node. -/
noncomputable def reached (links : ι → ι → Prop) (place : ι → Nat) (size : Nat) (index : ι) :
    Finset Nat :=
  (Finset.range size).filter fun n =>
    ∃ later next, ReflTransGen links index later ∧ links later next ∧ place later = n

theorem mem_reached {index : ι} {n : Nat} :
    n ∈ reached links place size index ↔ n < size ∧
      ∃ later next, ReflTransGen links index later ∧ links later next ∧ place later = n := by
  classical
  rw [reached, Finset.mem_filter, Finset.mem_range]

/-- How many nodes with links are reached from a node. -/
noncomputable def height (links : ι → ι → Prop) (place : ι → Nat) (size : Nat) (index : ι) : Nat :=
  (reached links place size index).card

theorem height_le (index : ι) : height links place size index ≤ size :=
  calc height links place size index ≤ (Finset.range size).card :=
        Finset.card_le_card fun _ member => Finset.mem_range.2 (mem_reached.1 member).1
    _ = size := Finset.card_range size

/-- The height decreases along links: a node is no longer reached once it was left. -/
theorem height_lt (table : AcyclicLinks links place size) {index later : ι}
    (leads : TransGen links index later) :
    height links place size later < height links place size index := by
  obtain ⟨first, leaves, -⟩ := TransGen.head'_iff.1 leads
  have fewer : reached links place size later ⊆ reached links place size index := by
    intro n member
    obtain ⟨below, last, next, reaches, linked, same⟩ := mem_reached.1 member
    exact mem_reached.2 ⟨below, last, next, leads.to_reflTransGen.trans reaches, linked, same⟩
  refine Finset.card_lt_card ((Finset.ssubset_iff_of_subset fewer).2 ⟨place index, ?_, ?_⟩)
  · exact mem_reached.2 ⟨table.inside leaves, index, first, .refl, leaves, rfl⟩
  · intro member
    obtain ⟨-, last, next, reaches, linked, same⟩ := mem_reached.1 member
    obtain rfl := table.distinct linked leaves same
    exact table.acyclic _ (leads.trans_left reaches)

/-- Two runs of a recursion agree at a node if both go deeper than its height. -/
theorem iterate_eq (table : AcyclicLinks links place size) {step : (ι → α) → ι → α}
    (follows : Follows step links) (first second : ι → α) (n : Nat) :
    ∀ {k : Nat} {index : ι}, height links place size index < n →
      height links place size index < k → step^[n] first index = step^[k] second index := by
  induction n with
  | zero => intro k index low; cases low
  | succ n ih =>
      intro k index low lowToo
      obtain ⟨k, rfl⟩ := Nat.exists_eq_succ_of_ne_zero (Nat.ne_of_gt (Nat.zero_lt_of_lt lowToo))
      rw [Function.iterate_succ_apply', Function.iterate_succ_apply']
      refine follows fun next leads => ?_
      have lower := table.height_lt leads
      exact ih (by omega) (by omega)

/-- **A recursion along acyclic links settles** within any bound above the height, on what it
answers when it goes at least as deep as the bound. -/
theorem settles (table : AcyclicLinks links place size) {step : (ι → α) → ι → α}
    (follows : Follows step links) (within : Nat → ι → α)
    (unfolds : ∀ n, within (n + 1) = step (within n)) {bound n : Nat} {index : ι}
    (low : height links place size index < bound) (enough : bound ≤ n) :
    Settles step bound index (within n index) := by
  have iterated : ∀ k, within k = step^[k] (within 0) := by
    intro k
    induction k with
    | zero => rfl
    | succ k ih => rw [unfolds, ih, Function.iterate_succ_apply']
  intro deeper k more
  rw [iterated]
  exact table.iterate_eq follows deeper (within 0) k (by omega) (by omega)

/-! ## Walks -/

/-- The links of a walk: from a node that is not the last one to the next. -/
def walk (next : ι → ι) (moves : ι → Prop) (index later : ι) : Prop :=
  moves index ∧ next index = later

theorem exists_iterate_of_walk {next : ι → ι} {moves : ι → Prop} {index later : ι}
    (leads : TransGen (walk next moves) index later) : ∃ n, next^[n + 1] index = later := by
  induction leads with
  | single link => exact ⟨0, link.2⟩
  | tail _ link ih =>
      obtain ⟨n, same⟩ := ih
      exact ⟨n + 1, by rw [Function.iterate_succ_apply', same, link.2]⟩

/-- The links of a walk that always ends are acyclic: going round often enough passes the end, where
nothing moves any more. -/
theorem of_walk {next : ι → ι} {moves : ι → Prop} {last : ι} (fixed : next last = last)
    (stops : ¬moves last) (ends : ∀ index, moves index → ∃ n, next^[n] index = last)
    (inside : ∀ {index}, moves index → place index < size)
    (distinct : ∀ {index other}, moves index → moves other → place index = place other →
      index = other) :
    AcyclicLinks (walk next moves) place size where
  acyclic index cycle := by
    obtain ⟨_, ⟨starts, -⟩, -⟩ := TransGen.head'_iff.1 cycle
    obtain ⟨n, arrives⟩ := ends index starts
    obtain ⟨k, returns⟩ := exists_iterate_of_walk cycle
    have around : next^[(k + 1) * n] index = index := by
      rw [Function.iterate_mul]
      exact Function.iterate_fixed returns n
    have stuck : next^[(k + 1) * n] index = last := by
      rw [Nat.succ_mul, Function.iterate_add_apply, arrives]
      exact Function.iterate_fixed fixed (k * n)
    obtain rfl := around.symm.trans stuck
    exact stops starts
  inside link := inside link.1
  distinct link otherLink same := distinct link.1 otherLink.1 same

end AcyclicLinks

end ApiDocs
