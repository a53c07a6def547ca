import ApiDocs.Collect.Entry

/-!
# What the walk through a file meets

The walk through a file steps into namespaces down to a depth that the size of the file bounds.
Here the statements inside namespaces are described without a depth, one namespace at a time, and
the walk is proved to meet exactly those statements that are not nested deeper than the bound.

## Main definitions

* `SourceFile.Inside` — a statement inside namespaces, seen from an outer statement.

## Main statements

* `mem_entries_iff` — the statements that the walk meets, with the namespaces around them.
-/

namespace ApiDocs

namespace SourceFile

variable {source : SourceFile}

/-- A statement lies inside the namespaces with the given names, outermost first, as seen from an
outer statement: it is that statement, or the outer statement declares the first namespace and its
body leads on. -/
inductive Inside (source : SourceFile) : NodeIndex → List String → NodeIndex → Prop
  | itself {index : NodeIndex} : Inside source index [] index
  | step {outer body next index : NodeIndex} {node : Node} {name : String}
      {names : List String} (found : source.arena.get? outer = some node)
      (isModule : node.kind = .moduleDeclaration)
      (opens : source.namespaceOf? node = some (name, body))
      (statement : next ∈ source.bodyStatements body) (deeper : Inside source next names index) :
      Inside source outer (name :: names) index

/-- Whether a node is a statement that opens no namespace. -/
def IsLeaf (source : SourceFile) (index : NodeIndex) : Prop :=
  ∃ node, source.arena.get? index = some node ∧ node.kind ≠ .moduleDeclaration

/-- What the walk meets below a statement lies inside the namespaces that the walk opened. -/
theorem inside_of_mem_entriesWithin {depth : Nat} :
    ∀ {opened : List String} {outer : NodeIndex} {entry : Entry},
      entry ∈ source.entriesWithin depth opened outer →
      ∀ {index : NodeIndex}, entry.statement = some index →
        ∃ names, entry.namespaces = opened ++ names ∧ source.Inside outer names index ∧
          source.IsLeaf index ∧ names.length < depth := by
  induction depth with
  | zero => intro opened outer entry member; cases member
  | succ depth ih =>
      intro opened outer entry member index statement
      rw [entriesWithin] at member
      cases found : source.arena.get? outer with
      | none => simp [found] at member
      | some node =>
          simp only [found] at member
          split at member
          · rename_i isModule
            cases opens : source.namespaceOf? node with
            | none => simp [opens] at member
            | some declared =>
                obtain ⟨name, body⟩ := declared
                simp only [opens] at member
                -- The entry that opens the namespace has no statement; the others lie deeper.
                rcases List.mem_cons.1 member with rfl | below
                · cases statement
                · obtain ⟨next, inBody, deeper⟩ := List.mem_flatMap.1 below
                  obtain ⟨names, namespaces, inside, leaf, short⟩ := ih deeper statement
                  refine ⟨name :: names, by simp [namespaces], ?_, leaf, Nat.succ_lt_succ short⟩
                  exact .step found isModule opens inBody inside
          · rename_i noModule
            obtain rfl := List.mem_singleton.1 member
            obtain rfl := Option.some.inj statement
            exact ⟨[], by simp, .itself, ⟨node, found, noModule⟩, Nat.succ_pos depth⟩

/-- The walk meets every statement inside namespaces that is not nested too deep. -/
theorem mem_entriesWithin {outer index : NodeIndex} {names : List String}
    (inside : source.Inside outer names index) (leaf : source.IsLeaf index) :
    ∀ {depth : Nat} {opened : List String}, names.length < depth →
      ⟨opened ++ names, some index⟩ ∈ source.entriesWithin depth opened outer := by
  induction inside with
  | itself =>
      intro depth opened short
      obtain ⟨depth, rfl⟩ := Nat.exists_eq_succ_of_ne_zero (Nat.ne_of_gt short)
      obtain ⟨node, found, noModule⟩ := leaf
      simp [entriesWithin, found, noModule]
  | @step outer body next index node name names found isModule opens inBody deeper ih =>
      intro depth opened short
      obtain ⟨depth, rfl⟩ := Nat.exists_eq_succ_of_ne_zero (Nat.ne_of_gt (Nat.zero_lt_of_lt short))
      have below : ⟨opened ++ [name] ++ names, some index⟩ ∈
          source.entriesWithin depth (opened ++ [name]) next :=
        ih leaf (Nat.lt_of_succ_lt_succ short)
      rw [List.append_assoc, List.singleton_append] at below
      simp only [entriesWithin, found, isModule, if_true, opens]
      exact List.mem_cons_of_mem _ (List.mem_flatMap.2 ⟨next, inBody, below⟩)

/-- **The walk through a file** meets exactly the statements that lie inside namespaces, with the
names of these, down to the depth that the size of the file allows. -/
theorem mem_entries_iff {names : List String} {index : NodeIndex} :
    ⟨names, some index⟩ ∈ source.entries ↔
      (∃ outer ∈ source.statements, source.Inside outer names index) ∧ source.IsLeaf index ∧
        names.length ≤ source.arena.nodes.size := by
  rw [entries, entriesTo, List.mem_flatMap, Arena.depthBound]
  constructor
  · rintro ⟨outer, statement, member⟩
    obtain ⟨inner, same, inside, leaf, short⟩ := inside_of_mem_entriesWithin member rfl
    obtain rfl : names = inner := same
    exact ⟨⟨outer, statement, inside⟩, leaf, Nat.le_of_lt_succ short⟩
  · rintro ⟨⟨outer, statement, inside⟩, leaf, short⟩
    exact ⟨outer, statement, mem_entriesWithin inside leaf (Nat.lt_succ_of_le short)⟩

end SourceFile

end ApiDocs
