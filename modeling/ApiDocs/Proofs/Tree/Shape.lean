import ApiDocs.Proofs.Tree.Growth
import Mathlib.Data.List.Induction
import Mathlib.Logic.Relation

/-!
# The shape of a module tree

The links of a module tree are kept three times: each module names its parent, each module lists its
children, and two tables answer look-ups by name.  A tree is **shaped** if the three agree and the
parents lead to the root.  Everything that is created later has a larger number, so parents are
smaller than their children, and no argument about the tree needs more than that.

## Main definitions

* `Header`, `ModuleTree.header?` — what a module is, apart from its declarations and children.
* `ModuleTree.Shaped` — parents, children and look-ups agree.
* `ModuleTree.Added` — what adding a child does to the shape.

## Main statements

* `Added.shaped`, `Shaped.modify` — the two kinds of changes keep the shape.
* `Shaped.follow_injective`, `Shaped.exists_way` — every module has exactly one way from the root.
* `Shaped.leads_iff` — ways along children are ways by look-up.
* `Shaped.induction_below` — what holds of a module if it holds of its children holds of all.
* `Shaped.number_lt` — the numbers of modules are 32-bit words, up to as many modules.

## Design notes

**One formula for the children.**  The children of a module are the modules with that parent, in
ascending order.  That a module is listed once, by its parent only and in the order of creation, are
three readings of it.
-/

namespace ApiDocs

/-! ## Headers -/

/-- What a module is, apart from its declarations and its children. -/
structure Header where
  name : String
  path : List String
  repository : Option String
  isNamespace : Bool
  parent : Option ModuleId
deriving DecidableEq

/-- The last step of the way to a module. -/
def Header.step (header : Header) : Step :=
  ⟨header.name, header.isNamespace⟩

/-- The header of a module. -/
def DocModule.header (module : DocModule) : Header where
  name := module.name
  path := module.path
  repository := module.repository
  isNamespace := module.isNamespace
  parent := module.parent

namespace ModuleTree

/-- The header of the module with a number. -/
def header? (tree : ModuleTree) (id : ModuleId) : Option Header :=
  (tree.get? id).map (·.header)

/-- The parent of the module with a number. -/
def parent? (tree : ModuleTree) (id : ModuleId) : Option ModuleId :=
  (tree.header? id).bind (·.parent)

/-- The children of the module with a number; none if there is no such module. -/
def childrenOf (tree : ModuleTree) (id : ModuleId) : List ModuleId :=
  ((tree.get? id).map (·.children)).getD []

/-- Parents, children and look-ups of a tree agree.  The root has no parent; every other module has
one with a smaller number, continues its path, and is no directory inside a namespace.  A step leads
to the module with that parent, name and kind, and the children of a module are the modules with
that parent, in ascending order. -/
structure Shaped (tree : ModuleTree) : Prop where
  root : ∃ header, tree.header? rootId = some header ∧ header.path = [] ∧
    header.isNamespace = false ∧ header.parent = none
  parent : ∀ {id header}, tree.header? id = some header → id ≠ rootId →
    ∃ parent above, header.parent = some parent ∧ parent < id ∧
      tree.header? parent = some above ∧ header.path = above.path ++ [header.name] ∧
      (header.isNamespace = false → above.isNamespace = false)
  step : ∀ {parent step id}, tree.step? parent step = some id ↔
    ∃ header, tree.header? id = some header ∧ header.parent = some parent ∧ header.step = step
  children : ∀ id, tree.childrenOf id =
    (List.range tree.size).filter fun child => tree.parent? child = some id

theorem get?_eq_none_iff {tree : ModuleTree} {id : ModuleId} :
    tree.get? id = none ↔ tree.size ≤ id :=
  Array.getElem?_eq_none_iff

theorem header?_of_get? {tree : ModuleTree} {id : ModuleId} {module : DocModule}
    (found : tree.get? id = some module) : tree.header? id = some module.header := by
  rw [header?, found, Option.map_some]

theorem childrenOf_of_get? {tree : ModuleTree} {id : ModuleId} {module : DocModule}
    (found : tree.get? id = some module) : tree.childrenOf id = module.children := by
  rw [childrenOf, found]
  rfl

theorem parent?_of_header? {tree : ModuleTree} {id : ModuleId} {header : Header}
    (found : tree.header? id = some header) : tree.parent? id = header.parent := by
  rw [parent?, found, Option.bind_some]

theorem header?_eq_none_iff {tree : ModuleTree} {id : ModuleId} :
    tree.header? id = none ↔ tree.size ≤ id := by
  rw [header?, Option.map_eq_none_iff, get?_eq_none_iff]

theorem lt_size_of_header? {tree : ModuleTree} {id : ModuleId} {header : Header}
    (found : tree.header? id = some header) : id < tree.size := by
  rw [← Nat.not_le, ← header?_eq_none_iff, found]
  exact Option.some_ne_none header

theorem exists_header_of_lt {tree : ModuleTree} {id : ModuleId} (inside : id < tree.size) :
    ∃ header, tree.header? id = some header := by
  rw [← Option.isSome_iff_exists, Option.isSome_iff_ne_none, Ne, header?_eq_none_iff]
  exact Nat.not_le.2 inside

/-! ## Adding a child -/

/-- What adding a child does to the shape of a tree: there is one more module, its parent lists it
last, and the step that led nowhere leads to it. -/
structure Added (tree : ModuleTree) (parent : ModuleId) (above : Header) (step : Step)
    (repository : Option String) (grown : ModuleTree) : Prop where
  absent : tree.step? parent step = none
  parentThere : tree.header? parent = some above
  size : grown.size = tree.size + 1
  header : ∀ id, grown.header? id =
    if id = tree.size then
      some { name := step.name, path := above.path ++ [step.name], repository
             isNamespace := step.isNamespace, parent := some parent }
    else tree.header? id
  children : ∀ id, grown.childrenOf id =
    tree.childrenOf id ++ if id = parent then [tree.size] else []
  steps : ∀ id other, grown.step? id other =
    if id = parent ∧ other = step then some tree.size else tree.step? id other

/-- Entering a child finds it or adds it. -/
theorem Entered.found_or_added {tree grown : ModuleTree} {parent id : ModuleId} {step : Step}
    {repository : Option String} (entered : Entered tree parent step repository id grown) :
    (tree.step? parent step = some id ∧ grown = tree) ∨
      id = tree.size ∧ ∃ above, Added tree parent above step repository grown := by
  cases entered with
  | found there => exact .inl ⟨there, rfl⟩
  | @created above _ absent parentThere modules steps files =>
      have parentInside := lt_size_of_get? parentThere
      refine .inr ⟨rfl, above.header, absent, header?_of_get? parentThere, ?_, ?_, ?_, steps⟩
      · -- The number of modules is the first number without a module.
        have last := modules tree.size
        rw [if_pos rfl] at last
        have next : grown.get? (tree.size + 1) = none := by
          rw [modules, if_neg (Nat.succ_ne_self _),
            if_neg (Nat.ne_of_gt (Nat.lt_succ_of_lt parentInside)), get?_eq_none_iff]
          exact Nat.le_succ _
        exact Nat.le_antisymm (get?_eq_none_iff.1 next) (lt_size_of_get? last)
      · intro id
        rw [header?, modules]
        by_cases new : id = tree.size
        · rw [if_pos new, if_pos new]
          rfl
        · by_cases same : id = parent
          · subst same
            rw [if_neg new, if_pos rfl, if_neg new, header?_of_get? parentThere]
            rfl
          · rw [if_neg new, if_neg same, if_neg new]
            rfl
      · intro id
        rw [childrenOf, childrenOf, modules]
        by_cases new : id = tree.size
        · have different : id ≠ parent := new ▸ Nat.ne_of_gt parentInside
          rw [if_pos new, if_neg different, get?_eq_none_iff.2 (Nat.le_of_eq new.symm)]
          rfl
        · by_cases same : id = parent
          · subst same
            rw [if_neg new, if_pos rfl, if_pos rfl, parentThere]
            rfl
          · rw [if_neg new, if_neg same, if_neg same, List.append_nil]

namespace Shaped

variable {tree : ModuleTree}

/-- What has a parent is not the root. -/
theorem ne_root (shaped : tree.Shaped) {id parent : ModuleId} {header : Header}
    (found : tree.header? id = some header) (isParent : header.parent = some parent) :
    id ≠ rootId := by
  rintro rfl
  obtain ⟨rootHeader, foundRoot, -, -, noParent⟩ := shaped.root
  obtain rfl := Option.some.inj (found.symm.trans foundRoot)
  rw [noParent] at isParent
  cases isParent

/-- A parent is there, it is smaller than the module, and the module continues its path. -/
theorem above (shaped : tree.Shaped) {id parent : ModuleId} {header : Header}
    (found : tree.header? id = some header) (isParent : header.parent = some parent) :
    ∃ above, parent < id ∧ tree.header? parent = some above ∧
      header.path = above.path ++ [header.name] ∧
      (header.isNamespace = false → above.isNamespace = false) := by
  obtain ⟨_, above, sameParent, rest⟩ := shaped.parent found (shaped.ne_root found isParent)
  obtain rfl := Option.some.inj (isParent.symm.trans sameParent)
  exact ⟨above, rest⟩

theorem parent_lt (shaped : tree.Shaped) {id parent : ModuleId}
    (isParent : tree.parent? id = some parent) : parent < id := by
  obtain ⟨header, found, headerParent⟩ := Option.bind_eq_some_iff.1 isParent
  obtain ⟨_, smaller, -⟩ := shaped.above found headerParent
  exact smaller

theorem mem_childrenOf (shaped : tree.Shaped) {id child : ModuleId} :
    child ∈ tree.childrenOf id ↔ tree.parent? child = some id := by
  rw [shaped.children, List.mem_filter, List.mem_range, decide_eq_true_eq]
  refine ⟨fun both => both.2, fun isParent => ⟨?_, isParent⟩⟩
  obtain ⟨header, found, -⟩ := Option.bind_eq_some_iff.1 isParent
  exact lt_size_of_header? found

/-- A child is there, is younger, and knows its parent. -/
theorem child (shaped : tree.Shaped) {id child : ModuleId} {module : DocModule}
    (found : tree.get? id = some module) (isChild : child ∈ module.children) :
    ∃ below, tree.get? child = some below ∧ below.parent = some id ∧ id < child := by
  rw [← childrenOf_of_get? found, shaped.mem_childrenOf] at isChild
  obtain ⟨header, foundHeader, isParent⟩ := Option.bind_eq_some_iff.1 isChild
  obtain ⟨below, foundBelow, rfl⟩ := Option.map_eq_some_iff.1 foundHeader
  exact ⟨below, foundBelow, isParent, shaped.parent_lt isChild⟩

/-- **Numbers of modules are words.**  In a tree of at most as many modules as there are 32-bit
words, the numbers of a module, of its parent and of its children are words, so nothing is lost
where a number is kept as a word. -/
theorem number_lt (shaped : tree.Shaped) (small : tree.size ≤ UInt32.size) {id : ModuleId}
    {module : DocModule} (found : tree.get? id = some module) :
    id < UInt32.size ∧ (∀ parent ∈ module.parent, parent < UInt32.size) ∧
      ∀ child ∈ module.children, child < UInt32.size := by
  have inside : id < UInt32.size := Nat.lt_of_lt_of_le (lt_size_of_get? found) small
  refine ⟨inside, fun parent isParent => ?_, fun child isChild => ?_⟩
  · have link : tree.parent? id = some parent := by
      rw [parent?_of_header? (header?_of_get? found)]
      exact isParent
    exact Nat.lt_trans (shaped.parent_lt link) inside
  · obtain ⟨below, foundBelow, -⟩ := shaped.child found isChild
    exact Nat.lt_of_lt_of_le (lt_size_of_get? foundBelow) small

theorem pairwise_childrenOf (shaped : tree.Shaped) (id : ModuleId) :
    (tree.childrenOf id).Pairwise (· < ·) := by
  rw [shaped.children]
  exact List.pairwise_lt_range.filter _

/-- No two modules have the same parent, name and kind. -/
theorem unique (shaped : tree.Shaped) {id other : ModuleId} {header otherHeader : Header}
    (found : tree.header? id = some header) (foundOther : tree.header? other = some otherHeader)
    (parent : header.parent = otherHeader.parent) (step : header.step = otherHeader.step) :
    id = other := by
  cases isParent : otherHeader.parent with
  | some above =>
      have here := shaped.step.2 ⟨header, found, parent.trans isParent, step⟩
      have there := shaped.step.2 ⟨otherHeader, foundOther, isParent, rfl⟩
      exact Option.some.inj (here.symm.trans there)
  | none =>
      -- Only the root has no parent.
      have isRoot : ∀ {id header}, tree.header? id = some header → header.parent = none →
          id = rootId := by
        intro id header found noParent
        by_contra noRoot
        obtain ⟨_, _, hasParent, -⟩ := shaped.parent found noRoot
        rw [noParent] at hasParent
        cases hasParent
      rw [isRoot found (parent.trans isParent), isRoot foundOther isParent]

end Shaped

/-- Adding a child keeps the shape, unless a directory is added inside a namespace. -/
theorem Added.shaped {tree grown : ModuleTree} {parent : ModuleId} {above : Header} {step : Step}
    {repository : Option String} (added : Added tree parent above step repository grown)
    (before : tree.Shaped) (kind : step.isNamespace = false → above.isNamespace = false) :
    grown.Shaped := by
  have parentInside := lt_size_of_header? added.parentThere
  have old : ∀ {id header}, tree.header? id = some header → grown.header? id = some header := by
    intro id header found
    rw [added.header, if_neg (Nat.ne_of_lt (lt_size_of_header? found)), found]
  refine ⟨?_, ?_, ?_, ?_⟩
  · obtain ⟨header, found, rest⟩ := before.root
    exact ⟨header, old found, rest⟩
  · intro id header found noRoot
    rw [added.header] at found
    split at found
    · rename_i new
      cases found
      exact ⟨parent, above, rfl, new ▸ parentInside, old added.parentThere, rfl, kind⟩
    · obtain ⟨up, upHeader, isParent, smaller, foundUp, rest⟩ := before.parent found noRoot
      exact ⟨up, upHeader, isParent, smaller, old foundUp, rest⟩
  · intro start other id
    rw [added.steps]
    constructor
    · intro leads
      split at leads
      · rename_i here
        obtain ⟨rfl, rfl⟩ := here
        cases leads
        exact ⟨_, by rw [added.header, if_pos rfl], rfl, rfl⟩
      · obtain ⟨header, found, rest⟩ := before.step.1 leads
        exact ⟨header, old found, rest⟩
    · rintro ⟨header, found, isParent, isStep⟩
      rw [added.header] at found
      split at found
      · rename_i new
        cases found
        cases isParent
        rw [if_pos ⟨rfl, isStep.symm⟩, new]
      · have leads := before.step.2 ⟨header, found, isParent, isStep⟩
        have different : ¬(start = parent ∧ other = step) := by
          rintro ⟨rfl, rfl⟩
          rw [added.absent] at leads
          cases leads
        rw [if_neg different, leads]
  · intro id
    have parents : ∀ child, grown.parent? child =
        if child = tree.size then some parent else tree.parent? child := by
      intro child
      rw [parent?, added.header]
      split
      · rfl
      · rfl
    have olderChildren :
        (List.range tree.size).filter (fun child => grown.parent? child = some id) =
          (List.range tree.size).filter (fun child => tree.parent? child = some id) := by
      refine List.filter_congr fun child inside => ?_
      rw [parents, if_neg (Nat.ne_of_lt (List.mem_range.1 inside))]
    rw [added.children, added.size, List.range_succ, List.filter_append, olderChildren,
      ← before.children]
    congr 1
    by_cases same : id = parent
    · simp [parents, same]
    · simp [parents, same, Ne.symm same]

/-! ## Changing a module -/

section

variable {tree : ModuleTree} {id : ModuleId} {change : DocModule → DocModule}

theorem header?_modify (keeps : ∀ module, (change module).header = module.header)
    (other : ModuleId) : (tree.modify id change).header? other = tree.header? other := by
  rw [header?, header?, get?_modify]
  split
  · rw [Option.map_map]
    congr 1
    funext module
    exact keeps module
  · rfl

theorem childrenOf_modify (keeps : ∀ module, (change module).children = module.children)
    (other : ModuleId) : (tree.modify id change).childrenOf other = tree.childrenOf other := by
  rw [childrenOf, childrenOf, get?_modify]
  split
  · rw [Option.map_map]
    congr 2
    funext module
    exact keeps module
  · rfl

theorem size_modify : (tree.modify id change).size = tree.size :=
  Array.size_modify

/-- A change of declarations keeps the shape. -/
theorem Shaped.modify (shaped : tree.Shaped)
    (header : ∀ module, (change module).header = module.header)
    (children : ∀ module, (change module).children = module.children) :
    (tree.modify id change).Shaped := by
  have headers : ∀ other, (tree.modify id change).header? other = tree.header? other :=
    header?_modify header
  have parents : ∀ other, (tree.modify id change).parent? other = tree.parent? other := by
    intro other
    rw [parent?, parent?, headers]
  refine ⟨?_, ?_, ?_, ?_⟩
  · rw [headers]
    exact shaped.root
  · intro other otherHeader found noRoot
    simp only [headers] at found ⊢
    exact shaped.parent found noRoot
  · intro parent step child
    rw [headers]
    exact shaped.step
  · intro other
    rw [childrenOf_modify children, size_modify, shaped.children]
    exact List.filter_congr fun child _ => by rw [parents]

end

/-- The modules of files are no part of the shape. -/
theorem Shaped.withFiles {tree : ModuleTree} (shaped : tree.Shaped)
    (fileModules : Table FileId ModuleId) : { tree with fileModules }.Shaped :=
  ⟨shaped.root, shaped.parent, shaped.step, shaped.children⟩

theorem ofRoot_shaped (name : String) (repository : Option String) :
    (ofRoot name repository).Shaped := by
  have onlyRoot : ∀ {id header}, (ofRoot name repository).header? id = some header →
      id = rootId := by
    intro id header found
    exact Nat.lt_one_iff.1 (lt_size_of_header? found)
  refine ⟨⟨_, rfl, rfl, rfl, rfl⟩, fun found noRoot => (noRoot (onlyRoot found)).elim, ?_, ?_⟩
  · intro parent step id
    constructor
    · intro leads
      obtain ⟨stepName, isNamespace⟩ := step
      cases isNamespace <;> cases leads
    · rintro ⟨header, found, isParent, -⟩
      obtain rfl := onlyRoot found
      cases found
      cases isParent
  · intro id
    by_cases isRoot : id = rootId
    · subst isRoot
      rfl
    · have missing : (ofRoot name repository).get? id = none := by
        rw [get?_eq_none_iff]
        exact Nat.one_le_iff_ne_zero.2 isRoot
      rw [childrenOf, missing]
      rfl

/-! ## Ways from the root -/

theorem follow?_concat (tree : ModuleTree) (start : ModuleId) (steps : List Step) (step : Step) :
    tree.follow? start (steps ++ [step]) = (tree.follow? start steps).bind (tree.step? · step) := by
  rw [follow?_append]
  congr 1
  funext id
  rw [follow?_cons]
  cases tree.step? id step <;> rfl

namespace Shaped

variable {tree : ModuleTree}

/-- Two ways from the root to the same module are the same way. -/
theorem follow_injective (shaped : tree.Shaped) {first : List Step} :
    ∀ {second : List Step} {id : ModuleId}, tree.follow? rootId first = some id →
      tree.follow? rootId second = some id → first = second := by
  -- The last step to a module is read off its header, and so is the module before it.
  have last : ∀ {steps : List Step} {step : Step} {id : ModuleId},
      tree.follow? rootId (steps ++ [step]) = some id →
      ∃ parent header, tree.follow? rootId steps = some parent ∧ tree.header? id = some header ∧
        header.parent = some parent ∧ header.step = step := by
    intro steps step id leads
    rw [follow?_concat, Option.bind_eq_some_iff] at leads
    obtain ⟨parent, before, here⟩ := leads
    obtain ⟨header, found, isParent, isStep⟩ := shaped.step.1 here
    exact ⟨parent, header, before, found, isParent, isStep⟩
  have noWayBack : ∀ {steps : List Step} {step : Step},
      tree.follow? rootId (steps ++ [step]) ≠ some rootId := by
    intro steps step leads
    obtain ⟨parent, header, -, found, isParent, -⟩ := last leads
    exact shaped.ne_root found isParent rfl
  induction first using List.reverseRecOn with
  | nil =>
      intro second id here there
      cases here
      rcases List.eq_nil_or_concat second with rfl | ⟨steps, step, rfl⟩
      · rfl
      · rw [List.concat_eq_append] at there
        exact (noWayBack there).elim
  | append_singleton steps step ih =>
      intro second id here there
      rcases List.eq_nil_or_concat second with rfl | ⟨others, other, rfl⟩
      · cases there
        exact (noWayBack here).elim
      · rw [List.concat_eq_append] at there ⊢
        obtain ⟨parent, header, before, found, isParent, isStep⟩ := last here
        obtain ⟨otherParent, _, otherBefore, foundAgain, isOtherParent, isOther⟩ := last there
        obtain rfl := Option.some.inj (found.symm.trans foundAgain)
        obtain rfl := Option.some.inj (isParent.symm.trans isOtherParent)
        rw [ih before otherBefore, ← isStep, ← isOther]

/-- Every module has a way from the root. -/
theorem exists_way (shaped : tree.Shaped) {id : ModuleId} :
    ∀ {header : Header}, tree.header? id = some header →
      ∃ steps, tree.follow? rootId steps = some id := by
  induction id using Nat.strongRecOn with
  | _ id ih =>
      intro header found
      by_cases isRoot : id = rootId
      · subst isRoot
        exact ⟨[], rfl⟩
      · obtain ⟨parent, above, isParent, smaller, foundAbove, -⟩ := shaped.parent found isRoot
        obtain ⟨steps, leads⟩ := ih parent smaller foundAbove
        refine ⟨steps ++ [header.step], ?_⟩
        rw [follow?_concat, leads]
        exact shaped.step.2 ⟨header, found, isParent, rfl⟩

theorem get?_of_follow? (shaped : tree.Shaped) {steps : List Step} {id : ModuleId}
    (leads : tree.follow? rootId steps = some id) : ∃ module, tree.get? id = some module := by
  have there : ∃ header, tree.header? id = some header := by
    rcases List.eq_nil_or_concat steps with rfl | ⟨before, step, rfl⟩
    · cases leads
      obtain ⟨header, found, -⟩ := shaped.root
      exact ⟨header, found⟩
    · rw [List.concat_eq_append, follow?_concat, Option.bind_eq_some_iff] at leads
      obtain ⟨parent, -, here⟩ := leads
      obtain ⟨header, found, -⟩ := shaped.step.1 here
      exact ⟨header, found⟩
  obtain ⟨header, found⟩ := there
  obtain ⟨module, isModule, -⟩ := Option.map_eq_some_iff.1 found
  exact ⟨module, isModule⟩

/-- The kind of a module is that of the last step of its way. -/
theorem isNamespace_eq (shaped : tree.Shaped) {id : ModuleId} {module : DocModule}
    (found : tree.get? id = some module) {steps : List Step}
    (leads : tree.follow? rootId steps = some id) :
    module.isNamespace = (steps.getLast?.map (·.isNamespace)).getD false := by
  rcases List.eq_nil_or_concat steps with rfl | ⟨before, step, rfl⟩
  · cases leads
    obtain ⟨root, foundRoot, -, kind, -⟩ := shaped.root
    obtain rfl := Option.some.inj ((header?_of_get? found).symm.trans foundRoot)
    exact kind
  · rw [List.concat_eq_append, follow?_concat, Option.bind_eq_some_iff] at leads
    obtain ⟨parent, -, last⟩ := leads
    obtain ⟨header, foundHeader, -, isStep⟩ := shaped.step.1 last
    obtain rfl := Option.some.inj ((header?_of_get? found).symm.trans foundHeader)
    rw [List.concat_eq_append, List.getLast?_concat, ← isStep]
    rfl

/-- Links by look-up agree with the modules. -/
theorem wellFormed (shaped : tree.Shaped) : tree.WellFormed := by
  constructor
  · obtain ⟨header, found, path, -⟩ := shaped.root
    obtain ⟨module, isModule, rfl⟩ := Option.map_eq_some_iff.1 found
    exact ⟨module, isModule, path⟩
  · intro parent step id leads
    obtain ⟨header, found, isParent, rfl⟩ := shaped.step.1 leads
    obtain ⟨aboveHeader, -, foundAbove, path, -⟩ := shaped.above found isParent
    obtain ⟨above, isAbove, rfl⟩ := Option.map_eq_some_iff.1 foundAbove
    obtain ⟨below, isBelow, rfl⟩ := Option.map_eq_some_iff.1 found
    have listed := shaped.mem_childrenOf.2 ((parent?_of_header? found).trans isParent)
    rw [childrenOf_of_get? isAbove] at listed
    exact ⟨above, below, isAbove, isBelow, listed, isParent, rfl, rfl, path⟩

/-- A way along children is a way by look-up. -/
theorem leads_iff (shaped : tree.Shaped) {start id : ModuleId} {steps : List Step} :
    tree.Leads start steps id ↔ tree.follow? start steps = some id := by
  constructor
  · intro leads
    induction leads with
    | here => rfl
    | @child _ _ _ step _ _ below foundAbove isChild foundBelow name kind _ ih =>
        rw [← childrenOf_of_get? foundAbove, shaped.mem_childrenOf,
          parent?_of_header? (header?_of_get? foundBelow)] at isChild
        have isStep : below.header.step = step := congrArg₂ Step.mk name kind
        rw [follow?_cons, shaped.step.2 ⟨_, header?_of_get? foundBelow, isChild, isStep⟩,
          Option.bind_some, ih]
  · exact shaped.wellFormed.leads

/-! ## Going down the tree -/

/-- What holds of a module whenever it holds of all its children holds of every module: children
are larger than their parents, and there are finitely many modules. -/
theorem induction_below (shaped : tree.Shaped) (holds : ModuleId → DocModule → Prop)
    (each : ∀ id module, tree.get? id = some module →
      (∀ child ∈ module.children, ∃ below, tree.get? child = some below ∧ id < child ∧
        holds child below) → holds id module) :
    ∀ {id : ModuleId} {module : DocModule}, tree.get? id = some module → holds id module := by
  have bounded : ∀ room id, tree.size ≤ id + room → ∀ module, tree.get? id = some module →
      holds id module := by
    intro room
    induction room with
    | zero =>
        intro id outside module found
        exact absurd (lt_size_of_get? found) (Nat.not_lt.2 outside)
    | succ room ih =>
        intro id enough module found
        refine each id module found fun child isChild => ?_
        obtain ⟨below, foundBelow, -, larger⟩ := shaped.child found isChild
        have nearer : tree.size ≤ child + room :=
          calc tree.size ≤ id + (room + 1) := enough
            _ = id + 1 + room := Nat.add_right_comm id room 1
            _ ≤ child + room := Nat.add_le_add_right larger room
        exact ⟨below, foundBelow, larger, ih child nearer below foundBelow⟩
  intro id module found
  exact bounded tree.size id (Nat.le_add_left _ _) module found

end Shaped

end ModuleTree

end ApiDocs
