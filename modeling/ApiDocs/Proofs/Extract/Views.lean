import ApiDocs.Proofs.Extract.Overloads
import ApiDocs.Proofs.Extract.Ways
import Mathlib.Algebra.BigOperators.Group.List.Basic
import Mathlib.Algebra.GroupWithZero.Nat
import Mathlib.Data.List.Forall2
import Mathlib.Data.List.Nodup
import Mathlib.Tactic.Choose

/-!
# Views hold every module once

The documentation is written as a nested view of its root.  The view follows the numbers of children
through the tree, and nothing in that recursion says that it ends, that it meets every module, or
that it meets none of them twice.  All of it holds because the tree is shaped: children are younger
than their parents, and every module has exactly one way from the root.

## Main definitions

* `ModuleView.Presents` — a view has the header and the declarations of a module.
* `ModuleView.preorder` — a view and the views nested in it, in pre-order.
* `ModuleTree.Visits` — the numbers that a walk through a tree meets, in pre-order.
* `ModuleTree.Nested` — the views of a tree hold every module and every declaration once.

## Main statements

* `Shaped.viewWithin_eq` — the levels of a view do not run out.
* `Shaped.nested` — the views of a shaped tree hold everything once.
* `views_hold_everything` — so do the views of all trees that an extraction reaches.
-/

namespace ApiDocs

open MonadAttach (CanReturn)

/-! ## Views -/

/-- A view has the header and the declarations of a module, in the order of its tables. -/
structure ModuleView.Presents (view : ModuleView) (module : DocModule) : Prop where
  name : view.name = module.name
  path : view.path = module.path
  repository : view.repository = module.repository
  isNamespace : view.isNamespace = module.isNamespace
  classes : view.classes = module.classes.values
  interfaces : view.interfaces = module.interfaces.values
  enums : view.enums = module.enums.values
  aliases : view.aliases = module.aliases.values
  functions : view.functions = module.functions.values
  constants : view.constants = module.constants

namespace ModuleView

mutual

/-- A view and the views nested in it, each before those that are nested in it. -/
def preorder : ModuleView → List ModuleView
  | ⟨name, path, repository, isNamespace, classes, interfaces, enums, aliases, functions,
      constants, modules⟩ =>
    ⟨name, path, repository, isNamespace, classes, interfaces, enums, aliases, functions,
      constants, modules⟩ :: preorders modules

/-- The views of a list and those nested in them, one after the other. -/
def preorders : List ModuleView → List ModuleView
  | [] => []
  | module :: modules => module.preorder ++ preorders modules

end

theorem preorders_eq_flatMap (views : List ModuleView) :
    preorders views = views.flatMap preorder := by
  induction views with
  | nil => rfl
  | cons view views ih => rw [preorders, ih, List.flatMap_cons]

theorem preorder_eq (view : ModuleView) :
    view.preorder = view :: view.modules.flatMap preorder := by
  obtain ⟨name, path, repository, isNamespace, classes, interfaces, enums, aliases, functions,
    constants, modules⟩ := view
  rw [preorder, preorders_eq_flatMap]

/-- The number of declarations that a view lists itself. -/
def ownCount (view : ModuleView) : Nat :=
  view.classes.length + view.interfaces.length + view.enums.length + view.aliases.length +
    view.functions.length + view.constants.length

mutual

/-- The declarations of a view are those that the views of its pre-order list. -/
theorem declarationCount_eq : ∀ view : ModuleView,
    view.declarationCount = (view.preorder.map ownCount).sum
  | ⟨name, path, repository, isNamespace, classes, interfaces, enums, aliases, functions,
      constants, modules⟩ => by
    rw [declarationCount, preorder, List.map_cons, List.sum_cons, declarationCounts_eq modules]
    rfl

theorem declarationCounts_eq : ∀ views : List ModuleView,
    declarationCounts views = ((preorders views).map ownCount).sum
  | [] => rfl
  | view :: views => by
    rw [declarationCounts, preorders, List.map_append, List.sum_append, declarationCount_eq view,
      declarationCounts_eq views]

end

theorem Presents.ownCount_eq {view : ModuleView} {module : DocModule}
    (presents : view.Presents module) : view.ownCount = module.declarationCount := by
  rw [ownCount, presents.classes, presents.interfaces, presents.enums, presents.aliases,
    presents.functions, presents.constants]
  simp only [Table.values, List.length_map]
  rfl

end ModuleView

namespace ModuleTree

/-! ## Walks -/

/-- The numbers that a walk from a module meets: its own, and then those below its children, one
child after the other. -/
inductive Visits (tree : ModuleTree) : ModuleId → List ModuleId → Prop
  | module {id : ModuleId} {module : DocModule} {below : List (List ModuleId)}
      (found : tree.get? id = some module)
      (children : List.Forall₂ (Visits tree) module.children below) :
      Visits tree id (id :: below.flatten)

/-- The views of a tree hold every module and every declaration once. -/
structure Nested (tree : ModuleTree) : Prop where
  /-- A number without a module has no view. -/
  missing : ∀ {id}, tree.get? id = none → tree.view? id = none
  /-- The view of a module presents it and holds the views of its children, in the order of their
  creation. -/
  view : ∀ {id module}, tree.get? id = some module → module.children.Pairwise (· < ·) ∧
    ∃ view, tree.view? id = some view ∧ view.Presents module ∧
      view.modules.map some = module.children.map tree.view?
  /-- More levels show no more modules. -/
  levels : ∀ {id module}, tree.get? id = some module →
    ∀ more, tree.viewWithin (tree.size + more) module = tree.viewWithin tree.size module
  /-- The view of the root holds the views of all modules in pre-order, each of them once. -/
  everything : ∃ view ids, tree.view? rootId = some view ∧ tree.Visits rootId ids ∧
    ids.Perm (List.range tree.size) ∧ view.preorder.map some = ids.map tree.view? ∧
    view.declarationCount = (tree.modules.toList.map DocModule.declarationCount).sum

namespace Shaped

variable {tree : ModuleTree} {id : ModuleId} {module : DocModule}

theorem mem_children (shaped : tree.Shaped) (found : tree.get? id = some module)
    {child : ModuleId} : child ∈ module.children ↔ ∃ step, tree.step? id step = some child := by
  rw [← childrenOf_of_get? found, shaped.mem_childrenOf]
  constructor
  · intro isParent
    obtain ⟨header, foundHeader, headerParent⟩ := Option.bind_eq_some_iff.1 isParent
    exact ⟨header.step, shaped.step.2 ⟨header, foundHeader, headerParent, rfl⟩⟩
  · rintro ⟨step, leads⟩
    obtain ⟨header, foundHeader, isParent, -⟩ := shaped.step.1 leads
    rw [parent?_of_header? foundHeader, isParent]

/-! ## Levels -/

/-- The levels of a view do not run out: below a module there are at most as many levels as there
are larger numbers. -/
theorem viewWithin_eq (shaped : tree.Shaped) (found : tree.get? id = some module) {depth : Nat}
    (enough : tree.size ≤ id + depth) (more : Nat) :
    tree.viewWithin (depth + more) module = tree.viewWithin depth module := by
  revert depth
  refine shaped.induction_below (fun id module => ∀ {depth : Nat}, tree.size ≤ id + depth →
    tree.viewWithin (depth + more) module = tree.viewWithin depth module)
    (fun id module found below depth enough => ?_) found
  have inside : id < tree.size := lt_size_of_get? found
  cases depth with
  | zero => exact absurd inside (Nat.not_lt.2 enough)
  | succ depth =>
      rw [Nat.add_right_comm depth 1 more, viewWithin, viewWithin]
      congr 1
      refine List.map_congr_left fun child member => ?_
      obtain ⟨number, isChild, foundChild⟩ := List.mem_filterMap.1 member
      obtain ⟨_, foundBelow, larger, levels⟩ := below number isChild
      obtain rfl := Option.some.inj (foundChild.symm.trans foundBelow)
      refine levels ?_
      calc tree.size ≤ id + (depth + 1) := enough
        _ = id + 1 + depth := Nat.add_right_comm id depth 1
        _ ≤ number + depth := Nat.add_le_add_right larger depth

/-- The view of a module presents it and holds the views of its children. -/
theorem exists_view (shaped : tree.Shaped) (found : tree.get? id = some module) :
    ∃ view, tree.view? id = some view ∧ view.Presents module ∧
      view.modules.map some = module.children.map tree.view? := by
  have inside : id < tree.size := lt_size_of_get? found
  obtain ⟨depth, isSize⟩ := Nat.exists_eq_succ_of_ne_zero (Nat.ne_of_gt (Nat.zero_lt_of_lt inside))
  refine ⟨tree.viewWithin tree.size module, by rw [view?, found, Option.map_some], ?_, ?_⟩
  · rw [isSize]
    exact ⟨rfl, rfl, rfl, rfl, rfl, rfl, rfl, rfl, rfl, rfl⟩
  · -- The children are shown with one level less, which is still enough for them.
    have below : ∀ child ∈ module.children, ∃ own, tree.get? child = some own ∧
        tree.viewWithin (depth + 1) own = tree.viewWithin depth own := by
      intro child isChild
      obtain ⟨own, foundOwn, -, larger⟩ := shaped.child found isChild
      refine ⟨own, foundOwn, shaped.viewWithin_eq foundOwn ?_ 1⟩
      calc tree.size = 1 + depth := isSize.trans (Nat.add_comm depth 1)
        _ ≤ child + depth := Nat.add_le_add_right (Nat.one_le_of_lt larger) depth
    rw [isSize, viewWithin, viewWithin.withChildren, List.map_map]
    refine (map_some_filterMap tree.get? (tree.viewWithin depth) ?_).trans ?_
    · intro child isChild
      obtain ⟨own, foundOwn, -⟩ := below child isChild
      rw [foundOwn]
      rfl
    · refine List.map_congr_left fun child isChild => ?_
      obtain ⟨own, foundOwn, same⟩ := below child isChild
      rw [view?, isSize, foundOwn, Option.map_some, Option.map_some, same]

/-! ## Walks through a shaped tree -/

/-- No module lies below itself. -/
theorem follow?_ne_self (shaped : tree.Shaped) (found : tree.get? id = some module) {step : Step}
    {steps : List Step} : tree.follow? id (step :: steps) ≠ some id := by
  intro back
  obtain ⟨way, leads⟩ := shaped.exists_way (header?_of_get? found)
  have longer : tree.follow? rootId (way ++ step :: steps) = some id := by
    rw [follow?_append, leads, Option.bind_some, back]
  have same := shaped.follow_injective longer leads
  rw [List.append_right_eq_self] at same
  cases same

/-- What lies below two children of a module is the same child. -/
theorem child_unique (shaped : tree.Shaped) (found : tree.get? id = some module)
    {first second other : ModuleId} {firstStep secondStep : Step} {firstWay secondWay : List Step}
    (isFirst : tree.step? id firstStep = some first)
    (isSecond : tree.step? id secondStep = some second)
    (belowFirst : tree.follow? first firstWay = some other)
    (belowSecond : tree.follow? second secondWay = some other) : first = second := by
  obtain ⟨way, leads⟩ := shaped.exists_way (header?_of_get? found)
  have whole : ∀ {step child steps}, tree.step? id step = some child →
      tree.follow? child steps = some other →
      tree.follow? rootId (way ++ step :: steps) = some other := by
    intro step child steps isChild below
    rw [follow?_append, leads, Option.bind_some, follow?_cons, isChild, Option.bind_some, below]
  have same := shaped.follow_injective (whole isFirst belowFirst) (whole isSecond belowSecond)
  obtain ⟨rfl, -⟩ := List.cons.inj (List.append_cancel_left same)
  exact Option.some.inj (isFirst.symm.trans isSecond)

end Shaped

/-- A walk meets what lies below its start, each module once, and the view of the start holds the
views of what the walk meets. -/
structure Walk (tree : ModuleTree) (id : ModuleId) (ids : List ModuleId) : Prop where
  visits : tree.Visits id ids
  nodup : ids.Nodup
  mem : ∀ {other}, other ∈ ids ↔ ∃ steps, tree.follow? id steps = some other
  views : ∀ {view}, tree.view? id = some view → view.preorder.map some = ids.map tree.view?

section

variable {tree : ModuleTree} {id : ModuleId} {module : DocModule}
variable {idsOf : ModuleId → List ModuleId}

theorem mem_below (shaped : tree.Shaped) (found : tree.get? id = some module)
    (walks : ∀ child ∈ module.children, tree.Walk child (idsOf child)) {other : ModuleId} :
    other ∈ module.children.flatMap idsOf ↔
      ∃ step steps, tree.follow? id (step :: steps) = some other := by
  simp only [List.mem_flatMap, follow?_cons, Option.bind_eq_some_iff]
  constructor
  · rintro ⟨child, isChild, member⟩
    obtain ⟨step, leads⟩ := (shaped.mem_children found).1 isChild
    obtain ⟨steps, goesOn⟩ := (walks child isChild).mem.1 member
    exact ⟨step, steps, child, leads, goesOn⟩
  · rintro ⟨step, steps, child, leads, goesOn⟩
    have isChild := (shaped.mem_children found).2 ⟨step, leads⟩
    exact ⟨child, isChild, (walks child isChild).mem.2 ⟨steps, goesOn⟩⟩

theorem nodup_below (shaped : tree.Shaped) (found : tree.get? id = some module)
    (walks : ∀ child ∈ module.children, tree.Walk child (idsOf child)) :
    (module.children.flatMap idsOf).Nodup := by
  have distinct : module.children.Pairwise (· ≠ ·) := by
    rw [← childrenOf_of_get? found]
    exact (shaped.pairwise_childrenOf id).imp Nat.ne_of_lt
  refine List.nodup_flatMap.2 ⟨fun child isChild => (walks child isChild).nodup, ?_⟩
  -- A module below two children would have two ways from the root.
  refine distinct.imp_of_mem fun {first second} isFirst isSecond different => ?_
  intro other inFirst inSecond
  obtain ⟨firstStep, leadsFirst⟩ := (shaped.mem_children found).1 isFirst
  obtain ⟨secondStep, leadsSecond⟩ := (shaped.mem_children found).1 isSecond
  obtain ⟨firstWay, belowFirst⟩ := (walks first isFirst).mem.1 inFirst
  obtain ⟨secondWay, belowSecond⟩ := (walks second isSecond).mem.1 inSecond
  exact different (shaped.child_unique found leadsFirst leadsSecond belowFirst belowSecond)

theorem views_below (shaped : tree.Shaped) (found : tree.get? id = some module)
    (walks : ∀ child ∈ module.children, tree.Walk child (idsOf child)) {views : List ModuleView}
    (shown : views.map some = module.children.map tree.view?) :
    (views.flatMap ModuleView.preorder).map some =
      (module.children.flatMap idsOf).map tree.view? := by
  let within : Option ModuleView → List (Option ModuleView) := fun view =>
    (view.map fun view => view.preorder.map some).getD []
  calc (views.flatMap ModuleView.preorder).map some
    _ = (views.map some).flatMap within := by
      rw [List.map_flatMap, List.flatMap_map]
      rfl
    _ = module.children.flatMap fun child => within (tree.view? child) := by
      rw [shown, List.flatMap_map]
    _ = module.children.flatMap fun child => (idsOf child).map tree.view? := by
      refine List.flatMap_congr fun child isChild => ?_
      obtain ⟨own, foundOwn, -⟩ := shaped.child found isChild
      obtain ⟨view, isView, -⟩ := shaped.exists_view foundOwn
      rw [isView]
      exact (walks child isChild).views isView
    _ = (module.children.flatMap idsOf).map tree.view? := by rw [List.map_flatMap]

/-- Walks from the children of a module make a walk from the module. -/
theorem Walk.of_children (shaped : tree.Shaped) (found : tree.get? id = some module)
    (walks : ∀ child ∈ module.children, tree.Walk child (idsOf child)) :
    tree.Walk id (id :: module.children.flatMap idsOf) := by
  refine ⟨.module found ?_, ?_, ?_, ?_⟩
  · rw [List.forall₂_map_right_iff, List.forall₂_same]
    exact fun child isChild => (walks child isChild).visits
  · rw [List.nodup_cons]
    refine ⟨fun member => ?_, nodup_below shaped found walks⟩
    obtain ⟨step, steps, back⟩ := (mem_below shaped found walks).1 member
    exact shaped.follow?_ne_self found back
  · intro other
    rw [List.mem_cons, mem_below shaped found walks]
    constructor
    · rintro (rfl | ⟨step, steps, leads⟩)
      · exact ⟨[], rfl⟩
      · exact ⟨step :: steps, leads⟩
    · rintro ⟨_ | ⟨step, steps⟩, leads⟩
      · exact .inl (Option.some.inj leads).symm
      · exact .inr ⟨step, steps, leads⟩
  · intro view isView
    obtain ⟨_, isViewAgain, -, shown⟩ := shaped.exists_view found
    obtain rfl := Option.some.inj (isView.symm.trans isViewAgain)
    rw [ModuleView.preorder_eq, List.map_cons, List.map_cons, isView,
      views_below shaped found walks shown]

theorem Shaped.exists_walk (shaped : tree.Shaped) (found : tree.get? id = some module) :
    ∃ ids, tree.Walk id ids := by
  refine shaped.induction_below (fun id _ => ∃ ids, tree.Walk id ids)
    (fun id module found below => ?_) found
  have each : ∀ child ∈ module.children, ∃ ids, tree.Walk child ids := by
    intro child isChild
    obtain ⟨_, -, -, walk⟩ := below child isChild
    exact walk
  choose! idsOf walks using each
  exact ⟨_, .of_children shaped found walks⟩

/-! ## Everything once -/

/-- The number of declarations filed in the module with a number. -/
def countOf (tree : ModuleTree) (id : ModuleId) : Nat :=
  ((tree.get? id).map DocModule.declarationCount).getD 0

theorem map_countOf_range (tree : ModuleTree) :
    (List.range tree.size).map tree.countOf =
      tree.modules.toList.map DocModule.declarationCount := by
  apply List.ext_getElem
  · simp [size]
  · intro n inside _
    have known : n < tree.modules.size := by simpa [size] using inside
    simp [countOf, get?, known]

/-- The views of a walk from the root list the declarations of all modules. -/
theorem Walk.declarationCount_eq {ids : List ModuleId} (walk : tree.Walk id ids)
    (shaped : tree.Shaped) (all : ids.Perm (List.range tree.size)) {view : ModuleView}
    (isView : tree.view? id = some view) :
    view.declarationCount = (tree.modules.toList.map DocModule.declarationCount).sum := by
  let counted : Option ModuleView → Nat := fun view => (view.map ModuleView.ownCount).getD 0
  have sameCount : ∀ other, counted (tree.view? other) = tree.countOf other := by
    intro other
    cases found : tree.get? other with
    | none => simp only [counted, view?, countOf, found, Option.map_none, Option.getD_none]
    | some module =>
        obtain ⟨own, isOwn, presents, -⟩ := shaped.exists_view found
        simp only [counted, countOf, isOwn, found, Option.map_some, Option.getD_some,
          presents.ownCount_eq]
  calc view.declarationCount
    _ = ((view.preorder.map some).map counted).sum := by
      rw [ModuleView.declarationCount_eq, List.map_map]
      rfl
    _ = (ids.map tree.countOf).sum := by
      rw [walk.views isView, List.map_map]
      exact congrArg (fun count => (ids.map count).sum) (funext sameCount)
    _ = ((List.range tree.size).map tree.countOf).sum := (all.map _).sum_eq
    _ = (tree.modules.toList.map DocModule.declarationCount).sum := by rw [map_countOf_range]

/-- The views of a shaped tree hold every module and every declaration once. -/
theorem Shaped.nested (shaped : tree.Shaped) : tree.Nested where
  missing absent := by rw [view?, absent, Option.map_none]
  view {id module} found := by
    refine ⟨?_, shaped.exists_view found⟩
    rw [← childrenOf_of_get? found]
    exact shaped.pairwise_childrenOf id
  levels {id module} found more := shaped.viewWithin_eq found (Nat.le_add_left _ _) more
  everything := by
    obtain ⟨root, foundRoot, -⟩ := shaped.wellFormed.root
    obtain ⟨view, isView, -⟩ := shaped.exists_view foundRoot
    obtain ⟨ids, walk⟩ := shaped.exists_walk foundRoot
    have all : ids.Perm (List.range tree.size) := by
      rw [List.perm_ext_iff_of_nodup walk.nodup List.nodup_range]
      intro other
      rw [walk.mem, List.mem_range]
      constructor
      · rintro ⟨steps, leads⟩
        obtain ⟨module, found⟩ := shaped.get?_of_follow? leads
        exact lt_size_of_get? found
      · intro inside
        obtain ⟨header, found⟩ := exists_header_of_lt inside
        exact shaped.exists_way found
    exact ⟨view, ids, isView, walk.visits, all, walk.views isView,
      walk.declarationCount_eq shaped all isView⟩

end

end ModuleTree

/-- **The views of the documentation hold every module and every declaration exactly once.**  After
any calls of the two passes, with any index and from any state of it, the view of the root ends, and
its pre-order meets the view of every module once.  The view of any module has its header, lists its
tables and its constants in their order and nests the views of its children in the order of their
creation, and the declarations counted in the view of the root are those filed in all modules.  The
tree of every documentation is such a tree. -/
theorem views_hold_everything :
    (∀ {σ : Type} (extraction : Extraction (StateM σ)) (state : σ)
      (calls : List Extraction.Call),
      (extraction.after extraction.start calls state).1.Nested) ∧
    ∀ {program : Program} {settings : Settings} {files : List FileId}
      {documentation : Documentation},
      extractFiles program settings files = .ok documentation →
      documentation.tree.Nested ∧ documentation.declarationCount =
        (documentation.tree.modules.toList.map DocModule.declarationCount).sum := by
  constructor
  · intro σ extraction state calls
    have shaped := Extraction.after_shaped
      (canReturn_run (extraction.after extraction.start calls) state)
    exact shaped.nested
  · intro program settings files documentation succeeds
    have nested := (extractFiles_within succeeds).1.shaped.nested
    obtain ⟨view, _, isView, -, -, -, count⟩ := nested.everything
    refine ⟨nested, ?_⟩
    rw [Documentation.declarationCount, Documentation.root?, isView, ← count]
    rfl

/-- Two files that open the same namespace of a directory: the view of the root holds three modules,
and the interface that both files declare is counted once. -/
theorem views_hold_everything_shapes :
    ∃ (documentation : Documentation) (view : ModuleView) (ids : List ModuleId),
      extractFiles shapesProgram (.ofBase "/project") [⟨0⟩, ⟨1⟩] = .ok documentation ∧
        documentation.tree.view? ModuleTree.rootId = some view ∧ ids.Perm [0, 1, 2] ∧
        view.preorder.map some = ids.map documentation.tree.view? ∧
        documentation.declarationCount = 1 := by
  obtain ⟨documentation, succeeds, -⟩ := extractFiles_collected shapesProgram (.ofBase "/project")
    (show ∀ file ∈ [⟨0⟩, ⟨1⟩], (shapesProgram.file? file).isSome = true by decide)
  have evaluated : (extractFiles shapesProgram (.ofBase "/project") [⟨0⟩, ⟨1⟩]).toOption.map
      (fun documentation => (documentation.tree.size,
        (documentation.tree.modules.toList.map DocModule.declarationCount).sum)) =
      some (3, 1) := by decide +kernel
  rw [succeeds, Except.toOption, Option.map_some, Option.some.injEq, Prod.mk.injEq] at evaluated
  obtain ⟨nested, count⟩ := views_hold_everything.2 succeeds
  obtain ⟨view, ids, isView, -, all, shown, -⟩ := nested.everything
  rw [evaluated.1] at all
  exact ⟨documentation, view, ids, succeeds, isView, all, shown, count.trans evaluated.2⟩

end ApiDocs
