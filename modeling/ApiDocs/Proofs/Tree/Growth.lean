import ApiDocs.Collect.Contribution
import ApiDocs.Extract

/-!
# Growing module trees

A module tree only grows.  Entering a directory or a namespace finds a child or creates one, and
filing a declaration changes the declarations of one module; neither moves a module, renames it or
forgets a record.  This module says so once, for all operations, so that later arguments never look
at the arrays and tables behind a tree.

## Main definitions

* `Step`, `route` — a way down the tree: names of directories, then names of namespaces.
* `ModuleTree.step?`, `ModuleTree.follow?` — the module that a step or a list of steps leads to.
* `DocModule.Continues` — a module at a later time: the same header, and no record lost.
* `ModuleTree.Extends` — a tree at a later time: all look-ups keep their answers.
* `ModuleTree.WellFormed` — the links of a tree agree with the headers of its modules.
* `ModuleTree.Leads` — a way down a tree along the children of its modules.
* `ModuleTree.Entered` — everything that entering a child can do.

## Design notes

**Directories and namespaces are treated alike.**  Both are children reached by one step; the step
says which of the two tables is meant.  What entering does is stated once in `Entered`, and the
facts about lists of names follow from `Arrived.trans`.
-/

namespace ApiDocs

/-- One step down a module tree: the name of a child, and whether it is a namespace. -/
structure Step where
  name : String
  isNamespace : Bool
deriving DecidableEq

/-- The way through directories and then through namespaces. -/
def route (directories namespaces : List String) : List Step :=
  directories.map (⟨·, false⟩) ++ namespaces.map (⟨·, true⟩)

theorem route_namespaces (directories namespaces : List String) :
    route directories namespaces = route directories [] ++ route [] namespaces := by
  simp [route]

theorem map_name_route (directories namespaces : List String) :
    (route directories namespaces).map (·.name) = directories ++ namespaces := by
  simp [route, Function.comp_def]

/-! ## Modules at a later time -/

/-- A module at a later time.  The header stays, children are added at the end, and every record
stays. -/
structure DocModule.Continues (earlier later : DocModule) : Prop where
  name : later.name = earlier.name
  path : later.path = earlier.path
  repository : later.repository = earlier.repository
  isNamespace : later.isNamespace = earlier.isNamespace
  parent : later.parent = earlier.parent
  children : earlier.children <+: later.children
  record : ∀ name kind, earlier.hasRecord name kind = true → later.hasRecord name kind = true

namespace DocModule.Continues

variable {earlier later last : DocModule}

theorem refl (module : DocModule) : module.Continues module :=
  ⟨rfl, rfl, rfl, rfl, rfl, List.prefix_refl _, fun _ _ there => there⟩

theorem trans (first : earlier.Continues later) (second : later.Continues last) :
    earlier.Continues last where
  name := second.name.trans first.name
  path := second.path.trans first.path
  repository := second.repository.trans first.repository
  isNamespace := second.isNamespace.trans first.isNamespace
  parent := second.parent.trans first.parent
  children := first.children.trans second.children
  record name kind there := second.record name kind (first.record name kind there)

end DocModule.Continues

/-- The declarations of a module, under an empty header. -/
def DocModule.content (module : DocModule) : DocModule where
  name := ""
  classes := module.classes
  interfaces := module.interfaces
  enums := module.enums
  aliases := module.aliases
  functions := module.functions
  constants := module.constants

namespace ModuleTree

/-! ## Ways down a tree -/

/-- The child of a module that a step leads to. -/
def step? (tree : ModuleTree) (id : ModuleId) (step : Step) : Option ModuleId :=
  if step.isNamespace then tree.namespace? id step.name else tree.directory? id step.name

/-- The module that a list of steps leads to. -/
def follow? (tree : ModuleTree) (start : ModuleId) (steps : List Step) : Option ModuleId :=
  steps.foldlM tree.step? start

@[simp] theorem follow?_nil (tree : ModuleTree) (start : ModuleId) :
    tree.follow? start [] = some start := rfl

theorem follow?_cons (tree : ModuleTree) (start : ModuleId) (step : Step) (steps : List Step) :
    tree.follow? start (step :: steps) = (tree.step? start step).bind (tree.follow? · steps) := by
  rw [follow?, List.foldlM_cons]
  rfl

theorem follow?_append (tree : ModuleTree) (start : ModuleId) (first second : List Step) :
    tree.follow? start (first ++ second) =
      (tree.follow? start first).bind (tree.follow? · second) := by
  rw [follow?, List.foldlM_append]
  rfl

/-! ## Trees at a later time -/

/-- A tree at a later time: modules continue, and every look-up that had an answer keeps it. -/
structure Extends (earlier later : ModuleTree) : Prop where
  module : ∀ {id module}, earlier.get? id = some module →
    ∃ continued, later.get? id = some continued ∧ module.Continues continued
  step : ∀ {id step child}, earlier.step? id step = some child → later.step? id step = some child
  file : ∀ {file id}, earlier.fileModules.find? file = some id →
    later.fileModules.find? file = some id

namespace Extends

variable {earlier later last : ModuleTree}

theorem refl (tree : ModuleTree) : tree.Extends tree where
  module found := ⟨_, found, .refl _⟩
  step found := found
  file found := found

theorem trans (first : earlier.Extends later) (second : later.Extends last) :
    earlier.Extends last where
  module found := by
    obtain ⟨middle, foundMiddle, continuesMiddle⟩ := first.module found
    obtain ⟨final, foundFinal, continuesFinal⟩ := second.module foundMiddle
    exact ⟨final, foundFinal, continuesMiddle.trans continuesFinal⟩
  step found := second.step (first.step found)
  file found := second.file (first.file found)

/-- A way that leads somewhere leads there for ever. -/
theorem follow (extension : earlier.Extends later) {steps : List Step} :
    ∀ {start id : ModuleId}, earlier.follow? start steps = some id →
      later.follow? start steps = some id := by
  induction steps with
  | nil => intro start id found; exact found
  | cons step steps ih =>
      intro start id found
      rw [follow?_cons, Option.bind_eq_some_iff] at found
      obtain ⟨child, here, below⟩ := found
      rw [follow?_cons, extension.step here]
      exact ih below

end Extends

/-- A module lies directly below another one, under the name and the kind of a step. -/
def Linked (tree : ModuleTree) (parent : ModuleId) (step : Step) (id : ModuleId) : Prop :=
  ∃ above below, tree.get? parent = some above ∧ tree.get? id = some below ∧
    id ∈ above.children ∧ below.parent = some parent ∧ below.name = step.name ∧
    below.isNamespace = step.isNamespace ∧ below.path = above.path ++ [step.name]

/-- The links of a tree agree with its modules: the root has the empty path, and a step leads to a
module that lies below the one it starts from. -/
structure WellFormed (tree : ModuleTree) : Prop where
  root : ∃ module, tree.get? rootId = some module ∧ module.path = []
  child : ∀ {parent step id}, tree.step? parent step = some id → tree.Linked parent step id

theorem Extends.root {earlier later : ModuleTree} (growth : earlier.Extends later)
    (wellFormed : earlier.WellFormed) :
    ∃ module, later.get? rootId = some module ∧ module.path = [] := by
  obtain ⟨root, foundRoot, rootPath⟩ := wellFormed.root
  obtain ⟨module, foundModule, continues⟩ := growth.module foundRoot
  exact ⟨module, foundModule, continues.path.trans rootPath⟩

theorem Extends.linked {earlier later : ModuleTree} (growth : earlier.Extends later)
    {parent id : ModuleId} {step : Step} (linked : earlier.Linked parent step id) :
    later.Linked parent step id := by
  obtain ⟨above, below, foundAbove, foundBelow, child, belowParent, name, kind, path⟩ := linked
  obtain ⟨above', foundAbove', continuesAbove⟩ := growth.module foundAbove
  obtain ⟨below', foundBelow', continuesBelow⟩ := growth.module foundBelow
  refine ⟨above', below', foundAbove', foundBelow', ?_, ?_, ?_, ?_, ?_⟩
  · exact continuesAbove.children.subset child
  · exact continuesBelow.parent.trans belowParent
  · exact continuesBelow.name.trans name
  · exact continuesBelow.isNamespace.trans kind
  · rw [continuesBelow.path, path, continuesAbove.path]

/-- A way from a module leads to a module, whose path continues that of the first. -/
theorem WellFormed.follow {tree : ModuleTree} (wellFormed : tree.WellFormed) {steps : List Step} :
    ∀ {start id : ModuleId} {above : DocModule}, tree.get? start = some above →
      tree.follow? start steps = some id →
      ∃ module, tree.get? id = some module ∧ module.path = above.path ++ steps.map (·.name) := by
  induction steps with
  | nil =>
      intro start id above there found
      cases found
      exact ⟨above, there, by simp⟩
  | cons step steps ih =>
      intro start id above there found
      rw [follow?_cons, Option.bind_eq_some_iff] at found
      obtain ⟨child, here, rest⟩ := found
      obtain ⟨parent, below, foundParent, foundBelow, -, -, -, -, path⟩ := wellFormed.child here
      obtain rfl : above = parent := Option.some.inj (there.symm.trans foundParent)
      obtain ⟨module, foundModule, modulePath⟩ := ih foundBelow rest
      exact ⟨module, foundModule, by simp [modulePath, path]⟩

/-- Children lead from one module to another: each step goes to a child with the name and the kind
of the step. -/
inductive Leads (tree : ModuleTree) : ModuleId → List Step → ModuleId → Prop
  | here {id : ModuleId} : Leads tree id [] id
  | child {start next id : ModuleId} {step : Step} {steps : List Step} {above below : DocModule}
      (foundAbove : tree.get? start = some above) (child : next ∈ above.children)
      (foundBelow : tree.get? next = some below) (name : below.name = step.name)
      (kind : below.isNamespace = step.isNamespace) (rest : Leads tree next steps id) :
      Leads tree start (step :: steps) id

/-- Look-ups lead along children. -/
theorem WellFormed.leads {tree : ModuleTree} (wellFormed : tree.WellFormed) {steps : List Step} :
    ∀ {start id : ModuleId}, tree.follow? start steps = some id → tree.Leads start steps id := by
  induction steps with
  | nil =>
      intro start id found
      cases found
      exact .here
  | cons step steps ih =>
      intro start id found
      rw [follow?_cons, Option.bind_eq_some_iff] at found
      obtain ⟨next, here, rest⟩ := found
      obtain ⟨above, below, foundAbove, foundBelow, child, -, name, kind, -⟩ :=
        wellFormed.child here
      exact .child foundAbove child foundBelow name kind (ih rest)

/-! ## The declarations of modules -/

/-- The declarations of the module with a number; none before there is such a module. -/
def contentOf (tree : ModuleTree) (id : ModuleId) : DocModule :=
  ((tree.get? id).map (·.content)).getD { name := "" }

/-! ## Entering a child -/

/-- Everything that entering a child can do: the child is there and the tree stays, or an empty
child with the next number and the given repository is created below the parent. -/
inductive Entered (tree : ModuleTree) (parent : ModuleId) (step : Step)
    (repository : Option String) : ModuleId → ModuleTree → Prop
  | found {id : ModuleId} (there : tree.step? parent step = some id) :
      Entered tree parent step repository id tree
  | created {above : DocModule} {grown : ModuleTree}
      (absent : tree.step? parent step = none) (parentThere : tree.get? parent = some above)
      (modules : ∀ id, grown.get? id =
        if id = tree.size then
          some { name := step.name, path := above.path ++ [step.name], repository
                 isNamespace := step.isNamespace, parent := some parent }
        else if id = parent then some { above with children := above.children ++ [tree.size] }
        else tree.get? id)
      (steps : ∀ id other, grown.step? id other =
        if id = parent ∧ other = step then some tree.size else tree.step? id other)
      (files : grown.fileModules = tree.fileModules) :
      Entered tree parent step repository tree.size grown

theorem lt_size_of_get? {tree : ModuleTree} {id : ModuleId} {module : DocModule}
    (found : tree.get? id = some module) : id < tree.size := by
  obtain ⟨inside, -⟩ := Array.getElem?_eq_some_iff.1 found
  exact inside

/-- The modules of a tree after a child was added. -/
theorem get?_addChild {tree : ModuleTree} {parent : ModuleId} {above : DocModule}
    (there : tree.get? parent = some above) (name : String) (repository : Option String)
    (isNamespace : Bool) (id : ModuleId) :
    (tree.addChild parent name repository isNamespace).2.get? id =
      if id = tree.size then
        some { name, path := above.path ++ [name], repository, isNamespace
               parent := some parent }
      else if id = parent then some { above with children := above.children ++ [tree.size] }
      else tree.get? id := by
  have inside : parent < tree.size := lt_size_of_get? there
  have before : tree.modules[parent]? = some above := there
  simp only [addChild, there]
  rw [get?, Array.getElem?_modify, Array.getElem?_push]
  change _ = if id = tree.modules.size then _ else _
  by_cases new : id = tree.modules.size
  · have different : parent ≠ id := Nat.ne_of_lt (new ▸ inside)
    rw [if_neg different, if_pos new, if_pos new]
  · by_cases same : id = parent
    · subst same
      rw [if_pos rfl, if_neg new, if_neg new, if_pos rfl, before]
      rfl
    · rw [if_neg (Ne.symm same), if_neg new, if_neg new, if_neg same]
      rfl

theorem addChild_fst {tree : ModuleTree} {parent : ModuleId} {above : DocModule}
    (there : tree.get? parent = some above) (name : String) (repository : Option String)
    (isNamespace : Bool) :
    (tree.addChild parent name repository isNamespace).1 = tree.size := by
  simp [addChild, there]

theorem enterDirectory_entered {tree : ModuleTree} {parent : ModuleId} {above : DocModule}
    (there : tree.get? parent = some above) (name : String) :
    Entered tree parent ⟨name, false⟩ (tree.directoryRepository parent name)
      (tree.enterDirectory parent name).1 (tree.enterDirectory parent name).2 := by
  cases looked : tree.directory? parent name with
  | some id =>
      simp only [enterDirectory, looked]
      exact .found looked
  | none =>
      simp only [enterDirectory, looked, addChild_fst there]
      refine .created looked there
        (fun id => get?_addChild there name (tree.directoryRepository parent name) false id) ?_ ?_
      · intro id other
        obtain ⟨otherName, otherIsNamespace⟩ := other
        cases otherIsNamespace with
        | true => simp [step?, namespace?, addChild, there]
        | false => simp [step?, directory?, addChild, there, Table.find?_insert]
      · simp [addChild, there]

theorem enterNamespace_entered {tree : ModuleTree} {parent : ModuleId} {above : DocModule}
    (there : tree.get? parent = some above) (name : String) (repository : Option String) :
    Entered tree parent ⟨name, true⟩ repository (tree.enterNamespace parent name repository).1
      (tree.enterNamespace parent name repository).2 := by
  cases looked : tree.namespace? parent name with
  | some id =>
      simp only [enterNamespace, looked]
      exact .found looked
  | none =>
      simp only [enterNamespace, looked, addChild_fst there]
      refine .created looked there (fun id => get?_addChild there name repository true id) ?_ ?_
      · intro id other
        obtain ⟨otherName, otherIsNamespace⟩ := other
        cases otherIsNamespace with
        | true => simp [step?, namespace?, addChild, there, Table.find?_insert]
        | false => simp [step?, directory?, addChild, there]
      · simp [addChild, there]

/-- What a way down the tree leaves behind when missing children are created: a later tree in which
the way leads to the answered module, with no declaration changed. -/
structure Arrived (tree : ModuleTree) (start : ModuleId) (steps : List Step) (id : ModuleId)
    (grown : ModuleTree) : Prop where
  growth : tree.Extends grown
  wellFormed : grown.WellFormed
  follow : grown.follow? start steps = some id
  content : ∀ other, grown.contentOf other = tree.contentOf other
  files : grown.fileModules = tree.fileModules

namespace Entered

variable {tree grown : ModuleTree} {parent id : ModuleId} {step : Step}
variable {repository : Option String}

theorem growth (entered : Entered tree parent step repository id grown) : tree.Extends grown := by
  cases entered with
  | found there => exact .refl tree
  | created absent parentThere modules steps files =>
      constructor
      · intro other module found
        have old : other ≠ tree.size := Nat.ne_of_lt (lt_size_of_get? found)
        by_cases same : other = parent
        · subst same
          obtain rfl := Option.some.inj (found.symm.trans parentThere)
          refine ⟨_, by rw [modules, if_neg old, if_pos rfl], ?_⟩
          exact ⟨rfl, rfl, rfl, rfl, rfl, List.prefix_append _ _,
            fun _ kind there => by cases kind <;> exact there⟩
        · exact ⟨module, by rw [modules, if_neg old, if_neg same, found], .refl module⟩
      · intro other otherStep child found
        have different : ¬(other = parent ∧ otherStep = step) := by
          rintro ⟨rfl, rfl⟩
          rw [absent] at found
          cases found
        rw [steps, if_neg different, found]
      · intro file module found
        rw [files, found]

theorem wellFormed (entered : Entered tree parent step repository id grown)
    (before : tree.WellFormed) : grown.WellFormed := by
  have growth := entered.growth
  refine ⟨growth.root before, ?_⟩
  cases entered with
  | found there => exact before.child
  | created absent parentThere modules steps files =>
      intro other otherStep child found
      rw [steps] at found
      split at found
      · rename_i here
        obtain ⟨rfl, rfl⟩ := here
        cases found
        have old : other ≠ tree.size := Nat.ne_of_lt (lt_size_of_get? parentThere)
        exact ⟨_, _, by rw [modules, if_neg old, if_pos rfl], by rw [modules, if_pos rfl],
          List.mem_append_right _ (List.mem_singleton_self _), rfl, rfl, rfl, rfl⟩
      · exact growth.linked (before.child found)

theorem step_eq (entered : Entered tree parent step repository id grown) :
    grown.step? parent step = some id := by
  cases entered with
  | found there => exact there
  | created absent parentThere modules steps files => rw [steps, if_pos ⟨rfl, rfl⟩]

theorem content (entered : Entered tree parent step repository id grown) (other : ModuleId) :
    grown.contentOf other = tree.contentOf other := by
  cases entered with
  | found there => rfl
  | created absent parentThere modules steps files =>
      rw [contentOf, contentOf, modules]
      by_cases new : other = tree.size
      · -- The new module and the module that was not there have no declarations.
        have missing : tree.get? other = none := by
          rw [new]
          exact Array.getElem?_size
        rw [if_pos new, missing]
        rfl
      · by_cases same : other = parent
        · subst same
          rw [if_neg new, if_pos rfl, parentThere]
          rfl
        · rw [if_neg new, if_neg same]

theorem files (entered : Entered tree parent step repository id grown) :
    grown.fileModules = tree.fileModules := by
  cases entered with
  | found there => rfl
  | created absent parentThere modules steps files => exact files

theorem arrived (entered : Entered tree parent step repository id grown)
    (before : tree.WellFormed) : Arrived tree parent [step] id grown where
  growth := entered.growth
  wellFormed := entered.wellFormed before
  follow := by rw [follow?_cons, entered.step_eq]; rfl
  content := entered.content
  files := entered.files

end Entered

namespace Arrived

variable {tree middle last : ModuleTree} {start id final : ModuleId} {first second : List Step}

theorem refl (wellFormed : tree.WellFormed) : Arrived tree start [] start tree :=
  ⟨.refl tree, wellFormed, rfl, fun _ => rfl, rfl⟩

theorem trans (one : Arrived tree start first id middle)
    (two : Arrived middle id second final last) :
    Arrived tree start (first ++ second) final last where
  growth := one.growth.trans two.growth
  wellFormed := two.wellFormed
  follow := by
    rw [follow?_append, two.growth.follow one.follow]
    exact two.follow
  content other := (two.content other).trans (one.content other)
  files := two.files.trans one.files

/-- The answered module is there. -/
theorem get? (arrived : Arrived tree start first id middle) {above : DocModule}
    (there : tree.get? start = some above) :
    ∃ module, middle.get? id = some module ∧ module.path = above.path ++ first.map (·.name) := by
  obtain ⟨later, foundLater, continues⟩ := arrived.growth.module there
  rw [← continues.path]
  exact arrived.wellFormed.follow foundLater arrived.follow

end Arrived

theorem enterDirectories_arrived (names : List String) :
    ∀ {tree : ModuleTree} {start : ModuleId} {above : DocModule}, tree.WellFormed →
      tree.get? start = some above →
      Arrived tree start (route names []) (tree.enterDirectories start names).1
        (tree.enterDirectories start names).2 := by
  induction names with
  | nil => intro tree start above wellFormed there; exact .refl wellFormed
  | cons name names ih =>
      intro tree start above wellFormed there
      have first := (enterDirectory_entered there name).arrived wellFormed
      obtain ⟨module, found, -⟩ := first.get? there
      exact first.trans (ih first.wellFormed found)

theorem enterNamespaces_arrived (fileName : String) (names : List String) :
    ∀ {tree : ModuleTree} {start : ModuleId} {above : DocModule}, tree.WellFormed →
      tree.get? start = some above →
      Arrived tree start (route [] names) (tree.enterNamespaces fileName start names).1
        (tree.enterNamespaces fileName start names).2 := by
  induction names with
  | nil => intro tree start above wellFormed there; exact .refl wellFormed
  | cons name names ih =>
      intro tree start above wellFormed there
      have first := (enterNamespace_entered there name
        (tree.namespaceRepository start fileName)).arrived wellFormed
      obtain ⟨module, found, -⟩ := first.get? there
      exact first.trans (ih first.wellFormed found)

/-! ## Changing a module -/

theorem get?_modify (tree : ModuleTree) (id other : ModuleId) (change : DocModule → DocModule) :
    (tree.modify id change).get? other =
      if id = other then (tree.get? other).map change else tree.get? other := by
  rw [get?, modify, Array.getElem?_modify]
  rfl

/-- A change that continues every module gives a later tree. -/
theorem modify_extends (tree : ModuleTree) (id : ModuleId) {change : DocModule → DocModule}
    (continues : ∀ module : DocModule, module.Continues (change module)) :
    tree.Extends (tree.modify id change) where
  module {other module} found := by
    rw [get?_modify, found]
    split
    · exact ⟨change module, rfl, continues module⟩
    · exact ⟨module, rfl, .refl module⟩
  step found := found
  file found := found

theorem WellFormed.modify {tree : ModuleTree} (wellFormed : tree.WellFormed) (id : ModuleId)
    {change : DocModule → DocModule}
    (continues : ∀ module : DocModule, module.Continues (change module)) :
    (tree.modify id change).WellFormed where
  root := (tree.modify_extends id continues).root wellFormed
  child found := (tree.modify_extends id continues).linked (wellFormed.child found)

/-- A change of a module that is there acts on the declarations of that module only. -/
theorem contentOf_modify {tree : ModuleTree} {id : ModuleId} {module : DocModule}
    (found : tree.get? id = some module) {change : DocModule → DocModule}
    (acts : ∀ module : DocModule, (change module).content = change module.content)
    (other : ModuleId) :
    (tree.modify id change).contentOf other =
      if other = id then change (tree.contentOf other) else tree.contentOf other := by
  rw [contentOf, contentOf, get?_modify]
  by_cases same : id = other
  · subst same
    rw [if_pos rfl, if_pos rfl, found]
    exact acts module
  · rw [if_neg same, if_neg (Ne.symm same)]

theorem ofRoot_wellFormed (name : String) (repository : Option String) :
    (ofRoot name repository).WellFormed where
  root := ⟨{ name, repository }, rfl, rfl⟩
  child {parent step id} found := by
    obtain ⟨stepName, isNamespace⟩ := step
    cases isNamespace <;> cases found

end ModuleTree

end ApiDocs
