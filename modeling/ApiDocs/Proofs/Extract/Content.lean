import ApiDocs.Proofs.Extract.Completeness
import ApiDocs.Proofs.Resolve.Memory

/-!
# What ends up in a module

The walk through a list of files meets statements, and each of them has a way from the root:
the directories of its file and then the namespaces around it.  This module proves that these ways
alone decide where statements are filed.  In the documentation of a list of files, the declarations
of a module are those that **the statements with a way to the module** make, in the order of the
walk: first their skeletons, then their contributions.

## Main definitions

* `Filing`, `Program.filings` — the statements that a walk meets, with their ways.
* `ModuleTree.filedIn` — those whose way leads to a module.
* `PassRule` — what a pass learns from a statement and how that changes a module.
* `ModuleTree.Gains` — a tree after a pass over some statements.
* `Collected` — a tree after both passes.

## Main statements

* `extractFiles_collected` — the documentation of known files has such a tree.

## Design notes

**Ways are looked up in the last tree.**  A tree only grows, so a way that leads to a module while a
pass is running leads to the same module at the end.  No statement has to speak about the trees in
between, nor about ways that lead to the same module.
-/

namespace ApiDocs

open MonadAttach (CanReturn)

/-- A statement that a walk meets: its file, and the way from the root to its module. -/
structure Filing where
  file : FileId
  source : SourceFile
  steps : List Step
  statement : NodeIndex

/-- The scope in which a statement is resolved when it is filed in a module. -/
def Filing.scope (filing : Filing) (module : DocModule) : Scope :=
  .ofModule filing.file filing.source module

/-- The statement that an entry of a file meets, if it does not just open a namespace. -/
def Settings.filingOf? (settings : Settings) (file : FileId) (source : SourceFile)
    (entry : Entry) : Option Filing :=
  entry.statement.map fun statement =>
    { file, source, steps := route (settings.directoriesOf source) entry.namespaces, statement }

/-- The statements that a walk through a file meets. -/
def Program.filingsOf (program : Program) (settings : Settings) (file : FileId) : List Filing :=
  match program.file? file with
  | some source => source.entries.filterMap (settings.filingOf? file source)
  | none => []

/-- The statements that a walk through a list of files meets. -/
def Program.filings (program : Program) (settings : Settings) (files : List FileId) :
    List Filing :=
  files.flatMap (program.filingsOf settings)

/-- The statements whose way leads to a module. -/
def ModuleTree.filedIn (tree : ModuleTree) (id : ModuleId) (filings : List Filing) :
    List Filing :=
  filings.filter fun filing => tree.follow? ModuleTree.rootId filing.steps = some id

/-! ## The rule of a pass -/

/-- What a pass learns from a statement in a scope, and how that changes a module.  The change keeps
the header and the records of a module, and its outcome depends on the declarations only. -/
structure PassRule (β : Type) where
  learn : Scope → NodeIndex → Option β
  act : DocModule → β → DocModule
  continues : ∀ learnt (module : DocModule), module.Continues (act module learnt)
  content : ∀ learnt (module : DocModule),
    (act module learnt).content = act module.content learnt

/-- What a module comes to when statements are filed in it. -/
def PassRule.fill {β : Type} (rule : PassRule β) (module : DocModule) (content : DocModule)
    (filings : List Filing) : DocModule :=
  (filings.filterMap fun filing =>
    rule.learn (filing.scope module) filing.statement).foldl rule.act content

/-- A tree after a pass filed what it learnt, if anything, in a module. -/
def PassRule.file {β : Type} (rule : PassRule β) (tree : ModuleTree) (id : ModuleId)
    (learnt : Option β) : ModuleTree :=
  learnt.elim tree fun learnt => tree.modify id (rule.act · learnt)

namespace PassRule

variable {β : Type} (rule : PassRule β) (tree : ModuleTree) (id : ModuleId) (learnt : Option β)

theorem file_extends : tree.Extends (rule.file tree id learnt) := by
  cases learnt with
  | none => exact .refl tree
  | some learnt => exact tree.modify_extends id (rule.continues learnt)

@[simp] theorem follow?_file : (rule.file tree id learnt).follow? = tree.follow? := by
  cases learnt with
  | none => rfl
  | some learnt => rfl

/-- Filing changes the declarations of one module, by what was learnt. -/
theorem contentOf_file {module : DocModule} (found : tree.get? id = some module)
    (other : ModuleId) :
    (rule.file tree id learnt).contentOf other =
      if other = id then learnt.toList.foldl rule.act (tree.contentOf other)
      else tree.contentOf other := by
  cases learnt with
  | none => exact (ite_self _).symm
  | some learnt =>
      rw [file, Option.elim_some, ModuleTree.contentOf_modify found (rule.content learnt)]
      rfl

end PassRule

/-- The first pass: it files skeletons. -/
def Extraction.preparing (extraction : Extraction Id) : PassRule Skeleton where
  learn scope statement := (extraction.resolver.skeleton? scope statement).run
  act := Skeleton.file
  continues := Skeleton.file_continues
  content := Skeleton.content_file

/-- The second pass: it fills contributions in. -/
def Extraction.visiting (extraction : Extraction Id) : PassRule Contribution where
  learn scope statement := (extraction.resolver.contribution? scope statement).run
  act := Contribution.apply
  continues := Contribution.apply_continues
  content := Contribution.content_apply

/-! ## Trees after a pass -/

theorem filterMap_cons_toList {α β : Type} (select : α → Option β) (first : α) (rest : List α) :
    (first :: rest).filterMap select = (select first).toList ++ rest.filterMap select := by
  cases here : select first with
  | none => simp [here]
  | some selected => simp [here]

namespace ModuleTree

variable {β : Type} {rule : PassRule β} {tree middle grown result last : ModuleTree}

/-- A tree after a pass over some statements: each way leads to a module, and the declarations of
each module changed by what the statements with a way to it bring, in order. -/
structure Gains (rule : PassRule β) (tree : ModuleTree) (filings : List Filing)
    (result : ModuleTree) : Prop where
  reached : ∀ filing ∈ filings, ∃ id, result.follow? rootId filing.steps = some id
  content : ∀ {last : ModuleTree}, result.Extends last → ∀ {id : ModuleId} {module : DocModule},
    last.get? id = some module →
    result.contentOf id = rule.fill module (tree.contentOf id) (last.filedIn id filings)

namespace Gains

/-- Entering directories and namespaces brings no declarations. -/
theorem of_content_eq (same : ∀ id, result.contentOf id = tree.contentOf id) :
    tree.Gains rule [] result where
  reached filing member := by cases member
  content _ _ _ _ := same _

theorem trans {first second : List Filing} (one : tree.Gains rule first middle)
    (two : middle.Gains rule second result) (growth : middle.Extends result) :
    tree.Gains rule (first ++ second) result where
  reached filing member := by
    rcases List.mem_append.1 member with early | late
    · obtain ⟨id, follow⟩ := one.reached filing early
      exact ⟨id, growth.follow follow⟩
    · exact two.reached filing late
  content {last} extension {id module} found := by
    -- Both parts look their ways up in `last`, so one filter serves the whole list.
    have before := one.content (growth.trans extension) found
    rw [two.content extension found, before]
    simp only [PassRule.fill, filedIn, List.filter_append, List.filterMap_append,
      List.foldl_append]

end Gains

/-- A module resolves its statements in the same scope at any later time. -/
theorem Extends.scope_eq (growth : tree.Extends last) {id : ModuleId}
    {module continued : DocModule} (found : tree.get? id = some module)
    (foundLater : last.get? id = some continued) (filing : Filing) :
    filing.scope continued = filing.scope module := by
  obtain ⟨_, same, continues⟩ := growth.module found
  obtain rfl := Option.some.inj (foundLater.symm.trans same)
  rw [Filing.scope, Filing.scope, Scope.ofModule, Scope.ofModule, continues.repository,
    continues.isNamespace]

/-- One statement: the pass follows its way, and what it learns there changes the module at the end
of the way and no other. -/
theorem Gains.statement {base id : ModuleId} {directories namespaces : List String}
    {module : DocModule} {filing : Filing}
    (file : tree.follow? rootId (route directories []) = some base)
    (arrived : tree.Arrived base (route [] namespaces) id grown)
    (found : grown.get? id = some module) (steps : filing.steps = route directories namespaces)
    {learnt : Option β} (learns : rule.learn (filing.scope module) filing.statement = learnt) :
    tree.Gains rule [filing] (rule.file grown id learnt) := by
  have leads : (rule.file grown id learnt).follow? rootId filing.steps = some id := by
    rw [rule.follow?_file, steps, route_namespaces, follow?_append, arrived.growth.follow file]
    exact arrived.follow
  refine ⟨fun other member => ?_, fun {last} extension {other otherModule} foundLater => ?_⟩
  · obtain rfl := List.mem_singleton.1 member
    exact ⟨id, leads⟩
  · -- The way leads to `id` for ever: `last` files the statement there and nowhere else.
    have leadsLater := extension.follow leads
    rw [rule.contentOf_file grown id learnt found, arrived.content, PassRule.fill]
    by_cases here : other = id
    · subst here
      have inside : last.filedIn other [filing] = [filing] := by simp [filedIn, leadsLater]
      have growth := (rule.file_extends grown other learnt).trans extension
      rw [if_pos rfl, inside, filterMap_cons_toList, List.filterMap_nil, List.append_nil,
        growth.scope_eq found foundLater filing, learns]
    · have outside : last.filedIn other [filing] = [] := by
        simp [filedIn, leadsLater, Ne.symm here]
      rw [if_neg here, outside]
      rfl

end ModuleTree

namespace Extraction

variable {extraction : Extraction Id} {file : FileId} {source : SourceFile} {base : ModuleId}

/-- A value is what it returns. -/
theorem canReturn_id {α : Type} (value : Id α) : CanReturn value value.run := rfl

/-! ## One file -/

theorem prepareEntry_gains {tree : ModuleTree} {above : DocModule} {entry : Entry}
    (wellFormed : tree.WellFormed) (there : tree.get? base = some above)
    (follow : tree.follow? ModuleTree.rootId
      (route (extraction.settings.directoriesOf source) []) = some base) :
    tree.Gains extraction.preparing
      (extraction.settings.filingOf? file source entry).toList
      (extraction.prepareEntry file source base tree entry).run := by
  obtain ⟨id, grown, -, arrived, ⟨noStatement, same⟩ | ⟨index, module, skeleton, statement, found,
    learns, same⟩⟩ := prepareEntry_cases wellFormed there
      (canReturn_id (extraction.prepareEntry file source base tree entry))
  · rw [same, Settings.filingOf?, noStatement]
    exact .of_content_eq arrived.content
  · rw [same, Settings.filingOf?, statement]
    exact .statement follow arrived found rfl learns

theorem visitEntry_gains {tree : ModuleTree} {above : DocModule} {entry : Entry}
    (wellFormed : tree.WellFormed) (there : tree.get? base = some above)
    (follow : tree.follow? ModuleTree.rootId
      (route (extraction.settings.directoriesOf source) []) = some base)
    (succeeds : (extraction.visitEntry file source base tree entry).run.error = none) :
    tree.Gains extraction.visiting
      (extraction.settings.filingOf? file source entry).toList
      (extraction.visitEntry file source base tree entry).run.tree := by
  obtain ⟨id, grown, -, arrived, ⟨noStatement, same⟩ | ⟨index, module, statement, found,
    ⟨error, -, same⟩ | ⟨-, contribution, learns, same⟩⟩⟩ := visitEntry_cases wellFormed there
      (canReturn_id (extraction.visitEntry file source base tree entry))
  · rw [same, Settings.filingOf?, noStatement]
    exact .of_content_eq arrived.content
  · rw [same] at succeeds
    cases succeeds
  · rw [same, Settings.filingOf?, statement]
    exact .statement follow arrived found rfl learns

theorem prepareEntries_gains {entries : List Entry} :
    ∀ {tree : ModuleTree} {above : DocModule}, tree.WellFormed → tree.get? base = some above →
      tree.follow? ModuleTree.rootId
        (route (extraction.settings.directoriesOf source) []) = some base →
      tree.Gains extraction.preparing
        (entries.filterMap (extraction.settings.filingOf? file source))
        (extraction.prepareEntries file source base tree entries).run := by
  induction entries with
  | nil => intro tree above wellFormed there follow; exact .of_content_eq fun _ => rfl
  | cons entry entries ih =>
      intro tree above wellFormed there follow
      have advances := prepareEntry_advances wellFormed there
        (canReturn_id (extraction.prepareEntry file source base tree entry))
      obtain ⟨continued, foundContinued, -⟩ := advances.growth.module there
      obtain ⟨later, -⟩ := prepareEntries_ready advances.wellFormed foundContinued
        (canReturn_id (extraction.prepareEntries file source base _ entries))
      rw [filterMap_cons_toList]
      exact (prepareEntry_gains wellFormed there follow).trans
        (ih advances.wellFormed foundContinued (advances.growth.follow follow)) later.growth

theorem visitEntries_gains {entries : List Entry} :
    ∀ {tree : ModuleTree} {above : DocModule}, tree.WellFormed → tree.get? base = some above →
      tree.follow? ModuleTree.rootId
        (route (extraction.settings.directoriesOf source) []) = some base →
      (extraction.visitEntries file source base tree entries).run.error = none →
      tree.Gains extraction.visiting
        (entries.filterMap (extraction.settings.filingOf? file source))
        (extraction.visitEntries file source base tree entries).run.tree := by
  induction entries with
  | nil => intro tree above wellFormed there follow succeeds; exact .of_content_eq fun _ => rfl
  | cons entry entries ih =>
      intro tree above wellFormed there follow succeeds
      have advances := visitEntry_advances wellFormed there
        (canReturn_id (extraction.visitEntry file source base tree entry))
      obtain ⟨continued, foundContinued, -⟩ := advances.growth.module there
      have later := visitEntries_advances advances.wellFormed foundContinued
        (canReturn_id (extraction.visitEntries file source base _ entries))
      cases failed : (extraction.visitEntry file source base tree entry).run.error with
      | some error =>
          have stopped : (extraction.visitEntries file source base tree (entry :: entries)).run =
              (extraction.visitEntry file source base tree entry).run := by
            simp only [visitEntries, Id.run_bind, failed]
            rfl
          rw [stopped, failed] at succeeds
          cases succeeds
      | none =>
          have goesOn : (extraction.visitEntries file source base tree (entry :: entries)).run =
              (extraction.visitEntries file source base
                (extraction.visitEntry file source base tree entry).run.tree entries).run := by
            simp only [visitEntries, Id.run_bind, failed]
          rw [goesOn] at succeeds ⊢
          rw [filterMap_cons_toList]
          exact (visitEntry_gains wellFormed there follow failed).trans
            (ih advances.wellFormed foundContinued (advances.growth.follow follow) succeeds)
            later.growth

/-- What one pass over one file does, if it succeeds. -/
structure FilePass (extraction : Extraction Id) {β : Type} (rule : PassRule β)
    (pass : ModuleTree → FileId → Id Pass) : Prop where
  growth : ∀ {tree file}, extraction.Consistent tree → tree.Extends (pass tree file).run.tree
  consistent : ∀ {tree file}, extraction.Consistent tree →
    extraction.Consistent (pass tree file).run.tree
  gains : ∀ {tree file}, extraction.Consistent tree → (pass tree file).run.error = none →
    tree.Gains rule (extraction.program.filingsOf extraction.settings file)
      (pass tree file).run.tree

theorem prepareFile_filePass (extraction : Extraction Id)
    (usual : ∀ source, extraction.entries source = source.entries) :
    extraction.FilePass extraction.preparing extraction.prepareFile where
  growth consistent := (prepareFile_spec consistent (canReturn_id _)).1
  consistent consistent := (prepareFile_spec consistent (canReturn_id _)).2.1
  gains {tree file} consistent _ := by
    cases known : extraction.program.file? file with
    | none =>
        simp only [prepareFile, Program.filingsOf, known]
        exact .of_content_eq fun _ => rfl
    | some source =>
        have entered := enterFile_entered consistent known
        obtain ⟨above, there⟩ := entered.get?
        have wellFormed := entered.consistent.wellFormed
        obtain ⟨advances, -⟩ := prepareEntries_ready wellFormed there
          (canReturn_id (extraction.prepareEntries file source _ _ source.entries))
        simp only [prepareFile, Program.filingsOf, known, usual]
        exact (ModuleTree.Gains.of_content_eq entered.content).trans
          (prepareEntries_gains wellFormed there entered.follow) advances.growth

theorem visitFile_filePass (extraction : Extraction Id)
    (usual : ∀ source, extraction.entries source = source.entries) :
    extraction.FilePass extraction.visiting extraction.visitFile where
  growth consistent := (visitFile_spec consistent (canReturn_id _)).1
  consistent consistent := (visitFile_spec consistent (canReturn_id _)).2.1
  gains {tree file} consistent succeeds := by
    cases known : extraction.program.file? file with
    | none =>
        simp only [visitFile, Program.filingsOf, known]
        exact .of_content_eq fun _ => rfl
    | some source =>
        have entered := enterFile_entered consistent known
        obtain ⟨above, there⟩ := entered.get?
        have wellFormed := entered.consistent.wellFormed
        have advances := visitEntries_advances wellFormed there
          (canReturn_id (extraction.visitEntries file source _ _ source.entries))
        simp only [visitFile, known, usual] at succeeds
        simp only [visitFile, Program.filingsOf, known, usual]
        exact (ModuleTree.Gains.of_content_eq entered.content).trans
          (visitEntries_gains wellFormed there entered.follow succeeds) advances.growth

/-! ## Lists of files -/

/-- A pass over a list of files brings what the walk through all of them meets. -/
theorem FilePass.overFiles {β : Type} {rule : PassRule β} {pass : ModuleTree → FileId → Id Pass}
    (each : extraction.FilePass rule pass) {files : List FileId} :
    ∀ {tree : ModuleTree}, extraction.Consistent tree →
      (overFiles pass tree files).run.error = none →
      tree.Extends (overFiles pass tree files).run.tree ∧
        tree.Gains rule (extraction.program.filings extraction.settings files)
          (overFiles pass tree files).run.tree := by
  induction files with
  | nil =>
      intro tree consistent succeeds
      exact ⟨.refl tree, .of_content_eq fun _ => rfl⟩
  | cons file files ih =>
      intro tree consistent succeeds
      cases failed : (pass tree file).run.error with
      | some error =>
          have stopped : (Extraction.overFiles pass tree (file :: files)).run =
              (pass tree file).run := by
            simp only [Extraction.overFiles, Id.run_bind, failed]
            rfl
          rw [stopped, failed] at succeeds
          cases succeeds
      | none =>
          have goesOn : (Extraction.overFiles pass tree (file :: files)).run =
              (Extraction.overFiles pass (pass tree file).run.tree files).run := by
            simp only [Extraction.overFiles, Id.run_bind, failed]
          rw [goesOn] at succeeds ⊢
          obtain ⟨later, gains⟩ := ih (each.consistent consistent) succeeds
          exact ⟨(each.growth consistent).trans later,
            (each.gains consistent failed).trans gains later⟩

/-- Before any file was prepared, there are no declarations. -/
theorem contentOf_start (extraction : Extraction Id) (id : ModuleId) :
    extraction.start.contentOf id = { name := "" } := by
  rw [ModuleTree.contentOf]
  cases found : extraction.start.get? id with
  | none => rfl
  | some module =>
      have isRoot : id = 0 := Nat.lt_one_iff.1 (ModuleTree.lt_size_of_get? found)
      subst isRoot
      cases found
      rfl

/-- A tree after both passes over the statements of a walk.  Its links are in order, the way of each
statement leads to a module with the names of the way, and the declarations of a module are those
that the statements with a way to it make. -/
structure Collected (extraction : Extraction Id) (filings : List Filing) (tree : ModuleTree) :
    Prop where
  wellFormed : tree.WellFormed
  reached : ∀ {filing}, filing ∈ filings → ∃ id module,
    tree.follow? ModuleTree.rootId filing.steps = some id ∧ tree.get? id = some module ∧
      module.path = filing.steps.map (·.name)
  content : ∀ {id module}, tree.get? id = some module →
    module.content = extraction.visiting.fill module
      (extraction.preparing.fill module { name := "" } (tree.filedIn id filings))
      (tree.filedIn id filings)

/-- Both passes over known files succeed and collect what the walk through the files meets. -/
theorem run_collected (extraction : Extraction Id)
    (usual : ∀ source, extraction.entries source = source.entries) {files : List FileId}
    (known : ∀ file ∈ files, (extraction.program.file? file).isSome = true) :
    ∃ tree, (extraction.run files).run = .ok (extraction.finish tree) ∧
      extraction.Collected (extraction.program.filings extraction.settings files) tree := by
  obtain ⟨-, consistent, noUnknown, ready⟩ := overFiles_prepareFile extraction.start_consistent
    (canReturn_id (overFiles extraction.prepareFile extraction.start files))
  rw [findSome?_unknown?_eq_none.2 known] at noUnknown
  obtain ⟨-, final, succeeds⟩ := overFiles_visitFile consistent (ready noUnknown)
    (canReturn_id (overFiles extraction.visitFile _ files))
  obtain ⟨-, prepared⟩ := (extraction.prepareFile_filePass usual).overFiles
    extraction.start_consistent noUnknown
  obtain ⟨growth, visited⟩ := (extraction.visitFile_filePass usual).overFiles consistent succeeds
  refine ⟨_, ?_, final.wellFormed, ?_, ?_⟩
  · simp only [run, Id.run_bind, noUnknown, succeeds]
    rfl
  · intro filing member
    obtain ⟨id, follow⟩ := visited.reached filing member
    obtain ⟨root, foundRoot, rootPath⟩ := final.wellFormed.root
    obtain ⟨module, found, path⟩ := final.wellFormed.follow foundRoot follow
    exact ⟨id, module, follow, found, by rw [path, rootPath, List.nil_append]⟩
  · intro id module found
    -- Both passes are described by the ways in the last tree.
    have after := visited.content (.refl _) found
    rw [prepared.content growth found, contentOf_start, ModuleTree.contentOf, found] at after
    exact after

end Extraction

/-- **The documentation of known files** has the tree that both passes over their statements make,
with every answer derived. -/
theorem extractFiles_collected (program : Program) (settings : Settings) {files : List FileId}
    (known : ∀ file ∈ files, (program.file? file).isSome = true) :
    ∃ documentation, extractFiles program settings files = .ok documentation ∧
      (Extraction.direct program settings).Collected (program.filings settings files)
        documentation.tree := by
  obtain ⟨tree, succeeds, collected⟩ :=
    (Extraction.direct program settings).run_collected (fun _ => rfl) known
  exact ⟨_, (extractFiles_eq_direct program settings files).trans succeeds, collected⟩

end ApiDocs
