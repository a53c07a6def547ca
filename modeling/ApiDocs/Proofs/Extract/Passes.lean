import ApiDocs.Proofs.Table.Merging
import ApiDocs.Proofs.Tree.Growth

/-!
# What a pass over a file does

Both passes walk the entries of a file, enter the namespaces of each entry and file at most one
statement there.  The statements of this module hold for every index that the resolver may consult,
with whatever effects: they speak about the trees that a pass *can return*.

## Main definitions

* `ModuleTree.Advances` — a later tree that is well formed and gives the files the same modules.
* `Extraction.Consistent` — the invariant of all trees that an extraction reaches.
* `SourceFile.Ready` — an entry that the second pass will find prepared.

## Main statements

* `prepareEntry_cases`, `visitEntry_cases` — everything that a pass can do at one entry.
* `prepareEntries_ready` — after the first pass over a file, all its entries are ready.
* `visitEntries_ready` — ready entries are visited without an error.
-/

namespace ApiDocs

open MonadAttach (CanReturn)

/-! ## Filing keeps headers and records -/

theorem Skeleton.file_continues (skeleton : Skeleton) (module : DocModule) :
    module.Continues (skeleton.file module) := by
  have keeps : ∀ name kind, module.hasRecord name kind = true →
      (skeleton.file module).hasRecord name kind = true := by
    intro name kind there
    cases skeleton <;> cases kind <;>
      simp_all [Skeleton.file, DocModule.hasRecord, Table.insert]
  cases skeleton <;> exact ⟨rfl, rfl, rfl, rfl, rfl, List.prefix_refl _, keeps⟩

theorem Contribution.apply_continues (contribution : Contribution) (module : DocModule) :
    module.Continues (contribution.apply module) := by
  have keeps : ∀ name kind, module.hasRecord name kind = true →
      (contribution.apply module).hasRecord name kind = true := by
    intro name kind there
    cases contribution <;> cases kind <;>
      simp_all [Contribution.apply, DocModule.hasRecord]
  cases contribution <;> exact ⟨rfl, rfl, rfl, rfl, rfl, List.prefix_refl _, keeps⟩

/-- Filing a skeleton depends on the declarations of a module only. -/
theorem Skeleton.content_file (skeleton : Skeleton) (module : DocModule) :
    (skeleton.file module).content = skeleton.file module.content := by
  cases skeleton <;> rfl

/-- Filling a contribution in depends on the declarations of a module only. -/
theorem Contribution.content_apply (contribution : Contribution) (module : DocModule) :
    (contribution.apply module).content = contribution.apply module.content := by
  cases contribution <;> rfl

/-! ## Trees along a pass -/

/-- A later tree that is well formed and gives the files the same modules. -/
structure ModuleTree.Advances (earlier later : ModuleTree) : Prop where
  growth : earlier.Extends later
  wellFormed : later.WellFormed
  files : later.fileModules = earlier.fileModules

namespace ModuleTree.Advances

variable {earlier later last : ModuleTree}

theorem refl (wellFormed : earlier.WellFormed) : earlier.Advances earlier :=
  ⟨.refl earlier, wellFormed, rfl⟩

theorem trans (first : earlier.Advances later) (second : later.Advances last) :
    earlier.Advances last :=
  ⟨first.growth.trans second.growth, second.wellFormed, second.files.trans first.files⟩

theorem modify (first : earlier.Advances later) (id : ModuleId) {change : DocModule → DocModule}
    (continues : ∀ module : DocModule, module.Continues (change module)) :
    earlier.Advances (later.modify id change) :=
  first.trans ⟨later.modify_extends id continues, first.wellFormed.modify id continues, rfl⟩

end ModuleTree.Advances

theorem ModuleTree.Arrived.advances {tree grown : ModuleTree} {start id : ModuleId}
    {steps : List Step} (arrived : tree.Arrived start steps id grown) : tree.Advances grown :=
  ⟨arrived.growth, arrived.wellFormed, arrived.files⟩

namespace Extraction

variable {m : Type → Type} [Monad m] [LawfulMonad m] [MonadAttach m] [LawfulMonadAttach m]
variable {extraction : Extraction m} {file : FileId} {source : SourceFile} {base : ModuleId}
variable {tree : ModuleTree} {above : DocModule} {entry : Entry}

/-! ## One entry -/

/-- Everything that the first pass can do at one entry: it enters the namespaces and, for a
statement, files the skeleton that the resolver returns. -/
theorem prepareEntry_cases (wellFormed : tree.WellFormed) (there : tree.get? base = some above)
    {result : ModuleTree}
    (returned : CanReturn (extraction.prepareEntry file source base tree entry) result) :
    ∃ id grown, tree.enterNamespaces source.baseName base entry.namespaces = (id, grown) ∧
      tree.Arrived base (route [] entry.namespaces) id grown ∧
      ((entry.statement = none ∧ result = grown) ∨
        ∃ index module skeleton, entry.statement = some index ∧ grown.get? id = some module ∧
          CanReturn (extraction.resolver.skeleton? (.ofModule file source module) index)
            skeleton ∧
          result = skeleton.elim grown fun skeleton => grown.modify id (skeleton.file ·)) := by
  have arrived := ModuleTree.enterNamespaces_arrived source.baseName entry.namespaces wellFormed
    there
  obtain ⟨module, found, -⟩ := arrived.get? there
  refine ⟨_, _, rfl, arrived, ?_⟩
  rw [prepareEntry] at returned
  cases statement : entry.statement with
  | none =>
      simp only [statement] at returned
      exact .inl ⟨rfl, (LawfulMonadAttach.eq_of_canReturn_pure returned).symm⟩
  | some index =>
      simp only [statement, found] at returned
      obtain ⟨skeleton, learnt, filed⟩ := LawfulMonadAttach.canReturn_bind_imp' returned
      refine .inr ⟨index, module, skeleton, rfl, found, learnt, ?_⟩
      cases skeleton with
      | none => exact (LawfulMonadAttach.eq_of_canReturn_pure filed).symm
      | some skeleton => exact (LawfulMonadAttach.eq_of_canReturn_pure filed).symm

/-- Everything that the second pass can do at one entry: it enters the namespaces and, for a
statement, stops if the record is missing and fills the resolver's contribution in otherwise. -/
theorem visitEntry_cases (wellFormed : tree.WellFormed) (there : tree.get? base = some above)
    {pass : Pass}
    (returned : CanReturn (extraction.visitEntry file source base tree entry) pass) :
    ∃ id grown, tree.enterNamespaces source.baseName base entry.namespaces = (id, grown) ∧
      tree.Arrived base (route [] entry.namespaces) id grown ∧
      ((entry.statement = none ∧ pass = { tree := grown }) ∨
        ∃ index module, entry.statement = some index ∧ grown.get? id = some module ∧
          ((∃ error, missing? source module index = some error ∧
              pass = { tree := grown, error := some error }) ∨
            missing? source module index = none ∧
              ∃ contribution,
                CanReturn (extraction.resolver.contribution? (.ofModule file source module) index)
                  contribution ∧
                pass = { tree := contribution.elim grown fun contribution =>
                  grown.modify id (contribution.apply ·) })) := by
  have arrived := ModuleTree.enterNamespaces_arrived source.baseName entry.namespaces wellFormed
    there
  obtain ⟨module, found, -⟩ := arrived.get? there
  refine ⟨_, _, rfl, arrived, ?_⟩
  rw [visitEntry] at returned
  cases statement : entry.statement with
  | none =>
      simp only [statement] at returned
      exact .inl ⟨rfl, (LawfulMonadAttach.eq_of_canReturn_pure returned).symm⟩
  | some index =>
      simp only [statement, found] at returned
      refine .inr ⟨index, module, rfl, found, ?_⟩
      cases lacking : missing? source module index with
      | some error =>
          simp only [lacking] at returned
          exact .inl ⟨error, rfl, (LawfulMonadAttach.eq_of_canReturn_pure returned).symm⟩
      | none =>
          simp only [lacking] at returned
          obtain ⟨contribution, learnt, filled⟩ := LawfulMonadAttach.canReturn_bind_imp' returned
          refine .inr ⟨rfl, contribution, learnt, ?_⟩
          cases contribution with
          | none => exact (LawfulMonadAttach.eq_of_canReturn_pure filled).symm
          | some contribution => exact (LawfulMonadAttach.eq_of_canReturn_pure filled).symm

theorem prepareEntry_advances (wellFormed : tree.WellFormed) (there : tree.get? base = some above)
    {result : ModuleTree}
    (returned : CanReturn (extraction.prepareEntry file source base tree entry) result) :
    tree.Advances result := by
  obtain ⟨id, grown, -, arrived, ⟨-, rfl⟩ | ⟨index, module, skeleton, -, -, -, rfl⟩⟩ :=
    prepareEntry_cases wellFormed there returned
  · exact arrived.advances
  · cases skeleton with
    | none => exact arrived.advances
    | some skeleton => exact arrived.advances.modify id skeleton.file_continues

theorem visitEntry_advances (wellFormed : tree.WellFormed) (there : tree.get? base = some above)
    {pass : Pass}
    (returned : CanReturn (extraction.visitEntry file source base tree entry) pass) :
    tree.Advances pass.tree := by
  obtain ⟨id, grown, -, arrived, ⟨-, rfl⟩ | ⟨index, module, -, -,
    ⟨error, -, rfl⟩ | ⟨-, contribution, -, rfl⟩⟩⟩ := visitEntry_cases wellFormed there returned
  · exact arrived.advances
  · exact arrived.advances
  · cases contribution with
    | none => exact arrived.advances
    | some contribution => exact arrived.advances.modify id contribution.apply_continues

end Extraction

/-- The directories that lead to the module of a file; none for a file outside the base. -/
def Settings.directoriesOf (settings : Settings) (source : SourceFile) : List String :=
  (Path.segments? settings.baseDirectory source.path).getD []

/-! ## Entries that are ready -/

theorem Extraction.missing?_eq_none_iff {source : SourceFile} {module : DocModule}
    {index : NodeIndex} :
    missing? source module index = none ↔
      ∀ kind name, source.expected? index = some (kind, name) →
        module.hasRecord name kind = true := by
  rw [missing?]
  cases expected : source.expected? index with
  | none => simp
  | some record =>
      obtain ⟨kind, name⟩ := record
      by_cases there : module.hasRecord name kind = true
      · simp [there]
      · simp [there]

/-- An entry that the second pass will find prepared: its namespaces lead to a module, and that
module has the record that its statement fills in. -/
def SourceFile.Ready (source : SourceFile) (tree : ModuleTree) (base : ModuleId) (entry : Entry) :
    Prop :=
  ∃ id module, tree.follow? base (route [] entry.namespaces) = some id ∧
    tree.get? id = some module ∧
    ∀ index, entry.statement = some index → Extraction.missing? source module index = none

/-- What is ready stays ready. -/
theorem SourceFile.Ready.later {source : SourceFile} {tree later : ModuleTree} {base : ModuleId}
    {entry : Entry} (growth : tree.Extends later) (ready : source.Ready tree base entry) :
    source.Ready later base entry := by
  obtain ⟨id, module, follow, found, complete⟩ := ready
  obtain ⟨continued, foundContinued, continues⟩ := growth.module found
  refine ⟨id, continued, growth.follow follow, foundContinued, fun index statement => ?_⟩
  rw [Extraction.missing?_eq_none_iff]
  intro kind name expected
  exact continues.record name kind
    (Extraction.missing?_eq_none_iff.1 (complete index statement) kind name expected)

section

variable {m : Type → Type} [Monad m] [LawfulMonad m] [MonadAttach m] [LawfulMonadAttach m]

/-- Where the second pass expects a record, the first pass learns a skeleton that creates it. -/
theorem Resolver.skeleton?_expected {resolver : Resolver m} {scope : Scope} {index : NodeIndex}
    {kind : RecordKind} {name : String}
    (expected : scope.source.expected? index = some (kind, name)) {skeleton : Option Skeleton}
    (returned : CanReturn (resolver.skeleton? scope index) skeleton) :
    ∃ learnt, skeleton = some learnt ∧
      ∀ module : DocModule, (learnt.file module).hasRecord name kind = true := by
  rw [SourceFile.expected?] at expected
  simp only [Resolver.skeleton?] at returned
  cases found : scope.source.arena.get? index with
  | none => simp [found] at expected
  | some node =>
      simp only [found] at expected returned
      -- The syntax that the second pass expects a record for is the syntax that the first reads.
      split at expected
      all_goals cases expected
      all_goals rename_i kindIs payloadIs
      all_goals simp only [kindIs, payloadIs] at returned
      all_goals obtain ⟨doc, -, returned⟩ := LawfulMonadAttach.canReturn_bind_imp' returned
      · obtain rfl := LawfulMonadAttach.eq_of_canReturn_pure returned
        exact ⟨_, rfl, fun module => by simp [Skeleton.file, DocModule.hasRecord, Table.insert]⟩
      · obtain rfl := LawfulMonadAttach.eq_of_canReturn_pure returned
        exact ⟨_, rfl, fun module => by simp [Skeleton.file, DocModule.hasRecord]⟩
      · obtain ⟨members, -, returned⟩ := LawfulMonadAttach.canReturn_bind_imp' returned
        obtain rfl := LawfulMonadAttach.eq_of_canReturn_pure returned
        exact ⟨_, rfl, fun module => by simp [Skeleton.file, DocModule.hasRecord]⟩
      · obtain rfl := LawfulMonadAttach.eq_of_canReturn_pure returned
        exact ⟨_, rfl, fun module => by simp [Skeleton.file, DocModule.hasRecord, Table.insert]⟩

namespace Extraction

variable {extraction : Extraction m} {file : FileId} {source : SourceFile} {base : ModuleId}
variable {tree : ModuleTree} {above : DocModule}

theorem prepareEntry_ready {entry : Entry} (wellFormed : tree.WellFormed)
    (there : tree.get? base = some above) {result : ModuleTree}
    (returned : CanReturn (extraction.prepareEntry file source base tree entry) result) :
    source.Ready result base entry := by
  obtain ⟨id, grown, -, arrived, ⟨noStatement, rfl⟩ | ⟨index, module, skeleton, statement, found,
    learnt, rfl⟩⟩ := prepareEntry_cases wellFormed there returned
  · obtain ⟨module, found, -⟩ := arrived.get? there
    refine ⟨id, module, arrived.follow, found, fun index statement => ?_⟩
    rw [noStatement] at statement
    cases statement
  · cases skeleton with
    | none =>
        -- No skeleton was learnt, so the second pass expects no record.
        refine ⟨id, module, arrived.follow, found, fun other otherStatement => ?_⟩
        obtain rfl := Option.some.inj (statement.symm.trans otherStatement)
        rw [missing?_eq_none_iff]
        intro kind name expected
        obtain ⟨_, impossible, -⟩ := Resolver.skeleton?_expected expected learnt
        cases impossible
    | some skeleton =>
        refine ⟨id, skeleton.file module, arrived.follow, ?_, fun other otherStatement => ?_⟩
        · rw [Option.elim_some, ModuleTree.get?_modify, if_pos rfl, found]
          rfl
        · obtain rfl := Option.some.inj (statement.symm.trans otherStatement)
          rw [missing?_eq_none_iff]
          intro kind name expected
          obtain ⟨_, same, creates⟩ := Resolver.skeleton?_expected expected learnt
          cases same
          exact creates module

/-- The second pass stops at no entry that is ready. -/
theorem visitEntry_ready {entry : Entry} (wellFormed : tree.WellFormed)
    (there : tree.get? base = some above) (ready : source.Ready tree base entry) {pass : Pass}
    (returned : CanReturn (extraction.visitEntry file source base tree entry) pass) :
    pass.error = none := by
  obtain ⟨id, grown, -, arrived, ⟨-, rfl⟩ | ⟨index, module, statement, found,
    ⟨error, lacking, rfl⟩ | ⟨-, contribution, -, rfl⟩⟩⟩ :=
    visitEntry_cases wellFormed there returned
  · rfl
  · obtain ⟨readyId, readyModule, follow, foundReady, complete⟩ := ready.later arrived.growth
    obtain rfl : readyId = id := Option.some.inj (follow.symm.trans arrived.follow)
    obtain rfl : readyModule = module := Option.some.inj (foundReady.symm.trans found)
    rw [complete index statement] at lacking
    cases lacking
  · rfl

/-! ## All entries of a file -/

/-- The first pass over the entries of a file makes all of them ready. -/
theorem prepareEntries_ready {entries : List Entry} :
    ∀ {tree : ModuleTree} {above : DocModule}, tree.WellFormed → tree.get? base = some above →
      ∀ {result : ModuleTree},
        CanReturn (extraction.prepareEntries file source base tree entries) result →
        tree.Advances result ∧ ∀ entry ∈ entries, source.Ready result base entry := by
  induction entries with
  | nil =>
      intro tree above wellFormed there result returned
      obtain rfl := LawfulMonadAttach.eq_of_canReturn_pure returned
      exact ⟨.refl wellFormed, by simp⟩
  | cons entry entries ih =>
      intro tree above wellFormed there result returned
      obtain ⟨middle, first, rest⟩ := LawfulMonadAttach.canReturn_bind_imp' returned
      have advances := prepareEntry_advances wellFormed there first
      obtain ⟨continued, foundContinued, -⟩ := advances.growth.module there
      obtain ⟨later, ready⟩ := ih advances.wellFormed foundContinued rest
      refine ⟨advances.trans later, fun other member => ?_⟩
      rcases List.mem_cons.1 member with rfl | inRest
      · exact (prepareEntry_ready wellFormed there first).later later.growth
      · exact ready other inRest

theorem visitEntries_advances {entries : List Entry} :
    ∀ {tree : ModuleTree} {above : DocModule}, tree.WellFormed → tree.get? base = some above →
      ∀ {pass : Pass},
        CanReturn (extraction.visitEntries file source base tree entries) pass →
        tree.Advances pass.tree := by
  induction entries with
  | nil =>
      intro tree above wellFormed there pass returned
      obtain rfl := LawfulMonadAttach.eq_of_canReturn_pure returned
      exact .refl wellFormed
  | cons entry entries ih =>
      intro tree above wellFormed there pass returned
      obtain ⟨middle, first, rest⟩ := LawfulMonadAttach.canReturn_bind_imp' returned
      have advances := visitEntry_advances wellFormed there first
      cases failed : middle.error with
      | some error =>
          simp only [failed] at rest
          obtain rfl := LawfulMonadAttach.eq_of_canReturn_pure rest
          exact advances
      | none =>
          simp only [failed] at rest
          obtain ⟨continued, foundContinued, -⟩ := advances.growth.module there
          exact advances.trans (ih advances.wellFormed foundContinued rest)

/-- Entries that are all ready are visited without an error. -/
theorem visitEntries_ready {entries : List Entry} :
    ∀ {tree : ModuleTree} {above : DocModule}, tree.WellFormed → tree.get? base = some above →
      (∀ entry ∈ entries, source.Ready tree base entry) →
      ∀ {pass : Pass},
        CanReturn (extraction.visitEntries file source base tree entries) pass →
        pass.error = none := by
  induction entries with
  | nil =>
      intro tree above wellFormed there ready pass returned
      obtain rfl := LawfulMonadAttach.eq_of_canReturn_pure returned
      rfl
  | cons entry entries ih =>
      intro tree above wellFormed there ready pass returned
      obtain ⟨middle, first, rest⟩ := LawfulMonadAttach.canReturn_bind_imp' returned
      have advances := visitEntry_advances wellFormed there first
      have passed := visitEntry_ready wellFormed there (ready entry (by simp)) first
      obtain ⟨continued, foundContinued, -⟩ := advances.growth.module there
      simp only [passed] at rest
      refine ih advances.wellFormed foundContinued (fun other member => ?_) rest
      exact (ready other (by simp [member])).later advances.growth

/-! ## Files -/

/-- The invariant of all trees that an extraction reaches: they are well formed, and each file that
was given a module is a file of the program, with the module of its directory. -/
structure Consistent (extraction : Extraction m) (tree : ModuleTree) : Prop where
  wellFormed : tree.WellFormed
  files : ∀ {file id}, tree.fileModules.find? file = some id →
    ∃ source, extraction.program.file? file = some source ∧
      tree.follow? ModuleTree.rootId (route (extraction.settings.directoriesOf source) []) = some id

omit [Monad m] [LawfulMonad m] [MonadAttach m] [LawfulMonadAttach m] in
theorem start_consistent (extraction : Extraction m) : extraction.Consistent extraction.start where
  wellFormed := ModuleTree.ofRoot_wellFormed _ _
  files found := by cases found

omit [Monad m] [LawfulMonad m] [MonadAttach m] [LawfulMonadAttach m] in
theorem Consistent.advance {later : ModuleTree} (consistent : extraction.Consistent tree)
    (advances : tree.Advances later) : extraction.Consistent later where
  wellFormed := advances.wellFormed
  files found := by
    rw [advances.files] at found
    obtain ⟨source, known, follow⟩ := consistent.files found
    exact ⟨source, known, advances.growth.follow follow⟩

/-- What entering a file leaves behind: a later tree in which the file has the module of its
directory, with no declaration changed. -/
structure FileEntered (extraction : Extraction m) (tree : ModuleTree) (file : FileId)
    (source : SourceFile) (base : ModuleId) (grown : ModuleTree) : Prop where
  growth : tree.Extends grown
  consistent : extraction.Consistent grown
  follow : grown.follow? ModuleTree.rootId
    (route (extraction.settings.directoriesOf source) []) = some base
  given : grown.fileModules.find? file = some base
  content : ∀ other, grown.contentOf other = tree.contentOf other

omit [Monad m] [LawfulMonad m] [MonadAttach m] [LawfulMonadAttach m] in
/-- The module of a file is there. -/
theorem FileEntered.get? {grown : ModuleTree}
    (entered : extraction.FileEntered tree file source base grown) :
    ∃ above, grown.get? base = some above := by
  obtain ⟨root, foundRoot, -⟩ := entered.consistent.wellFormed.root
  obtain ⟨above, there, -⟩ := entered.consistent.wellFormed.follow foundRoot entered.follow
  exact ⟨above, there⟩

omit [Monad m] [LawfulMonad m] [MonadAttach m] [LawfulMonadAttach m] in
theorem enterFile_entered (consistent : extraction.Consistent tree)
    (known : extraction.program.file? file = some source) :
    extraction.FileEntered tree file source (extraction.enterFile tree file source).1
      (extraction.enterFile tree file source).2 := by
  cases cached : tree.fileModules.find? file with
  | some id =>
      have entered : extraction.enterFile tree file source = (id, tree) := by
        simp only [enterFile, ModuleTree.moduleForFile, cached]
      rw [entered]
      obtain ⟨_, sameSource, follow⟩ := consistent.files cached
      obtain rfl := Option.some.inj (known.symm.trans sameSource)
      exact ⟨.refl tree, consistent, follow, cached, fun _ => rfl⟩
  | none =>
      obtain ⟨root, foundRoot, -⟩ := consistent.wellFormed.root
      have arrived := ModuleTree.enterDirectories_arrived
        (extraction.settings.directoriesOf source) consistent.wellFormed foundRoot
      generalize reached : tree.enterDirectories ModuleTree.rootId
        (extraction.settings.directoriesOf source) = place at arrived
      obtain ⟨id, grown⟩ := place
      have entered : extraction.enterFile tree file source =
          (id, { grown with fileModules := grown.fileModules.insert file id }) := by
        rw [Settings.directoriesOf] at reached
        simp only [enterFile, ModuleTree.moduleForFile, cached, reached]
      rw [entered]
      refine ⟨?_, ?_, arrived.follow, ?_, arrived.content⟩
      · refine ⟨arrived.growth.module, arrived.growth.step, ?_⟩
        intro other otherId found
        rw [Table.find?_insert]
        by_cases same : other = file
        · rw [same, cached] at found
          cases found
        · rw [if_neg same]
          exact arrived.growth.file found
      · refine ⟨⟨arrived.wellFormed.root, arrived.wellFormed.child⟩, ?_⟩
        intro other otherId found
        rw [Table.find?_insert] at found
        by_cases same : other = file
        · rw [if_pos same] at found
          cases found
          exact ⟨source, same ▸ known, arrived.follow⟩
        · rw [if_neg same, arrived.files] at found
          obtain ⟨otherSource, otherKnown, follow⟩ := consistent.files found
          exact ⟨otherSource, otherKnown, arrived.growth.follow follow⟩
      · rw [Table.find?_insert, if_pos rfl]

end Extraction

end

end ApiDocs
