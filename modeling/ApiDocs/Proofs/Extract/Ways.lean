import ApiDocs.Proofs.Extract.Completeness
import ApiDocs.Proofs.Tree.Shape

/-!
# The modules that an extraction creates

A call of one of the two passes enters the directories of its file and the namespaces that are open
at the entries of the file, and nothing else.  So the tree of an extraction stays **shaped** through
any calls, and the ways to its modules can be read off the files: they are the ways through the
directories and namespaces of the files, and the beginnings of these ways.

## Main definitions

* `Bounds`, `ModuleTree.Within` — what is allowed of the modules of a tree.
* `Extraction.after` — the tree that a list of calls leaves behind.
* `Program.Opens` — the ways that the files of a list open.

## Main statements

* `make_bounded` — a call on a file whose ways are allowed stays within the bounds.
* `after_shaped` — the tree after any calls is shaped.
* `extractFiles_within` — the documentation of known files has exactly the modules at the ways that
  the files open.

## Design notes

**One invariant with parameters.**  Which ways are allowed and whether links are is left open until
a list of files is fixed.  A tree that may have any modules is just shaped.
-/

namespace ApiDocs

open MonadAttach (CanReturn)

/-- What is allowed of the modules of a tree: the ways that lead to them, with every beginning of a
way, and whether they may have links. -/
structure Bounds where
  allows : List Step → Prop
  closed : ∀ {steps more : List Step}, allows (steps ++ more) → allows steps
  linked : Prop

/-- Every module is allowed, with or without a link. -/
def Bounds.loose : Bounds where
  allows _ := True
  closed _ := trivial
  linked := True

namespace ModuleTree

/-- A shaped tree whose modules are all allowed. -/
structure Within (tree : ModuleTree) (bounds : Bounds) : Prop where
  shaped : tree.Shaped
  way : ∀ {steps id}, tree.follow? rootId steps = some id → bounds.allows steps
  link : ¬bounds.linked → ∀ {id header}, tree.header? id = some header → header.repository = none

section

variable {bounds : Bounds} {tree grown : ModuleTree} {parent id : ModuleId} {step : Step}
variable {steps : List Step} {repository : Option String} {above : Header}

/-! ## Entering and changing modules -/

/-- Adding a child adds one way. -/
theorem Added.follow_cases (added : Added tree parent above step repository grown)
    (before : tree.Shaped) (after : grown.Shaped) (growth : tree.Extends grown)
    (start : tree.follow? rootId steps = some parent) {others : List Step}
    (leads : grown.follow? rootId others = some id) :
    tree.follow? rootId others = some id ∨ others = steps ++ [step] := by
  -- The new module has just the new way, and all other modules keep theirs.
  by_cases new : id = tree.size
  · have newWay : grown.follow? rootId (steps ++ [step]) = some id := by
      rw [follow?_concat, growth.follow start, Option.bind_some, added.steps, if_pos ⟨rfl, rfl⟩,
        new]
    exact .inr (after.follow_injective leads newWay)
  · obtain ⟨module, found⟩ := after.get?_of_follow? leads
    have header := header?_of_get? found
    rw [added.header, if_neg new] at header
    obtain ⟨oldWay, oldLeads⟩ := before.exists_way header
    rw [after.follow_injective leads (growth.follow oldLeads)]
    exact .inl oldLeads

/-- Entering an allowed child stays within the bounds, and the way goes on. -/
theorem Entered.within (entered : Entered tree parent step repository id grown)
    (within : tree.Within bounds) (start : tree.follow? rootId steps = some parent)
    (there : tree.header? parent = some above) (allowed : bounds.allows (steps ++ [step]))
    (kind : step.isNamespace = false → above.isNamespace = false)
    (link : above.repository = none → repository = none) :
    grown.Within bounds ∧ grown.follow? rootId (steps ++ [step]) = some id := by
  have leads : grown.follow? rootId (steps ++ [step]) = some id := by
    rw [follow?_concat, entered.growth.follow start, Option.bind_some, entered.step_eq]
  refine ⟨?_, leads⟩
  rcases entered.found_or_added with ⟨-, rfl⟩ | ⟨-, aboveAgain, added⟩
  · exact within
  · obtain rfl := Option.some.inj (there.symm.trans added.parentThere)
    have shaped := added.shaped within.shaped kind
    refine ⟨shaped, ?_, ?_⟩
    · intro others other leadsOther
      rcases added.follow_cases within.shaped shaped entered.growth start leadsOther with old | rfl
      · exact within.way old
      · exact allowed
    · intro unlinked other header found
      rw [added.header] at found
      split at found
      · cases found
        exact link (within.link unlinked there)
      · exact within.link unlinked found

theorem Within.modify (within : tree.Within bounds) {change : DocModule → DocModule}
    (keeps : ∀ module, (change module).header = module.header ∧
      (change module).children = module.children) :
    (tree.modify id change).Within bounds where
  shaped := within.shaped.modify (fun module => (keeps module).1) fun module => (keeps module).2
  way := within.way
  link unlinked other header found := by
    rw [header?_modify fun module => (keeps module).1] at found
    exact within.link unlinked found

end

/-! ## Lists of names -/

theorem enterDirectories_within {bounds : Bounds} (names : List String) :
    ∀ {tree : ModuleTree} {start : ModuleId} {steps : List Step} {above : Header},
      tree.Within bounds → tree.follow? rootId steps = some start →
      tree.header? start = some above → above.isNamespace = false →
      bounds.allows (steps ++ route names []) →
      (tree.enterDirectories start names).2.Within bounds := by
  induction names with
  | nil => intro tree start steps above within leads there kind allowed; exact within
  | cons name names ih =>
      intro tree start steps above within leads there kind allowed
      obtain ⟨module, found, rfl⟩ := Option.map_eq_some_iff.1 there
      have split : steps ++ route (name :: names) [] =
          steps ++ [⟨name, false⟩] ++ route names [] := by
        simp [route]
      rw [split] at allowed
      have entered := enterDirectory_entered found name
      obtain ⟨next, leadsNext⟩ := entered.within within leads there (bounds.closed allowed)
        (fun _ => kind) fun unlinked => by
          rw [directoryRepository, found, Option.bind_some]
          exact congrArg (Option.map _) unlinked
      obtain ⟨header, foundNext, -, isStep⟩ := next.shaped.step.1 entered.step_eq
      exact ih next leadsNext foundNext (congrArg Step.isNamespace isStep) allowed

theorem enterNamespaces_within {bounds : Bounds} (fileName : String) (names : List String) :
    ∀ {tree : ModuleTree} {start : ModuleId} {steps : List Step},
      tree.Within bounds → tree.follow? rootId steps = some start →
      bounds.allows (steps ++ route [] names) →
      (tree.enterNamespaces fileName start names).2.Within bounds := by
  induction names with
  | nil => intro tree start steps within leads allowed; exact within
  | cons name names ih =>
      intro tree start steps within leads allowed
      obtain ⟨module, found⟩ := within.shaped.get?_of_follow? leads
      have split : steps ++ route [] (name :: names) =
          steps ++ [⟨name, true⟩] ++ route [] names := by
        simp [route]
      rw [split] at allowed
      have entered := enterNamespace_entered found name (tree.namespaceRepository start fileName)
      obtain ⟨next, leadsNext⟩ := entered.within within leads (header?_of_get? found)
        (bounds.closed allowed) (fun isDirectory => by cases isDirectory) fun unlinked => by
          have noLink : module.repository = none := unlinked
          simp [namespaceRepository, found, noLink, fileLink]
      exact ih next leadsNext allowed

end ModuleTree

/-! ## Calls -/

theorem Skeleton.file_keeps (skeleton : Skeleton) (module : DocModule) :
    (skeleton.file module).header = module.header ∧
      (skeleton.file module).children = module.children := by
  cases skeleton <;> exact ⟨rfl, rfl⟩

theorem Contribution.apply_keeps (contribution : Contribution) (module : DocModule) :
    (contribution.apply module).header = module.header ∧
      (contribution.apply module).children = module.children := by
  cases contribution <;> exact ⟨rfl, rfl⟩

namespace Extraction

/-- The file of a call. -/
def Call.file : Call → FileId
  | .prepare file => file
  | .visit file => file

section

variable {m : Type → Type} [Monad m]

/-- The tree that a list of calls leaves behind, whether they fail or not. -/
def after (extraction : Extraction m) (tree : ModuleTree) : List Call → m ModuleTree
  | [] => pure tree
  | call :: calls => do
    let reached ← extraction.make tree call
    extraction.after reached.tree calls

omit [Monad m] in
/-- The ways that a file opens are allowed. -/
def AllowedIn (extraction : Extraction m) (bounds : Bounds) (file : FileId) : Prop :=
  ∀ source, extraction.program.file? file = some source →
    bounds.allows (route (extraction.settings.directoriesOf source) []) ∧
      ∀ entry ∈ extraction.entries source,
        bounds.allows (route (extraction.settings.directoriesOf source) entry.namespaces)

omit [Monad m] in
/-- The invariant of an extraction within bounds. -/
structure Bounded (extraction : Extraction m) (bounds : Bounds) (tree : ModuleTree) : Prop where
  consistent : extraction.Consistent tree
  within : tree.Within bounds

end

variable {m : Type → Type} [Monad m] [LawfulMonad m] [MonadAttach m] [LawfulMonadAttach m]
variable {extraction : Extraction m} {bounds : Bounds} {tree : ModuleTree} {pass : Pass}

section

variable {file : FileId} {source : SourceFile} {base : ModuleId} {directories : List String}

theorem prepareEntry_within {entry : Entry} (within : tree.Within bounds)
    (leads : tree.follow? ModuleTree.rootId (route directories []) = some base)
    (allowed : bounds.allows (route directories entry.namespaces)) {result : ModuleTree}
    (returned : CanReturn (extraction.prepareEntry file source base tree entry) result) :
    result.Within bounds := by
  obtain ⟨above, there⟩ := within.shaped.get?_of_follow? leads
  rw [route_namespaces] at allowed
  have reached := ModuleTree.enterNamespaces_within source.baseName entry.namespaces within leads
    allowed
  obtain ⟨id, grown, entered, -, ⟨-, rfl⟩ | ⟨index, module, skeleton, -, -, -, rfl⟩⟩ :=
    prepareEntry_cases within.shaped.wellFormed there returned
  · rwa [entered] at reached
  · rw [entered] at reached
    cases skeleton with
    | none => exact reached
    | some skeleton => exact reached.modify skeleton.file_keeps

theorem visitEntry_within {entry : Entry} (within : tree.Within bounds)
    (leads : tree.follow? ModuleTree.rootId (route directories []) = some base)
    (allowed : bounds.allows (route directories entry.namespaces))
    (returned : CanReturn (extraction.visitEntry file source base tree entry) pass) :
    pass.tree.Within bounds := by
  obtain ⟨above, there⟩ := within.shaped.get?_of_follow? leads
  rw [route_namespaces] at allowed
  have reached := ModuleTree.enterNamespaces_within source.baseName entry.namespaces within leads
    allowed
  obtain ⟨id, grown, entered, -, ⟨-, rfl⟩ | ⟨index, module, -, -,
    ⟨error, -, rfl⟩ | ⟨-, contribution, -, rfl⟩⟩⟩ :=
    visitEntry_cases within.shaped.wellFormed there returned
  · rwa [entered] at reached
  · rwa [entered] at reached
  · rw [entered] at reached
    cases contribution with
    | none => exact reached
    | some contribution => exact reached.modify contribution.apply_keeps

theorem prepareEntries_within {entries : List Entry} :
    ∀ {tree : ModuleTree}, tree.Within bounds →
      tree.follow? ModuleTree.rootId (route directories []) = some base →
      (∀ entry ∈ entries, bounds.allows (route directories entry.namespaces)) →
      ∀ {result : ModuleTree},
        CanReturn (extraction.prepareEntries file source base tree entries) result →
        result.Within bounds := by
  induction entries with
  | nil =>
      intro tree within leads allowed result returned
      obtain rfl := LawfulMonadAttach.eq_of_canReturn_pure returned
      exact within
  | cons entry entries ih =>
      intro tree within leads allowed result returned
      rw [List.forall_mem_cons] at allowed
      obtain ⟨above, there⟩ := within.shaped.get?_of_follow? leads
      obtain ⟨middle, first, rest⟩ := LawfulMonadAttach.canReturn_bind_imp' returned
      have advances := prepareEntry_advances within.shaped.wellFormed there first
      exact ih (prepareEntry_within within leads allowed.1 first) (advances.growth.follow leads)
        allowed.2 rest

theorem visitEntries_within {entries : List Entry} :
    ∀ {tree : ModuleTree}, tree.Within bounds →
      tree.follow? ModuleTree.rootId (route directories []) = some base →
      (∀ entry ∈ entries, bounds.allows (route directories entry.namespaces)) →
      ∀ {pass : Pass},
        CanReturn (extraction.visitEntries file source base tree entries) pass →
        pass.tree.Within bounds := by
  induction entries with
  | nil =>
      intro tree within leads allowed pass returned
      obtain rfl := LawfulMonadAttach.eq_of_canReturn_pure returned
      exact within
  | cons entry entries ih =>
      intro tree within leads allowed pass returned
      rw [List.forall_mem_cons] at allowed
      obtain ⟨above, there⟩ := within.shaped.get?_of_follow? leads
      obtain ⟨middle, first, rest⟩ := LawfulMonadAttach.canReturn_bind_imp' returned
      have advances := visitEntry_advances within.shaped.wellFormed there first
      have reached := visitEntry_within within leads allowed.1 first
      cases failed : middle.error with
      | some error =>
          simp only [failed] at rest
          obtain rfl := LawfulMonadAttach.eq_of_canReturn_pure rest
          exact reached
      | none =>
          simp only [failed] at rest
          exact ih reached (advances.growth.follow leads) allowed.2 rest

omit [Monad m] [LawfulMonad m] [MonadAttach m] [LawfulMonadAttach m] in
theorem enterFile_within (within : tree.Within bounds)
    (allowed : bounds.allows (route (extraction.settings.directoriesOf source) [])) :
    (extraction.enterFile tree file source).2.Within bounds := by
  rw [enterFile, ModuleTree.moduleForFile]
  cases tree.fileModules.find? file with
  | some id => exact within
  | none =>
      obtain ⟨root, foundRoot, -, kind, -⟩ := within.shaped.root
      have reached := ModuleTree.enterDirectories_within (extraction.settings.directoriesOf source)
        within (ModuleTree.follow?_nil _ _) foundRoot kind allowed
      exact ⟨reached.shaped.withFiles _, reached.way, reached.link⟩

end

/-- A call keeps the invariant of the extraction, whichever files were prepared before. -/
theorem make_consistent {call : Call} (consistent : extraction.Consistent tree)
    (returned : CanReturn (extraction.make tree call) pass) :
    extraction.Consistent pass.tree := by
  have nothing : extraction.Remembers [] tree := by
    intro file member
    cases member
  exact (make_spec consistent nothing returned).1

/-- A call on a file whose ways are allowed stays within the bounds. -/
theorem make_bounded {call : Call} (before : extraction.Bounded bounds tree)
    (allowed : extraction.AllowedIn bounds call.file)
    (returned : CanReturn (extraction.make tree call) pass) :
    extraction.Bounded bounds pass.tree := by
  obtain ⟨consistent, within⟩ := before
  refine ⟨make_consistent consistent returned, ?_⟩
  cases call with
  | prepare file =>
      cases known : extraction.program.file? file with
      | none =>
          simp only [make, prepareFile, known] at returned
          obtain rfl := LawfulMonadAttach.eq_of_canReturn_pure returned
          exact within
      | some source =>
          obtain ⟨own, entries⟩ := allowed source known
          simp only [make, prepareFile, known] at returned
          obtain ⟨result, prepared, done⟩ := LawfulMonadAttach.canReturn_bind_imp' returned
          obtain rfl := LawfulMonadAttach.eq_of_canReturn_pure done
          exact prepareEntries_within (enterFile_within within own)
            (enterFile_entered consistent known).follow entries prepared
  | visit file =>
      cases known : extraction.program.file? file with
      | none =>
          simp only [make, visitFile, known] at returned
          obtain rfl := LawfulMonadAttach.eq_of_canReturn_pure returned
          exact within
      | some source =>
          obtain ⟨own, entries⟩ := allowed source known
          simp only [make, visitFile, known] at returned
          exact visitEntries_within (enterFile_within within own)
            (enterFile_entered consistent known).follow entries returned

/-! ## Runs -/

/-- What every call of a list keeps holds after the list. -/
theorem after_keeps {holds : ModuleTree → Prop} {calls : List Call}
    (each : ∀ {call tree pass}, call ∈ calls → holds tree →
      CanReturn (extraction.make tree call) pass → holds pass.tree) :
    ∀ {tree result : ModuleTree}, holds tree → CanReturn (extraction.after tree calls) result →
      holds result := by
  induction calls with
  | nil =>
      intro tree result start returned
      obtain rfl := LawfulMonadAttach.eq_of_canReturn_pure returned
      exact start
  | cons call calls ih =>
      intro tree result start returned
      obtain ⟨reached, first, rest⟩ := LawfulMonadAttach.canReturn_bind_imp' returned
      exact ih (fun member => each (by simp [member])) (each (by simp) start first) rest

/-- What a pass over each file keeps holds after the pass over a list of files. -/
theorem overFiles_keeps {holds : ModuleTree → Prop} {perFile : ModuleTree → FileId → m Pass}
    {files : List FileId}
    (each : ∀ {file tree pass}, file ∈ files → holds tree → CanReturn (perFile tree file) pass →
      holds pass.tree) :
    ∀ {tree : ModuleTree}, holds tree → ∀ {pass : Pass},
      CanReturn (overFiles perFile tree files) pass → holds pass.tree := by
  induction files with
  | nil =>
      intro tree start pass returned
      obtain rfl := LawfulMonadAttach.eq_of_canReturn_pure returned
      exact start
  | cons file files ih =>
      intro tree start pass returned
      obtain ⟨middle, first, rest⟩ := LawfulMonadAttach.canReturn_bind_imp' returned
      have reached := each (by simp) start first
      cases failed : middle.error with
      | some error =>
          simp only [failed] at rest
          obtain rfl := LawfulMonadAttach.eq_of_canReturn_pure rest
          exact reached
      | none =>
          simp only [failed] at rest
          exact ih (fun member => each (by simp [member])) reached rest

/-- A documentation is what the two passes leave behind if none of them fails. -/
theorem run_cases {files : List FileId} {documentation : Documentation}
    (returned : CanReturn (extraction.run files) (.ok documentation)) :
    ∃ prepared visited,
      CanReturn (overFiles extraction.prepareFile extraction.start files) prepared ∧
      prepared.error = none ∧
      CanReturn (overFiles extraction.visitFile prepared.tree files) visited ∧
      documentation = extraction.finish visited.tree := by
  obtain ⟨prepared, first, others⟩ := LawfulMonadAttach.canReturn_bind_imp' returned
  cases failed : prepared.error with
  | some error =>
      simp only [failed] at others
      cases LawfulMonadAttach.eq_of_canReturn_pure others
  | none =>
      simp only [failed] at others
      obtain ⟨visited, second, done⟩ := LawfulMonadAttach.canReturn_bind_imp' others
      cases failedLater : visited.error with
      | some error =>
          simp only [failedLater] at done
          cases LawfulMonadAttach.eq_of_canReturn_pure done
      | none =>
          simp only [failedLater] at done
          cases LawfulMonadAttach.eq_of_canReturn_pure done
          exact ⟨prepared, visited, first, failed, second, rfl⟩

/-- What every call on the files of a list keeps holds of their documentation. -/
theorem run_keeps {holds : ModuleTree → Prop} {files : List FileId}
    (each : ∀ (call : Call) {tree pass}, call.file ∈ files → holds tree →
      CanReturn (extraction.make tree call) pass → holds pass.tree)
    (start : holds extraction.start) {documentation : Documentation}
    (returned : CanReturn (extraction.run files) (.ok documentation)) :
    holds documentation.tree := by
  obtain ⟨prepared, visited, first, -, second, rfl⟩ := run_cases returned
  have reached : holds prepared.tree :=
    overFiles_keeps (fun member before made => each (.prepare _) member before made) start first
  exact overFiles_keeps (fun member before made => each (.visit _) member before made) reached
    second

omit [Monad m] [LawfulMonad m] [MonadAttach m] [LawfulMonadAttach m] in
theorem start_bounded (extraction : Extraction m) (root : bounds.allows [])
    (unlinked : ¬bounds.linked → extraction.settings.repository = none) :
    extraction.Bounded bounds extraction.start := by
  have shaped : extraction.start.Shaped := ModuleTree.ofRoot_shaped _ _
  refine ⟨extraction.start_consistent, shaped, ?_, ?_⟩
  · intro steps id leads
    obtain ⟨module, found⟩ := shaped.get?_of_follow? leads
    obtain rfl : id = ModuleTree.rootId := Nat.lt_one_iff.1 (ModuleTree.lt_size_of_get? found)
    rw [shaped.follow_injective leads (ModuleTree.follow?_nil _ _)]
    exact root
  · intro noLinks id header found
    obtain rfl : id = ModuleTree.rootId := Nat.lt_one_iff.1 (ModuleTree.lt_size_of_header? found)
    cases found
    exact unlinked noLinks

/-- The tree after any calls is shaped. -/
theorem after_shaped {calls : List Call} {result : ModuleTree}
    (returned : CanReturn (extraction.after extraction.start calls) result) : result.Shaped := by
  have start : extraction.Bounded .loose extraction.start :=
    extraction.start_bounded trivial fun barred => (barred trivial).elim
  have final : extraction.Bounded .loose result := by
    refine after_keeps (fun _ before made => make_bounded before ?_ made) start returned
    exact fun _ _ => ⟨trivial, fun _ _ => trivial⟩
  exact final.within.shaped

/-- In the documentation of a list of files all of them are prepared. -/
theorem run_prepared {files : List FileId} {documentation : Documentation}
    (returned : CanReturn (extraction.run files) (.ok documentation)) :
    extraction.Consistent documentation.tree ∧
      ∀ file ∈ files, extraction.Prepared documentation.tree file := by
  obtain ⟨prepared, visited, first, succeeds, second, rfl⟩ := run_cases returned
  obtain ⟨-, consistent, -, ready⟩ := overFiles_prepareFile extraction.start_consistent first
  obtain ⟨growth, final, -⟩ := overFiles_visitFile consistent (ready succeeds) second
  exact ⟨final, fun file member => (ready succeeds file member).later growth⟩

end Extraction

/-! ## The ways that files open -/

/-- The ways that the files of a list open: through the directories of a file, through the
namespaces of an entry after them, and the beginnings of such ways.  The way to the root is always
open. -/
def Program.Opens (program : Program) (settings : Settings) (files : List FileId)
    (steps : List Step) : Prop :=
  steps = [] ∨ ∃ file ∈ files, ∃ source, program.file? file = some source ∧
    (steps <+: route (settings.directoriesOf source) [] ∨
      ∃ entry ∈ source.entries, steps <+: route (settings.directoriesOf source) entry.namespaces)

theorem Program.Opens.beginning {program : Program} {settings : Settings} {files : List FileId}
    {steps more : List Step} (opens : program.Opens settings files (steps ++ more)) :
    program.Opens settings files steps := by
  have shorter : steps <+: steps ++ more := List.prefix_append steps more
  rcases opens with none | ⟨file, member, source, known, own | ⟨entry, isEntry, own⟩⟩
  · exact .inl (List.append_eq_nil_iff.1 none).1
  · exact .inr ⟨file, member, source, known, .inl (shorter.trans own)⟩
  · exact .inr ⟨file, member, source, known, .inr ⟨entry, isEntry, shorter.trans own⟩⟩

/-- The modules at the ways that files open, with links only if there is a repository. -/
def Program.bounds (program : Program) (settings : Settings) (files : List FileId) : Bounds where
  allows := program.Opens settings files
  closed := .beginning
  linked := settings.repository ≠ none

theorem ModuleTree.follow?_of_prefix {tree : ModuleTree} {steps longer : List Step}
    (shorter : steps <+: longer) {id : ModuleId} (leads : tree.follow? rootId longer = some id) :
    ∃ other, tree.follow? rootId steps = some other := by
  obtain ⟨more, rfl⟩ := shorter
  rw [follow?_append, Option.bind_eq_some_iff] at leads
  obtain ⟨other, before, -⟩ := leads
  exact ⟨other, before⟩

/-- The documentation of a list of files has modules at exactly the ways that the files open. -/
theorem extractFiles_within {program : Program} {settings : Settings} {files : List FileId}
    {documentation : Documentation}
    (succeeds : extractFiles program settings files = .ok documentation) :
    documentation.tree.Within (program.bounds settings files) ∧
      ∀ {steps}, program.Opens settings files steps →
        ∃ id, documentation.tree.follow? ModuleTree.rootId steps = some id := by
  let extraction := Extraction.remembering program settings
  have returned : CanReturn (extraction.run files) (.ok documentation) :=
    succeeds ▸ canReturn_run (extraction.run files) {}
  have allowed : ∀ file ∈ files, extraction.AllowedIn (program.bounds settings files) file := by
    intro file member source known
    refine ⟨.inr ⟨file, member, source, known, .inl (List.prefix_refl _)⟩, ?_⟩
    intro entry isEntry
    exact .inr ⟨file, member, source, known, .inr ⟨entry, isEntry, List.prefix_refl _⟩⟩
  constructor
  · have start : extraction.Bounded (program.bounds settings files) extraction.start :=
      extraction.start_bounded (.inl rfl) Classical.not_not.1
    have final : extraction.Bounded (program.bounds settings files) documentation.tree := by
      refine Extraction.run_keeps (fun call tree pass member before made => ?_) start returned
      exact Extraction.make_bounded before (allowed call.file member) made
    exact final.within
  · intro steps opens
    obtain ⟨consistent, prepared⟩ := Extraction.run_prepared returned
    rcases opens with rfl | ⟨file, member, source, known, within⟩
    · exact ⟨_, ModuleTree.follow?_nil _ _⟩
    · -- The file has its module, and its entries go on from there.
      obtain ⟨_, base, sameSource, given, ready⟩ := prepared file member
      obtain rfl := Option.some.inj (known.symm.trans sameSource)
      obtain ⟨_, sameSource, leads⟩ := consistent.files given
      obtain rfl := Option.some.inj (known.symm.trans sameSource)
      change documentation.tree.follow? _ (route (settings.directoriesOf source) []) = _ at leads
      rcases within with shorter | ⟨entry, isEntry, shorter⟩
      · exact ModuleTree.follow?_of_prefix shorter leads
      · obtain ⟨id, module, goesOn, -⟩ := ready entry isEntry
        have whole : documentation.tree.follow? ModuleTree.rootId
            (route (settings.directoriesOf source) entry.namespaces) = some id := by
          rw [route_namespaces, ModuleTree.follow?_append, leads]
          exact goesOn
        exact ModuleTree.follow?_of_prefix shorter whole

end ApiDocs
