import ApiDocs.Proofs.Extract.Ways
import ApiDocs.Proofs.Tree.History

/-!
# The links that modules start from

The link of a module is fixed when the module is created, by whichever file comes first, and it is
read much later, by the statements of other files.  Still it can be read off the program.  The link
of a directory follows from its path.  The modules of a **nest of namespaces** all have one link: it
leads to the file that first opens the outermost namespace of the nest in its directory.

## Main definitions

* `Program.opener?` — the first file that opens a namespace in a directory.
* `Header.linkInside?` — the link that a namespace has below a module.
* `ModuleTree.Anchored` — the invariant: every module has the link of its place.

## Main statements

* `Entered.anchored` — entering a child keeps the links in place if the child's own link is.
* `prepareEntries_anchored`, `visitEntries_anchored` — a walk through a file keeps them in place, if
  the file is the opener of the outermost namespaces that it creates.
* `overFiles_prepareFile_anchored` — over all files, the file that creates such a namespace is its
  opener: an earlier opener would have created it.
* `extractFiles_anchored`, `Anchored.exists_place` — the links in the documentation of known files.

## Design notes

**The opener is looked up in the whole list of files.**  While the first pass is running, only a
part of the list has been walked.  A namespace that is missing then was opened by no file of that
part, so the file at hand is the first of the whole list.  In the second pass nothing is missing.
-/

namespace ApiDocs

open MonadAttach (CanReturn)

/-- Whether a walk through a file meets a namespace with a name outside all other namespaces. -/
def SourceFile.opens (source : SourceFile) (name : String) : Bool :=
  source.entries.any (·.namespaces.head? = some name)

/-- The first file of a list that lies in the given directories and opens a namespace there. -/
def Program.opener? (program : Program) (settings : Settings) (files : List FileId)
    (directories : List String) (name : String) : Option SourceFile :=
  (files.filterMap program.file?).find? fun source =>
    settings.directoriesOf source = directories && source.opens name

/-- The link that a namespace has below a module.  A namespace shares its own link, and below a
directory the link leads to the file that opens the namespace there. -/
def Header.linkInside? (above : Header) (opener : List String → String → Option SourceFile)
    (name : String) : Option (Option String) :=
  if above.isNamespace then some above.repository
  else (opener above.path name).map fun source => fileLink above.repository source.baseName

namespace ModuleTree

/-- A shaped tree in which every module has the link of its place: that of a directory follows from
its path, and that of a namespace from the module above it. -/
structure Anchored (tree : ModuleTree) (repository : Option String)
    (opener : List String → String → Option SourceFile) : Prop where
  shaped : tree.Shaped
  directory : ∀ {id header}, tree.header? id = some header → header.isNamespace = false →
    header.repository = linkBelow repository header.path
  namespaced : ∀ {id header parent above}, tree.header? id = some header →
    header.isNamespace = true → header.parent = some parent → tree.header? parent = some above →
    above.linkInside? opener header.name = some header.repository

section

variable {tree grown : ModuleTree} {repository link : Option String}
variable {opener : List String → String → Option SourceFile}
variable {parent id : ModuleId} {step : Step} {above : Header}

/-! ## Entering and changing modules -/

/-- Entering a child keeps the links in place if its own link is. -/
theorem Entered.anchored (entered : Entered tree parent step link id grown)
    (before : tree.Anchored repository opener) (there : tree.header? parent = some above)
    (directory : step.isNamespace = false → above.isNamespace = false ∧
      link = above.repository.map (· ++ "/" ++ step.name))
    (namespaced : step.isNamespace = true → tree.step? parent step = none →
      above.linkInside? opener step.name = some link) :
    grown.Anchored repository opener := by
  rcases entered.found_or_added with ⟨-, rfl⟩ | ⟨-, aboveAgain, added⟩
  · exact before
  · obtain rfl := Option.some.inj (there.symm.trans added.parentThere)
    refine ⟨added.shaped before.shaped fun kind => (directory kind).1, ?_, ?_⟩
    · intro other header found kind
      rw [added.header] at found
      split at found
      · cases found
        obtain ⟨aboveKind, ownLink⟩ := directory kind
        show link = linkBelow repository (above.path ++ [step.name])
        rw [linkBelow_concat, ← before.directory there aboveKind, ownLink]
      · exact before.directory found kind
    · intro other header otherParent otherAbove found kind isParent foundAbove
      -- The parent is older than the child, so it is not the module that was added.
      have older : otherParent ≠ tree.size := by
        rw [added.header] at found
        split at found
        · cases found
          cases isParent
          exact Nat.ne_of_lt (lt_size_of_header? there)
        · obtain ⟨_, smaller, -⟩ := before.shaped.above found isParent
          exact Nat.ne_of_lt (Nat.lt_trans smaller (lt_size_of_header? found))
      rw [added.header, if_neg older] at foundAbove
      rw [added.header] at found
      split at found
      · cases found
        cases isParent
        obtain rfl := Option.some.inj (there.symm.trans foundAbove)
        exact namespaced kind added.absent
      · exact before.namespaced found kind isParent foundAbove

theorem Anchored.modify (anchored : tree.Anchored repository opener)
    {change : DocModule → DocModule}
    (keeps : ∀ module, (change module).header = module.header ∧
      (change module).children = module.children) :
    (tree.modify id change).Anchored repository opener := by
  have headers : ∀ other, (tree.modify id change).header? other = tree.header? other :=
    header?_modify fun module => (keeps module).1
  refine ⟨anchored.shaped.modify (fun module => (keeps module).1) fun module => (keeps module).2,
    ?_, ?_⟩
  · intro other header found
    rw [headers] at found
    exact anchored.directory found
  · intro other header otherParent otherAbove found kind isParent foundAbove
    rw [headers] at found foundAbove
    exact anchored.namespaced found kind isParent foundAbove

/-- The modules of files have no part in the links. -/
theorem Anchored.withFiles (anchored : tree.Anchored repository opener)
    (fileModules : Table FileId ModuleId) :
    { tree with fileModules }.Anchored repository opener :=
  ⟨anchored.shaped.withFiles fileModules, anchored.directory, anchored.namespaced⟩

/-- Entering directories from a directory keeps the links in place. -/
theorem enterDirectories_anchored (names : List String) :
    ∀ {tree : ModuleTree} {start : ModuleId} {above : Header},
      tree.Anchored repository opener → tree.header? start = some above →
      above.isNamespace = false →
      (tree.enterDirectories start names).2.Anchored repository opener := by
  induction names with
  | nil => intro tree start above anchored there kind; exact anchored
  | cons name names ih =>
      intro tree start above anchored there kind
      obtain ⟨module, found, -⟩ := Option.map_eq_some_iff.1 there
      have entered := enterDirectory_entered found name
      have next := entered.anchored anchored there
        (fun _ => ⟨kind, directoryRepository_eq there name⟩)
        (fun isNamespace => by cases isNamespace)
      obtain ⟨header, foundNext, -, isStep⟩ := next.shaped.step.1 entered.step_eq
      exact ih next foundNext (congrArg Step.isNamespace isStep)

theorem namespaceRepository_eq (there : tree.header? parent = some above) (fileName : String) :
    tree.namespaceRepository parent fileName =
      if above.isNamespace then above.repository else fileLink above.repository fileName := by
  obtain ⟨module, found, rfl⟩ := Option.map_eq_some_iff.1 there
  rw [namespaceRepository, found]
  rfl

/-- Entering namespaces keeps the links in place.  From a directory, the file at hand has to be the
opener of the first namespace if that one is missing; all further links are shared. -/
theorem enterNamespaces_anchored (source : SourceFile) (names : List String) :
    ∀ {tree : ModuleTree} {start : ModuleId} {above : Header},
      tree.Anchored repository opener → tree.header? start = some above →
      (above.isNamespace = false → ∀ name, names.head? = some name →
        tree.step? start ⟨name, true⟩ = none → opener above.path name = some source) →
      (tree.enterNamespaces source.baseName start names).2.Anchored repository opener := by
  induction names with
  | nil => intro tree start above anchored there isOpener; exact anchored
  | cons name names ih =>
      intro tree start above anchored there isOpener
      obtain ⟨module, found, -⟩ := Option.map_eq_some_iff.1 there
      have entered := enterNamespace_entered found name
        (tree.namespaceRepository start source.baseName)
      have next := entered.anchored anchored there (fun isDirectory => by cases isDirectory) <| by
        intro _ absent
        rw [Header.linkInside?, namespaceRepository_eq there]
        cases kind : above.isNamespace with
        | true => rfl
        | false =>
            rw [isOpener kind name rfl absent]
            rfl
      obtain ⟨header, foundNext, -, isStep⟩ := next.shaped.step.1 entered.step_eq
      refine ih next foundNext fun isDirectory => ?_
      have isNamespace : header.isNamespace = true := congrArg Step.isNamespace isStep
      rw [isNamespace] at isDirectory
      cases isDirectory

end

/-! ## Outermost namespaces -/

/-- Where the way to the outermost namespace of one of the entries leads nowhere, the file at hand
is the opener of that namespace. -/
def FirstOpens (tree : ModuleTree) (opener : List String → String → Option SourceFile)
    (source : SourceFile) (directories : List String) (entries : List Entry) : Prop :=
  ∀ entry ∈ entries, ∀ name, entry.namespaces.head? = some name →
    tree.follow? rootId (route directories [name]) = none → opener directories name = some source

section

variable {tree grown : ModuleTree} {repository : Option String}
variable {opener : List String → String → Option SourceFile} {source : SourceFile}
variable {directories : List String} {base : ModuleId} {entry : Entry} {entries : List Entry}

/-- Fewer ways lead nowhere in a later tree. -/
theorem FirstOpens.later (firstOpens : tree.FirstOpens opener source directories entries)
    (growth : tree.Extends grown) : grown.FirstOpens opener source directories entries := by
  intro entry member name isFirst nowhere
  refine firstOpens entry member name isFirst ?_
  rw [Option.eq_none_iff_forall_ne_some] at nowhere ⊢
  intro id leads
  exact nowhere id (growth.follow leads)

theorem Shaped.path_of_follow? (shaped : tree.Shaped)
    (leads : tree.follow? rootId (route directories []) = some base) :
    ∃ above, tree.header? base = some above ∧ above.path = directories := by
  obtain ⟨root, foundRoot, rootPath⟩ := shaped.wellFormed.root
  obtain ⟨module, found, path⟩ := shaped.wellFormed.follow foundRoot leads
  rw [rootPath, map_name_route, List.nil_append, List.append_nil] at path
  exact ⟨module.header, header?_of_get? found, path⟩

/-- The namespaces of an entry are entered with the links in place. -/
theorem Anchored.enterNamespaces (anchored : tree.Anchored repository opener)
    (leads : tree.follow? rootId (route directories []) = some base)
    (firstOpens : tree.FirstOpens opener source directories entries) (member : entry ∈ entries) :
    (tree.enterNamespaces source.baseName base entry.namespaces).2.Anchored repository opener := by
  obtain ⟨above, there, rfl⟩ := anchored.shaped.path_of_follow? leads
  refine enterNamespaces_anchored source entry.namespaces anchored there ?_
  intro _ name isFirst absent
  refine firstOpens entry member name isFirst ?_
  rw [route_namespaces, follow?_append, leads, Option.bind_some, route, List.map_nil,
    List.nil_append, List.map_singleton, follow?_cons, absent, Option.bind_none]

end

end ModuleTree

namespace Extraction

variable {m : Type → Type} [Monad m] [LawfulMonad m] [MonadAttach m] [LawfulMonadAttach m]
variable {extraction : Extraction m} {tree : ModuleTree} {repository : Option String}
variable {opener : List String → String → Option SourceFile}

/-! ## The entries of a file -/

section

variable {file : FileId} {source : SourceFile} {base : ModuleId} {directories : List String}

theorem prepareEntries_anchored {entries : List Entry} :
    ∀ {tree : ModuleTree}, tree.Anchored repository opener →
      tree.follow? ModuleTree.rootId (route directories []) = some base →
      tree.FirstOpens opener source directories entries →
      ∀ {result : ModuleTree},
        CanReturn (extraction.prepareEntries file source base tree entries) result →
        result.Anchored repository opener := by
  induction entries with
  | nil =>
      intro tree anchored leads firstOpens result returned
      obtain rfl := LawfulMonadAttach.eq_of_canReturn_pure returned
      exact anchored
  | cons entry entries ih =>
      intro tree anchored leads firstOpens result returned
      obtain ⟨above, there⟩ := anchored.shaped.get?_of_follow? leads
      obtain ⟨middle, first, rest⟩ := LawfulMonadAttach.canReturn_bind_imp' returned
      have reached : middle.Anchored repository opener := by
        have entered := anchored.enterNamespaces leads firstOpens List.mem_cons_self
        obtain ⟨id, grown, same, -, ⟨-, rfl⟩ | ⟨index, module, skeleton, -, -, -, rfl⟩⟩ :=
          prepareEntry_cases anchored.shaped.wellFormed there first
        · rwa [same] at entered
        · rw [same] at entered
          cases skeleton with
          | none => exact entered
          | some skeleton => exact entered.modify skeleton.file_keeps
      have growth := (prepareEntry_advances anchored.shaped.wellFormed there first).growth
      refine ih reached (growth.follow leads) (fun other member => ?_) rest
      exact firstOpens.later growth other (List.mem_cons_of_mem _ member)

theorem visitEntries_anchored {entries : List Entry} :
    ∀ {tree : ModuleTree}, tree.Anchored repository opener →
      tree.follow? ModuleTree.rootId (route directories []) = some base →
      tree.FirstOpens opener source directories entries →
      ∀ {pass : Pass},
        CanReturn (extraction.visitEntries file source base tree entries) pass →
        pass.tree.Anchored repository opener := by
  induction entries with
  | nil =>
      intro tree anchored leads firstOpens pass returned
      obtain rfl := LawfulMonadAttach.eq_of_canReturn_pure returned
      exact anchored
  | cons entry entries ih =>
      intro tree anchored leads firstOpens pass returned
      obtain ⟨above, there⟩ := anchored.shaped.get?_of_follow? leads
      obtain ⟨middle, first, rest⟩ := LawfulMonadAttach.canReturn_bind_imp' returned
      have reached : middle.tree.Anchored repository opener := by
        have entered := anchored.enterNamespaces leads firstOpens List.mem_cons_self
        obtain ⟨id, grown, same, -, ⟨-, rfl⟩ | ⟨index, module, -, -,
          ⟨error, -, rfl⟩ | ⟨-, contribution, -, rfl⟩⟩⟩ :=
          visitEntry_cases anchored.shaped.wellFormed there first
        · rwa [same] at entered
        · rwa [same] at entered
        · rw [same] at entered
          cases contribution with
          | none => exact entered
          | some contribution => exact entered.modify contribution.apply_keeps
      have growth := (visitEntry_advances anchored.shaped.wellFormed there first).growth
      cases failed : middle.error with
      | some error =>
          simp only [failed] at rest
          obtain rfl := LawfulMonadAttach.eq_of_canReturn_pure rest
          exact reached
      | none =>
          simp only [failed] at rest
          refine ih reached (growth.follow leads) (fun other member => ?_) rest
          exact firstOpens.later growth other (List.mem_cons_of_mem _ member)

/-! ## Files -/

omit [Monad m] [LawfulMonad m] [MonadAttach m] [LawfulMonadAttach m] in
theorem enterFile_anchored (anchored : tree.Anchored repository opener) :
    (extraction.enterFile tree file source).2.Anchored repository opener := by
  rw [enterFile, ModuleTree.moduleForFile]
  cases tree.fileModules.find? file with
  | some id => exact anchored
  | none =>
      obtain ⟨root, foundRoot, -, kind, -⟩ := anchored.shaped.root
      exact (ModuleTree.enterDirectories_anchored (extraction.settings.directoriesOf source)
        anchored foundRoot kind).withFiles _

/-- A call on a file keeps the links in place, if the file is the opener of the outermost namespaces
that it creates. -/
theorem make_anchored {call : Call} {pass : Pass} (consistent : extraction.Consistent tree)
    (anchored : tree.Anchored repository opener)
    (firstOpens : ∀ source, extraction.program.file? call.file = some source →
      tree.FirstOpens opener source (extraction.settings.directoriesOf source)
        (extraction.entries source))
    (returned : CanReturn (extraction.make tree call) pass) :
    pass.tree.Anchored repository opener := by
  cases known : extraction.program.file? call.file with
  | none =>
      cases call with
      | prepare file =>
          simp only [Call.file] at known
          simp only [make, prepareFile, known] at returned
          obtain rfl := LawfulMonadAttach.eq_of_canReturn_pure returned
          exact anchored
      | visit file =>
          simp only [Call.file] at known
          simp only [make, visitFile, known] at returned
          obtain rfl := LawfulMonadAttach.eq_of_canReturn_pure returned
          exact anchored
  | some source =>
      have entered := enterFile_entered consistent known
      have opens := (firstOpens source known).later entered.growth
      cases call with
      | prepare file =>
          simp only [Call.file] at known
          simp only [make, prepareFile, known] at returned
          obtain ⟨result, prepared, done⟩ := LawfulMonadAttach.canReturn_bind_imp' returned
          obtain rfl := LawfulMonadAttach.eq_of_canReturn_pure done
          exact prepareEntries_anchored (enterFile_anchored anchored) entered.follow opens prepared
      | visit file =>
          simp only [Call.file] at known
          simp only [make, visitFile, known] at returned
          exact visitEntries_anchored (enterFile_anchored anchored) entered.follow opens returned

omit [Monad m] [LawfulMonad m] [MonadAttach m] [LawfulMonadAttach m] in
/-- The outermost namespaces of a prepared file are there. -/
theorem Prepared.follow_outermost (prepared : extraction.Prepared tree file)
    (consistent : extraction.Consistent tree)
    (known : extraction.program.file? file = some source) {entry : Entry}
    (member : entry ∈ extraction.entries source) {name : String}
    (isFirst : entry.namespaces.head? = some name) :
    tree.follow? ModuleTree.rootId (route (extraction.settings.directoriesOf source) [name]) ≠
      none := by
  obtain ⟨_, base, sameSource, given, ready⟩ := prepared
  obtain rfl := Option.some.inj (known.symm.trans sameSource)
  obtain ⟨_, sameSource, leads⟩ := consistent.files given
  obtain rfl := Option.some.inj (known.symm.trans sameSource)
  obtain ⟨id, module, goesOn, -⟩ := ready entry member
  obtain ⟨rest, isHead⟩ := List.head?_eq_some_iff.1 isFirst
  rw [isHead] at goesOn
  have whole : tree.follow? ModuleTree.rootId
      (route (extraction.settings.directoriesOf source) (name :: rest)) = some id := by
    rw [route_namespaces, ModuleTree.follow?_append, leads]
    exact goesOn
  have shorter : route (extraction.settings.directoriesOf source) [name] <+:
      route (extraction.settings.directoriesOf source) (name :: rest) :=
    ⟨rest.map (⟨·, true⟩), by simp [route]⟩
  obtain ⟨other, before⟩ := ModuleTree.follow?_of_prefix shorter whole
  rw [before]
  exact Option.some_ne_none other

omit [Monad m] [LawfulMonad m] [MonadAttach m] [LawfulMonadAttach m] in
/-- A file that creates an outermost namespace after some files were prepared is its opener among
them and all files to come. -/
theorem firstOpens_of_prepared (usual : ∀ source, extraction.entries source = source.entries)
    (consistent : extraction.Consistent tree) {before after : List FileId}
    (prepared : ∀ other ∈ before, extraction.Prepared tree other)
    (known : extraction.program.file? file = some source) :
    tree.FirstOpens (extraction.program.opener? extraction.settings (before ++ file :: after))
      source (extraction.settings.directoriesOf source) (extraction.entries source) := by
  intro entry member name isFirst nowhere
  have opens : source.opens name = true := by
    rw [usual] at member
    exact List.any_eq_true.2 ⟨entry, member, decide_eq_true isFirst⟩
  have noneBefore : (before.filterMap extraction.program.file?).find? (fun other =>
      extraction.settings.directoriesOf other = extraction.settings.directoriesOf source &&
        other.opens name) = none := by
    rw [List.find?_eq_none]
    intro other listed matches'
    obtain ⟨otherFile, isBefore, otherKnown⟩ := List.mem_filterMap.1 listed
    rw [Bool.and_eq_true, decide_eq_true_eq] at matches'
    obtain ⟨sameDirectories, otherOpens⟩ := matches'
    obtain ⟨otherEntry, otherMember, otherFirst⟩ := List.any_eq_true.1 otherOpens
    rw [← usual] at otherMember
    have there := (prepared otherFile isBefore).follow_outermost consistent otherKnown otherMember
      (of_decide_eq_true otherFirst)
    rw [sameDirectories] at there
    exact there nowhere
  rw [Program.opener?, List.filterMap_append, List.find?_append, noneBefore, Option.none_or,
    List.filterMap_cons_some known, List.find?_cons_of_pos (by simp [opens])]

end

/-! ## Both passes -/

/-- The first pass over a list of files keeps the links in place. -/
theorem overFiles_prepareFile_anchored
    (usual : ∀ source, extraction.entries source = source.entries) {whole files : List FileId} :
    ∀ {before : List FileId} {tree : ModuleTree}, before ++ files = whole →
      extraction.Consistent tree → (∀ file ∈ before, extraction.Prepared tree file) →
      tree.Anchored repository (extraction.program.opener? extraction.settings whole) →
      ∀ {pass : Pass}, CanReturn (overFiles extraction.prepareFile tree files) pass →
        pass.tree.Anchored repository
          (extraction.program.opener? extraction.settings whole) := by
  induction files with
  | nil =>
      intro before tree split consistent prepared anchored pass returned
      obtain rfl := LawfulMonadAttach.eq_of_canReturn_pure returned
      exact anchored
  | cons file files ih =>
      intro before tree split consistent prepared anchored pass returned
      obtain ⟨middle, first, rest⟩ := LawfulMonadAttach.canReturn_bind_imp' returned
      have reached : middle.tree.Anchored repository
          (extraction.program.opener? extraction.settings whole) := by
        have made : CanReturn (extraction.make tree (.prepare file)) middle := first
        refine make_anchored consistent anchored (fun source known => ?_) made
        rw [← split]
        exact firstOpens_of_prepared usual consistent prepared known
      obtain ⟨growth, later, -, ready⟩ := prepareFile_spec consistent first
      cases failed : middle.error with
      | some error =>
          simp only [failed] at rest
          obtain rfl := LawfulMonadAttach.eq_of_canReturn_pure rest
          exact reached
      | none =>
          simp only [failed] at rest
          have next : before ++ [file] ++ files = whole := by
            rw [List.append_assoc, List.singleton_append, split]
          refine ih next later (fun other member => ?_) reached rest
          rcases List.mem_append.1 member with earlier | now
          · exact (prepared other earlier).later growth
          · obtain rfl := List.mem_singleton.1 now
            exact ready failed

/-- The second pass over prepared files keeps the links in place: it creates no namespace. -/
theorem overFiles_visitFile_anchored {files : List FileId} {pass : Pass}
    (consistent : extraction.Consistent tree)
    (prepared : ∀ file ∈ files, extraction.Prepared tree file)
    (anchored : tree.Anchored repository opener)
    (returned : CanReturn (overFiles extraction.visitFile tree files) pass) :
    pass.tree.Anchored repository opener := by
  let Holds : ModuleTree → Prop := fun tree =>
    extraction.Consistent tree ∧ (∀ file ∈ files, extraction.Prepared tree file) ∧
      tree.Anchored repository opener
  have kept : Holds pass.tree := by
    refine overFiles_keeps ?_ (show Holds tree from ⟨consistent, prepared, anchored⟩) returned
    rintro file tree pass member ⟨consistent, prepared, anchored⟩ visited
    obtain ⟨growth, later, -⟩ := visitFile_spec consistent visited
    refine ⟨later, fun other listed => (prepared other listed).later growth, ?_⟩
    have made : CanReturn (extraction.make tree (.visit file)) pass := visited
    refine make_anchored consistent anchored (fun source known => ?_) made
    intro entry isEntry name isFirst nowhere
    exact ((prepared file member).follow_outermost consistent known isEntry isFirst nowhere).elim
  exact kept.2.2

end Extraction

/-- In the documentation of a list of files every module has the link of its place. -/
theorem extractFiles_anchored {program : Program} {settings : Settings} {files : List FileId}
    {documentation : Documentation}
    (succeeds : extractFiles program settings files = .ok documentation) :
    documentation.tree.Anchored settings.repository (program.opener? settings files) := by
  let extraction := Extraction.remembering program settings
  have returned : CanReturn (extraction.run files) (.ok documentation) :=
    succeeds ▸ canReturn_run (extraction.run files) {}
  obtain ⟨prepared, visited, first, noError, second, rfl⟩ := Extraction.run_cases returned
  have start : extraction.start.Anchored settings.repository (program.opener? settings files) := by
    have onlyRoot : ∀ {id header}, extraction.start.header? id = some header →
        header = { name := settings.name, path := [], repository := settings.repository
                   isNamespace := false, parent := none } := by
      intro id header found
      obtain rfl : id = 0 := Nat.lt_one_iff.1 (ModuleTree.lt_size_of_header? found)
      exact (Option.some.inj found).symm
    refine ⟨ModuleTree.ofRoot_shaped _ _, ?_, ?_⟩
    · intro id header found _
      rw [onlyRoot found]
      cases settings.repository <;> rfl
    · intro id header parent above found kind
      rw [onlyRoot found] at kind
      cases kind
  obtain ⟨-, consistent, -, ready⟩ :=
    Extraction.overFiles_prepareFile extraction.start_consistent first
  have anchored := Extraction.overFiles_prepareFile_anchored (fun _ => rfl) (List.nil_append files)
    extraction.start_consistent (List.forall_mem_nil _) start first
  exact Extraction.overFiles_visitFile_anchored consistent (ready noError) anchored second

/-! ## Places -/

/-- The place of a module: the directories and the namespaces on the way to it, with its link.  The
link of a directory continues the repository by its names.  All namespaces below one outermost
namespace have the same link, to the opener of that one. -/
structure DocModule.At (module : DocModule) (repository : Option String)
    (opener : List String → String → Option SourceFile) (directories names : List String) :
    Prop where
  kind : module.isNamespace = true ↔ names ≠ []
  directory : names = [] → module.repository = linkBelow repository directories
  namespaced : ∀ outermost inner, names = outermost :: inner →
    ∃ source, opener directories outermost = some source ∧
      module.repository = fileLink (linkBelow repository directories) source.baseName

namespace ModuleTree.Anchored

variable {tree : ModuleTree} {repository : Option String}
variable {opener : List String → String → Option SourceFile} {id parent : ModuleId}
variable {module above : DocModule} {directories names : List String}

/-- A directory lies below a directory, and has the link of its path. -/
theorem at_directory (anchored : tree.Anchored repository opener)
    (found : tree.get? id = some module) (kind : module.isNamespace = false)
    (leads : tree.follow? rootId (route directories []) = some id) :
    module.At repository opener directories [] := by
  obtain ⟨_, sameHeader, path⟩ := anchored.shaped.path_of_follow? leads
  obtain rfl := Option.some.inj ((header?_of_get? found).symm.trans sameHeader)
  have link := anchored.directory (header?_of_get? found) kind
  rw [path] at link
  exact ⟨by simp [kind], fun _ => link, fun _ _ none => by cases none⟩

/-- A namespace has the link of the nest that it lies in, or opens a nest in a directory. -/
theorem at_namespace (anchored : tree.Anchored repository opener)
    (found : tree.get? id = some module) (kind : module.isNamespace = true)
    (isParent : module.parent = some parent) (foundAbove : tree.get? parent = some above)
    (leads : tree.follow? rootId (route directories names) = some parent)
    (place : above.At repository opener directories names) :
    module.At repository opener directories (names ++ [module.name]) := by
  have link := anchored.namespaced (header?_of_get? found) kind isParent
    (header?_of_get? foundAbove)
  refine ⟨by simp [kind], fun none => by simp at none, fun outermost inner split => ?_⟩
  cases names with
  | nil =>
      have aboveKind : above.header.isNamespace = false := by
        simpa [DocModule.header] using place.kind
      obtain ⟨_, sameHeader, path⟩ := anchored.shaped.path_of_follow? leads
      obtain rfl := Option.some.inj ((header?_of_get? foundAbove).symm.trans sameHeader)
      obtain ⟨rfl, -⟩ := List.cons.inj split
      rw [Header.linkInside?, if_neg (by simp [aboveKind]), path,
        Option.map_eq_some_iff] at link
      obtain ⟨source, isOpener, ownLink⟩ := link
      exact ⟨source, isOpener, by rw [← place.directory rfl]; exact ownLink.symm⟩
  | cons first rest =>
      have aboveKind : above.header.isNamespace = true := place.kind.2 (List.cons_ne_nil _ _)
      obtain ⟨rfl, -⟩ := List.cons.inj split
      rw [Header.linkInside?, if_pos aboveKind] at link
      have shared : module.repository = above.repository := (Option.some.inj link).symm
      rw [shared]
      exact place.namespaced first rest rfl

/-- Every module of a tree with its links in place has a place, by induction from the root. -/
theorem exists_place (anchored : tree.Anchored repository opener) :
    ∀ {module : DocModule}, tree.get? id = some module →
      ∃ directories names, tree.follow? rootId (route directories names) = some id ∧
        module.At repository opener directories names := by
  induction id using Nat.strongRecOn with
  | _ id ih =>
      intro module found
      have header := header?_of_get? found
      by_cases isRoot : id = rootId
      · subst isRoot
        obtain ⟨_, foundRoot, -, kind, -⟩ := anchored.shaped.root
        obtain rfl := Option.some.inj (header.symm.trans foundRoot)
        exact ⟨[], [], rfl, anchored.at_directory found kind rfl⟩
      · obtain ⟨parent, _, isParent, older, foundHeader, -, upwards⟩ :=
          anchored.shaped.parent header isRoot
        obtain ⟨above, foundAbove, rfl⟩ := Option.map_eq_some_iff.1 foundHeader
        obtain ⟨directories, names, leads, place⟩ := ih parent older foundAbove
        have way : tree.follow? rootId (route directories names ++ [module.header.step]) =
            some id := by
          rw [follow?_concat, leads, Option.bind_some]
          exact anchored.shaped.step.2 ⟨module.header, header, isParent, rfl⟩
        cases kind : module.isNamespace with
        | false =>
            -- Above a directory there is a directory, and no namespaces lie on the way.
            have aboveKind : above.isNamespace = false := upwards kind
            obtain rfl : names = [] := by
              by_contra inside
              rw [place.kind.2 inside] at aboveKind
              cases aboveKind
            have split : route directories [] ++ [module.header.step] =
                route (directories ++ [module.name]) [] := by
              simp [route, Header.step, DocModule.header, kind]
            rw [split] at way
            exact ⟨_, [], way, anchored.at_directory found kind way⟩
        | true =>
            have split : route directories names ++ [module.header.step] =
                route directories (names ++ [module.name]) := by
              simp [route, Header.step, DocModule.header, kind]
            rw [split] at way
            exact ⟨directories, _, way,
              anchored.at_namespace found kind isParent foundAbove leads place⟩

end ModuleTree.Anchored

end ApiDocs
