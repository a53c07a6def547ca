import ApiDocs.Proofs.Extract.Frame

/-!
# Missing declarations are reported exactly

A visit stops at the first statement whose record is not there.  Which statement that is can be read
off the tree **before** the visit: a visit creates no records, so no statement makes up for what a
later one lacks, and none takes away what a later one finds.

## Main definitions

* `ModuleTree.moduleAt?` — the module that a way leads to.
* `Settings.labelAt` — how messages call the module at a way.
* `Extraction.lacking?` — the error that an entry of a file deserves: a class, an interface, an enum
  or a type alias whose name is not in the table of its kind.

## Main statements

* `visitEntry_error` — the second pass stops at an entry exactly if the entry lacks its record.
* `visitEntries_append` — the second pass over two lists is that over the first and then the second.
* `missing_declarations_reported` — the error of a visit, and the tree that a failed visit leaves.

## Design notes

**The four kinds by name.**  `lacking?` reads the node of a statement and names the table that each
of the four kinds needs, so it says on its own which statements can fail.  That the visitor asks for
the same records is a lemma, `lacking?_of_statement`.

**Modules that are not there yet.**  The namespaces of a statement may be new to the tree, and a
visit creates their modules before it looks for the record.  A new module has no records, so the
record is missing both before and after.  This is where the trees must be shaped: a way that leads
nowhere in the old tree leads to a new module in the later one, never to an old one.
-/

namespace ApiDocs

open MonadAttach (CanReturn)

/-! ## Records at a way -/

/-- The module that a way leads to from the root. -/
def ModuleTree.moduleAt? (tree : ModuleTree) (steps : List Step) : Option DocModule :=
  (tree.follow? rootId steps).bind tree.get?

theorem ModuleTree.moduleAt?_of_follow? {tree : ModuleTree} {steps : List Step} {id : ModuleId}
    {module : DocModule} (leads : tree.follow? rootId steps = some id)
    (found : tree.get? id = some module) : tree.moduleAt? steps = some module := by
  rw [moduleAt?, leads, Option.bind_some, found]

/-- Whether the module that a way leads to has a record; a module that is not there has none. -/
def ModuleTree.hasRecordAt (tree : ModuleTree) (steps : List Step) (name : String)
    (kind : RecordKind) : Bool :=
  (tree.moduleAt? steps).any (·.hasRecord name kind)

theorem ModuleTree.hasRecordAt_of_follow? {tree : ModuleTree} {steps : List Step} {id : ModuleId}
    {module : DocModule} (leads : tree.follow? rootId steps = some id)
    (found : tree.get? id = some module) (name : String) (kind : RecordKind) :
    tree.hasRecordAt steps name kind = module.hasRecord name kind := by
  rw [hasRecordAt, moduleAt?_of_follow? leads found, Option.any_some]

/-- Tables with the same keys have the same records. -/
theorem Table.SameIn.contains_eq {α β : Type} {part : α → β} {earlier later : Table String α}
    (same : Table.SameIn part earlier later) (key : String) :
    later.contains key = earlier.contains key := by
  rw [Bool.eq_iff_iff, contains_iff_mem_keys, contains_iff_mem_keys, same.keys]

/-- Visits neither create nor remove records. -/
theorem DocModule.FilledIn.hasRecord_eq {earlier later : DocModule}
    (filledIn : earlier.FilledIn later) (name : String) (kind : RecordKind) :
    later.hasRecord name kind = earlier.hasRecord name kind := by
  cases kind with
  | classRecord => exact filledIn.classes.contains_eq name
  | interfaceRecord => exact filledIn.interfaces.contains_eq name
  | enumRecord => exact congrArg (Table.contains · name) filledIn.enums
  | aliasRecord => exact filledIn.aliases.contains_eq name

/-- A module without declarations has no records. -/
theorem DocModule.hasRecord_of_blank {blank : DocModule} (isBlank : blank.content = { name := "" })
    (name : String) (kind : RecordKind) : blank.hasRecord name kind = false := by
  have same : blank.hasRecord name kind = blank.content.hasRecord name kind := by
    cases kind <;> rfl
  rw [same, isBlank]
  cases kind <;> rfl

/-- A tree that visits made of another one: it is shaped, it has grown, and modules were only filled
in. -/
structure ModuleTree.Visited (earlier later : ModuleTree) : Prop where
  shaped : later.Shaped
  growth : earlier.Extends later
  kept : earlier.Kept .visiting later

/-- Visits leave the records at every way as they are. -/
theorem ModuleTree.Visited.hasRecordAt_eq {earlier later : ModuleTree}
    (visited : earlier.Visited later) (before : earlier.Shaped) (steps : List Step)
    (name : String) (kind : RecordKind) :
    later.hasRecordAt steps name kind = earlier.hasRecordAt steps name kind := by
  cases leads : earlier.follow? rootId steps with
  | some id =>
      obtain ⟨module, found⟩ := before.get?_of_follow? leads
      obtain ⟨filled, foundFilled, filledIn⟩ := visited.kept.old found
      rw [hasRecordAt_of_follow? (visited.growth.follow leads) foundFilled,
        hasRecordAt_of_follow? leads found]
      exact filledIn.hasRecord_eq name kind
  | none =>
      have nothing : earlier.hasRecordAt steps name kind = false := by
        rw [hasRecordAt, moduleAt?, leads]
        rfl
      rw [nothing]
      cases leadsLater : later.follow? rootId steps with
      | none =>
          rw [hasRecordAt, moduleAt?, leadsLater]
          rfl
      | some id =>
          -- An old module has an old way, which would be this one.
          have new : earlier.get? id = none := by
            by_contra old
            obtain ⟨module, found⟩ := Option.ne_none_iff_exists'.1 old
            obtain ⟨others, leadsOthers⟩ := before.exists_way (header?_of_get? found)
            have same := visited.shaped.follow_injective leadsLater
              (visited.growth.follow leadsOthers)
            rw [same, leadsOthers] at leads
            cases leads
          obtain ⟨module, found⟩ := visited.shaped.get?_of_follow? leadsLater
          obtain ⟨blank, isBlank, filledIn⟩ := visited.kept.new new found
          rw [hasRecordAt_of_follow? leadsLater found, filledIn.hasRecord_eq]
          exact DocModule.hasRecord_of_blank isBlank name kind

theorem ModuleTree.Shaped.within_loose {tree : ModuleTree} (shaped : tree.Shaped) :
    tree.Within .loose :=
  ⟨shaped, fun _ => trivial, fun barred => (barred trivial).elim⟩

/-! ## Labels -/

/-- How messages call the module that a list of names leads to: by the names, and the root by the
name of the project. -/
def Settings.labelAt (settings : Settings) (names : List String) : String :=
  if names = [] then settings.name else "/".intercalate names

theorem Settings.label_eq_labelAt {settings : Settings} {tree : ModuleTree}
    (wellFormed : tree.WellFormed) {root : DocModule}
    (isRoot : tree.get? ModuleTree.rootId = some root) (rootName : root.name = settings.name)
    (rootPath : root.path = []) {steps : List Step} {id : ModuleId} {module : DocModule}
    (leads : tree.follow? ModuleTree.rootId steps = some id) (found : tree.get? id = some module) :
    module.label = settings.labelAt (steps.map (·.name)) := by
  obtain ⟨_, foundAgain, path⟩ := wellFormed.follow isRoot leads
  obtain rfl := Option.some.inj (found.symm.trans foundAgain)
  rw [rootPath, List.nil_append] at path
  rw [DocModule.label, labelAt, path]
  cases steps with
  | nil =>
      cases leads
      obtain rfl := Option.some.inj (found.symm.trans isRoot)
      rw [rootName]
  | cons step steps => rfl

/-- What a computation with a state does after another one. -/
theorem bind_apply {σ α β : Type} (first : StateM σ α) (next : α → StateM σ β) (state : σ) :
    (first >>= next) state = next (first state).1 (first state).2 := rfl

namespace Extraction

section

variable {m : Type → Type} [Monad m]

omit [Monad m] in
/-- **The error that an entry of a file deserves.**  A class, an interface, an enum and a type alias
fill in a record, which has to be in the table of their kind in the module that the directories of
the file and the namespaces around the statement lead to.  No other statement deserves an error. -/
def lacking? (extraction : Extraction m) (tree : ModuleTree) (source : SourceFile)
    (entry : Entry) : Option ExtractError :=
  let directories := extraction.settings.directoriesOf source
  let module? := tree.moduleAt? (route directories entry.namespaces)
  let unlessIn (table : DocModule → String → Bool) (kind : RecordKind) (name : NodeIndex) :=
    let name := source.declarationName name
    if module?.any (table · name) then none
    else some (ExtractError.missing kind name
      (extraction.settings.labelAt (directories ++ entry.namespaces)))
  match entry.statement.bind source.arena.get? with
  | none => none
  | some node =>
    match node.kind, node.payload with
    | .classDeclaration, .classDecl data => unlessIn (·.classes.contains) .classRecord data.name
    | .interfaceDeclaration, .interfaceDecl data =>
      unlessIn (·.interfaces.contains) .interfaceRecord data.name
    | .enumDeclaration, .enumDecl data => unlessIn (·.enums.contains) .enumRecord data.name
    | .typeAliasDeclaration, .aliasDecl data => unlessIn (·.aliases.contains) .aliasRecord data.name
    | _, _ => none

omit [Monad m] in
theorem lacking?_of_noStatement {extraction : Extraction m} {entry : Entry}
    (noStatement : entry.statement = none) (tree : ModuleTree) (source : SourceFile) :
    extraction.lacking? tree source entry = none := by
  rw [lacking?, noStatement]
  rfl

omit [Monad m] in
/-- The visitor asks for the record that an entry needs. -/
theorem lacking?_of_statement {extraction : Extraction m} {entry : Entry} {index : NodeIndex}
    (statement : entry.statement = some index) (tree : ModuleTree) (source : SourceFile) :
    extraction.lacking? tree source entry =
      match source.expected? index with
      | some (kind, name) =>
        if tree.hasRecordAt (route (extraction.settings.directoriesOf source) entry.namespaces) name
            kind then none
        else some (.missing kind name (extraction.settings.labelAt
          (extraction.settings.directoriesOf source ++ entry.namespaces)))
      | none => none := by
  rw [lacking?, statement, Option.bind_some, SourceFile.expected?]
  cases source.arena.get? index with
  | none => rfl
  | some node =>
      dsimp only
      generalize node.kind = kind, node.payload = payload
      split
      case h_5 => simp only
      all_goals rfl

end

variable {m : Type → Type} [Monad m] [LawfulMonad m] [MonadAttach m] [LawfulMonadAttach m]
variable {extraction : Extraction m} {file : FileId} {source : SourceFile} {base : ModuleId}
variable {tree later : ModuleTree} {pass : Pass} {entry : Entry}

/-! ## Visits -/

omit [Monad m] [LawfulMonad m] [MonadAttach m] [LawfulMonadAttach m] in
/-- A tree of an extraction at the visit of a file: it comes from the tree before the visit, and the
directories of the file lead to its module. -/
structure Visiting (extraction : Extraction m) (tree : ModuleTree) (source : SourceFile)
    (base : ModuleId) (later : ModuleTree) : Prop where
  before : tree.Shaped
  root : ∃ root, tree.get? ModuleTree.rootId = some root ∧ root.name = extraction.settings.name ∧
    root.path = []
  visited : tree.Visited later
  follow : later.follow? ModuleTree.rootId
    (route (extraction.settings.directoriesOf source) []) = some base

omit [Monad m] [LawfulMonad m] [MonadAttach m] [LawfulMonadAttach m] in
/-- Entering the namespaces of an entry goes on with a visit. -/
theorem Visiting.enterNamespaces (visiting : extraction.Visiting tree source base later)
    (names : List String) :
    extraction.Visiting tree source base
      (later.enterNamespaces source.baseName base names).2 := by
  obtain ⟨above, there⟩ := visiting.visited.shaped.get?_of_follow? visiting.follow
  have arrived := ModuleTree.enterNamespaces_arrived source.baseName names
    visiting.visited.shaped.wellFormed there
  have within := ModuleTree.enterNamespaces_within source.baseName names
    visiting.visited.shaped.within_loose visiting.follow trivial
  refine { visiting with visited := ⟨within.shaped, ?_, ?_⟩, follow := ?_ }
  · exact visiting.visited.growth.trans arrived.growth
  · exact visiting.visited.kept.trans (.of_content arrived.growth arrived.content)
  · exact arrived.growth.follow visiting.follow

/-- One entry of the second pass goes on with a visit. -/
theorem Visiting.visitEntry (visiting : extraction.Visiting tree source base later)
    (returned : CanReturn (extraction.visitEntry file source base later entry) pass) :
    extraction.Visiting tree source base pass.tree := by
  obtain ⟨above, there⟩ := visiting.visited.shaped.get?_of_follow? visiting.follow
  have wellFormed := visiting.visited.shaped.wellFormed
  have growth := (visitEntry_advances wellFormed there returned).growth
  have within := visitEntry_within visiting.visited.shaped.within_loose visiting.follow trivial
    returned
  refine { visiting with visited := ⟨within.shaped, ?_, ?_⟩, follow := ?_ }
  · exact visiting.visited.growth.trans growth
  · exact visiting.visited.kept.trans
      (visitEntry_kept extraction.fillsIn_visiting wellFormed there returned)
  · exact growth.follow visiting.follow

omit [Monad m] [LawfulMonad m] [MonadAttach m] [LawfulMonadAttach m] in
/-- What the module of an entry lacks during a visit is what it lacked before. -/
theorem Visiting.missing?_eq (visiting : extraction.Visiting tree source base later)
    {id : ModuleId} {module : DocModule}
    (leads : later.follow? base (route [] entry.namespaces) = some id)
    (found : later.get? id = some module) {index : NodeIndex}
    (statement : entry.statement = some index) :
    missing? source module index = extraction.lacking? tree source entry := by
  have way : later.follow? ModuleTree.rootId
      (route (extraction.settings.directoriesOf source) entry.namespaces) = some id := by
    rw [route_namespaces, ModuleTree.follow?_append, visiting.follow]
    exact leads
  have label : module.label = extraction.settings.labelAt
      (extraction.settings.directoriesOf source ++ entry.namespaces) := by
    obtain ⟨root, isRoot, rootName, rootPath⟩ := visiting.root
    obtain ⟨continued, isContinued, continues⟩ := visiting.visited.growth.module isRoot
    rw [← map_name_route]
    exact Settings.label_eq_labelAt visiting.visited.shaped.wellFormed isContinued
      (continues.name.trans rootName) (continues.path.trans rootPath) way found
  rw [missing?, lacking?_of_statement statement]
  cases source.expected? index with
  | none => rfl
  | some expected =>
      obtain ⟨kind, name⟩ := expected
      dsimp only
      rw [← visiting.visited.hasRecordAt_eq visiting.before, label,
        ModuleTree.hasRecordAt_of_follow? way found]

/-- The second pass stops at an entry exactly if the entry lacks its record, and then it has only
entered the namespaces of the entry. -/
theorem Visiting.visitEntry_error (visiting : extraction.Visiting tree source base later)
    (returned : CanReturn (extraction.visitEntry file source base later entry) pass) :
    pass.error = extraction.lacking? tree source entry ∧
      (pass.error.isSome = true →
        pass.tree = (later.enterNamespaces source.baseName base entry.namespaces).2) := by
  obtain ⟨above, there⟩ := visiting.visited.shaped.get?_of_follow? visiting.follow
  have entered := visiting.enterNamespaces entry.namespaces
  obtain ⟨id, grown, isGrown, arrived, ⟨noStatement, rfl⟩ | ⟨index, module, statement, found,
    decided⟩⟩ := visitEntry_cases visiting.visited.shaped.wellFormed there returned
  · exact ⟨(lacking?_of_noStatement noStatement tree source).symm, fun failed => by cases failed⟩
  · rw [isGrown] at entered ⊢
    have lacks := entered.missing?_eq arrived.follow found statement
    rcases decided with ⟨error, missing, rfl⟩ | ⟨complete, contribution, -, rfl⟩
    · exact ⟨missing.symm.trans lacks, fun _ => rfl⟩
    · exact ⟨complete.symm.trans lacks, fun failed => by cases failed⟩

/-- The error of the second pass over a list of entries is that of the first entry that lacks its
record. -/
theorem Visiting.visitEntries_error {entries : List Entry} :
    ∀ {later : ModuleTree}, extraction.Visiting tree source base later → ∀ {pass : Pass},
      CanReturn (extraction.visitEntries file source base later entries) pass →
      extraction.Visiting tree source base pass.tree ∧
        pass.error = entries.findSome? (extraction.lacking? tree source) := by
  induction entries with
  | nil =>
      intro later visiting pass returned
      obtain rfl := LawfulMonadAttach.eq_of_canReturn_pure returned
      exact ⟨visiting, rfl⟩
  | cons entry entries ih =>
      intro later visiting pass returned
      obtain ⟨middle, first, rest⟩ := LawfulMonadAttach.canReturn_bind_imp' returned
      have reached := visiting.visitEntry first
      obtain ⟨error, -⟩ := visiting.visitEntry_error first
      rw [List.findSome?_cons, ← error]
      cases failed : middle.error with
      | some error =>
          simp only [failed] at rest
          obtain rfl := LawfulMonadAttach.eq_of_canReturn_pure rest
          exact ⟨reached, failed⟩
      | none =>
          simp only [failed] at rest
          exact ih reached rest

omit [MonadAttach m] [LawfulMonadAttach m] in
/-- The second pass over two lists goes on to the second one unless it stops in the first. -/
theorem visitEntries_append (extraction : Extraction m) (file : FileId) (source : SourceFile)
    (base : ModuleId) (first second : List Entry) :
    ∀ tree : ModuleTree, extraction.visitEntries file source base tree (first ++ second) =
      extraction.visitEntries file source base tree first >>= fun pass =>
        match pass.error with
        | some _ => pure pass
        | none => extraction.visitEntries file source base pass.tree second := by
  induction first with
  | nil =>
      intro tree
      simp only [List.nil_append, visitEntries, pure_bind]
  | cons entry entries ih =>
      intro tree
      simp only [List.cons_append, visitEntries, bind_assoc]
      congr 1
      funext pass
      cases failed : pass.error with
      | some error => simp only [pure_bind, failed]
      | none => exact ih pass.tree

/-- A visit that meets an entry without its record, after entries that all have theirs, stops there
with the namespaces of the entry entered. -/
theorem Visiting.visitEntries_stop {σ : Type} {extraction : Extraction (StateM σ)}
    (visiting : extraction.Visiting tree source base later) {before after : List Entry}
    (complete : ∀ earlier ∈ before, extraction.lacking? tree source earlier = none)
    (lacking : (extraction.lacking? tree source entry).isSome = true) (state : σ) :
    let visited := (extraction.visitEntries file source base later before state).1
    let visit := (extraction.visitEntries file source base later (before ++ entry :: after) state).1
    visited.error = none ∧
      visit.tree = (visited.tree.enterNamespaces source.baseName base entry.namespaces).2 ∧
      ∀ id, visit.tree.contentOf id = visited.tree.contentOf id := by
  intro visited visit
  obtain ⟨reached, error⟩ := visiting.visitEntries_error
    (canReturn_run (extraction.visitEntries file source base later before) state)
  have succeeds : visited.error = none := error.trans (List.findSome?_eq_none_iff.2 complete)
  -- The visit goes on with the entry, in the state that the entries before it leave behind.
  let here := (extraction.visitEntries file source base later before state).2
  let stop := (extraction.visitEntry file source base visited.tree entry here).1
  obtain ⟨stopError, stopTree⟩ := reached.visitEntry_error
    (canReturn_run (extraction.visitEntry file source base visited.tree entry) here)
  have stops : stop.error.isSome = true := by rwa [← stopError] at lacking
  have goesOn : visit =
      (extraction.visitEntries file source base visited.tree (entry :: after) here).1 := by
    unfold visited at succeeds
    unfold visit
    rw [visitEntries_append, bind_apply]
    simp only [succeeds]
    rfl
  have isStop : visit = stop := by
    obtain ⟨failure, failed⟩ := Option.isSome_iff_exists.1 stops
    unfold stop at failed
    rw [goesOn, visitEntries, bind_apply]
    simp only [failed]
    rfl
  obtain ⟨above, there⟩ := reached.visited.shaped.get?_of_follow? reached.follow
  have arrived := ModuleTree.enterNamespaces_arrived source.baseName entry.namespaces
    reached.visited.shaped.wellFormed there
  rw [isStop, stopTree stops]
  exact ⟨succeeds, rfl, arrived.content⟩

/-! ## After any calls -/

theorem make_extends {call : Call} (consistent : extraction.Consistent tree)
    (returned : CanReturn (extraction.make tree call) pass) : tree.Extends pass.tree := by
  cases call with
  | prepare file => exact (prepareFile_spec consistent returned).1
  | visit file => exact (visitFile_spec consistent returned).1

/-- The root keeps the name of the project and the empty path. -/
theorem after_root {calls : List Call} {result : ModuleTree}
    (returned : CanReturn (extraction.after extraction.start calls) result) :
    ∃ root, result.get? ModuleTree.rootId = some root ∧ root.name = extraction.settings.name ∧
      root.path = [] := by
  let reaches (later : ModuleTree) : Prop :=
    extraction.Consistent later ∧ extraction.start.Extends later
  have reached : reaches result := by
    refine after_keeps ?_ ⟨extraction.start_consistent, .refl _⟩ returned
    intro call later pass member before made
    exact ⟨make_consistent before.1 made, before.2.trans (make_extends before.1 made)⟩
  have isRoot : extraction.start.get? ModuleTree.rootId = some
      { name := extraction.settings.name, repository := extraction.settings.repository } := rfl
  obtain ⟨root, found, continues⟩ := reached.2.module isRoot
  exact ⟨root, found, continues.name, continues.path⟩

/-- After any calls, entering a known file begins a visit. -/
theorem visiting_enterFile {calls : List Call}
    (returned : CanReturn (extraction.after extraction.start calls) tree)
    (known : extraction.program.file? file = some source) :
    extraction.Visiting tree source (extraction.enterFile tree file source).1
      (extraction.enterFile tree file source).2 := by
  have shaped := after_shaped returned
  have entered := enterFile_entered (after_consistent returned) known
  have within : (extraction.enterFile tree file source).2.Within .loose :=
    enterFile_within shaped.within_loose trivial
  exact ⟨shaped, after_root returned,
    ⟨within.shaped, entered.growth, .of_content entered.growth entered.content⟩, entered.follow⟩

end Extraction

/-- **Missing declarations are reported exactly.**  After any calls, with any index and from any
state of it, let a known file be visited.  The error is that of the first entry that lacks its
record in the tree before the visit, and there is none if no entry does.  If an entry is the first
to lack its record, the tree is the one that the entries before it leave behind, which stop nowhere,
with the namespaces of the entry entered; its declarations are those that these entries leave. -/
theorem missing_declarations_reported {σ : Type} (extraction : Extraction (StateM σ)) (state : σ)
    (calls : List Extraction.Call) {file : FileId} {source : SourceFile}
    (known : extraction.program.file? file = some source) :
    let reached := extraction.after extraction.start calls state
    let visit := (extraction.visitFile reached.1 file reached.2).1
    let entered := extraction.enterFile reached.1 file source
    visit.error = (extraction.entries source).findSome? (extraction.lacking? reached.1 source) ∧
      ∀ before entry after, extraction.entries source = before ++ entry :: after →
        (∀ earlier ∈ before, extraction.lacking? reached.1 source earlier = none) →
        (extraction.lacking? reached.1 source entry).isSome = true →
        let visited := (extraction.visitEntries file source entered.1 entered.2 before reached.2).1
        visited.error = none ∧
          visit.tree =
            (visited.tree.enterNamespaces source.baseName entered.1 entry.namespaces).2 ∧
          ∀ id, visit.tree.contentOf id = visited.tree.contentOf id := by
  intro reached visit entered
  have visiting : extraction.Visiting reached.1 source entered.1 entered.2 :=
    Extraction.visiting_enterFile (canReturn_run (extraction.after extraction.start calls) state)
      known
  have isVisit : visit = (extraction.visitEntries file source entered.1 entered.2
      (extraction.entries source) reached.2).1 := by
    show (extraction.visitFile reached.1 file reached.2).1 = _
    rw [Extraction.visitFile, known]
  rw [isVisit]
  constructor
  · exact (visiting.visitEntries_error (canReturn_run _ reached.2)).2
  · intro before entry after split complete lacking
    rw [split]
    exact visiting.visitEntries_stop complete lacking reached.2

/-- A file that declares the enum `Side` and, in a namespace, the class `Cube`. -/
def cubeFile : SourceFile :=
  .ofNodes "/project/cube.ts"
    "enum Side { } namespace solids { class Cube { } }"
    #[{ kind := .identifier, start := 5, stop := 9, payload := .identifier "Side" },
      { kind := .enumDeclaration, start := 0, stop := 13
        payload := .enumDecl { modifiers := none, name := ⟨0⟩, members := [] } },
      { kind := .identifier, start := 24, stop := 30, payload := .identifier "solids" },
      { kind := .identifier, start := 39, stop := 43, payload := .identifier "Cube" },
      { kind := .classDeclaration, start := 33, stop := 47
        payload := .classDecl
          { modifiers := none, name := ⟨3⟩, typeParameters := none, heritage := none
            members := [] } },
      { kind := .moduleBlock, start := 31, stop := 49, payload := .block [⟨4⟩] },
      { kind := .moduleDeclaration, start := 14, stop := 49
        payload := .namespaceDecl { modifiers := none, name := ⟨2⟩, body := ⟨5⟩ } }]
    [⟨1⟩, ⟨6⟩]

/-- A file that declares the same, and also an interface `Cube` beside the class and a function. -/
def solidsFile : SourceFile :=
  .ofNodes "/project/solids.ts"
    "enum Side { } namespace solids { class Cube { } interface Cube { } } function area();"
    #[{ kind := .identifier, start := 5, stop := 9, payload := .identifier "Side" },
      { kind := .enumDeclaration, start := 0, stop := 13
        payload := .enumDecl { modifiers := none, name := ⟨0⟩, members := [] } },
      { kind := .identifier, start := 24, stop := 30, payload := .identifier "solids" },
      { kind := .identifier, start := 39, stop := 43, payload := .identifier "Cube" },
      { kind := .classDeclaration, start := 33, stop := 47
        payload := .classDecl
          { modifiers := none, name := ⟨3⟩, typeParameters := none, heritage := none
            members := [] } },
      { kind := .identifier, start := 58, stop := 62, payload := .identifier "Cube" },
      { kind := .interfaceDeclaration, start := 48, stop := 66
        payload := .interfaceDecl
          { modifiers := none, name := ⟨5⟩, typeParameters := none, heritage := none
            members := [] } },
      { kind := .moduleBlock, start := 31, stop := 68, payload := .block [⟨4⟩, ⟨6⟩] },
      { kind := .moduleDeclaration, start := 14, stop := 68
        payload := .namespaceDecl { modifiers := none, name := ⟨2⟩, body := ⟨7⟩ } },
      { kind := .identifier, start := 78, stop := 82, payload := .identifier "area" },
      { kind := .functionDeclaration, start := 69, stop := 85
        payload := .functionDecl
          { modifiers := none, name := ⟨9⟩, optional := false, typeParameters := none
            parameters := [], typeNode := .absent, body := .absent } }]
    [⟨1⟩, ⟨8⟩, ⟨10⟩]

/-- Two files of one directory that both declare the enum and the class. -/
def solidsProgram : Program where
  files := #[cubeFile, solidsFile]

/-- With the first file prepared, the visit of the second one passes the enum and the class and gets
to the interface: its module has a class `Cube`, but no interface of this name.  The function after
it is not there. -/
theorem missing_declarations_reported_cube :
    let extraction := Extraction.remembering solidsProgram (.ofBase "/project")
    let reached := extraction.after extraction.start [.prepare ⟨0⟩] {}
    let visit := (extraction.visitFile reached.1 ⟨1⟩ reached.2).1
    visit.error = some (.missing .interfaceRecord "Cube" "solids") ∧ visit.tree.size = 2 ∧
      (visit.tree.contentOf 1).classes.keys = ["Cube"] ∧
      (visit.tree.contentOf 1).interfaces.keys = [] ∧
      (visit.tree.contentOf 0).functions.keys = [] := by
  intro extraction reached visit
  have known : extraction.program.file? ⟨1⟩ = some solidsFile := rfl
  have walk : extraction.entries solidsFile =
      [⟨[], some ⟨1⟩⟩, ⟨["solids"], none⟩, ⟨["solids"], some ⟨4⟩⟩] ++
        ⟨["solids"], some ⟨6⟩⟩ :: [⟨[], some ⟨10⟩⟩] := by
    decide +kernel
  obtain ⟨error, stops⟩ := missing_declarations_reported extraction {} [.prepare ⟨0⟩] known
  have stopped := stops _ _ _ walk (by decide +kernel) (by decide +kernel)
  -- Unfolded, the goal is literally about the visit that the theorem speaks of.
  unfold visit reached
  refine ⟨error.trans ?_, (congrArg ModuleTree.size stopped.2.1).trans ?_,
    (congrArg (·.classes.keys) (stopped.2.2 1)).trans ?_,
    (congrArg (·.interfaces.keys) (stopped.2.2 1)).trans ?_,
    (congrArg (·.functions.keys) (stopped.2.2 0)).trans ?_⟩ <;>
  decide +kernel

end ApiDocs
