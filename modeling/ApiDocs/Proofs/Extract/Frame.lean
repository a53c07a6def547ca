import ApiDocs.Proofs.Extract.Ways

/-!
# What each pass leaves alone

The first pass creates records, and the second one fills them in.  Neither does the work of the
other: a visit, whether it succeeds or fails, creates no record and changes nothing that the first
pass wrote, and preparing a file adds neither functions nor constants.  Both statements are **frame
statements**, about everything that a pass does *not* do, in all modules of the tree at once.

## Main definitions

* `ClassRecord.skeleton`, `InterfaceRecord.skeleton`, `AliasRecord.skeleton` — the parts of a record
  that the first pass writes.
* `DocModule.FilledIn` — a module after any visits.
* `Frame`, `ModuleTree.Kept` — what a pass keeps of a module, and of all modules of a tree.

## Main statements

* `Contribution.apply_filledIn` — what a visit learns from one statement is only filled in.
* `visitEntry_kept`, `prepareEntry_kept` — one entry keeps the frame of its pass.
* `visits_fill_in` — any calls of one pass keep its frame.

## Design notes

**A new module starts blank.**  What is kept of a module that a pass creates is what is kept of a
module without declarations.  So the two halves of `ModuleTree.Kept` speak about the same relation,
and that a visit files no records in new modules needs no argument of its own.
-/

namespace ApiDocs

open MonadAttach (CanReturn)

/-! ## Records -/

/-- What the first pass writes of a class. -/
def ClassRecord.skeleton (record : ClassRecord) : ClassRecord where
  name := record.name
  location := record.location
  doc := record.doc
  exported := record.exported
  abstract := record.abstract

/-- What the first pass writes of an interface. -/
def InterfaceRecord.skeleton (record : InterfaceRecord) : InterfaceRecord where
  name := record.name
  locations := record.locations
  docs := record.docs
  exported := record.exported

/-- What the first pass writes of a type alias. -/
def AliasRecord.skeleton (record : AliasRecord) : AliasRecord where
  name := record.name
  location := record.location
  doc := record.doc
  exported := record.exported

/-- A function at a later time: signatures are added at the end, and the rest stays. -/
structure FunctionRecord.Continues (earlier later : FunctionRecord) : Prop where
  name : later.name = earlier.name
  location : later.location = earlier.location
  doc : later.doc = earlier.doc
  exported : later.exported = earlier.exported
  signatures : earlier.signatures <+: later.signatures

theorem FunctionRecord.Continues.refl (record : FunctionRecord) : record.Continues record :=
  ⟨rfl, rfl, rfl, rfl, List.prefix_refl _⟩

theorem FunctionRecord.Continues.trans {earlier later last : FunctionRecord}
    (first : earlier.Continues later) (second : later.Continues last) :
    earlier.Continues last where
  name := second.name.trans first.name
  location := second.location.trans first.location
  doc := second.doc.trans first.doc
  exported := second.exported.trans first.exported
  signatures := first.signatures.trans second.signatures

/-! ## Tables -/

/-- A table at a later time with the same keys, in the same order, and with one part of every value
unchanged. -/
structure Table.SameIn {α β : Type} (part : α → β) (earlier later : Table String α) : Prop where
  keys : later.keys = earlier.keys
  value : ∀ key, (later.find? key).map part = (earlier.find? key).map part

namespace Table.SameIn

variable {α β : Type} {part : α → β} {earlier later last : Table String α}

theorem refl (part : α → β) (table : Table String α) : SameIn part table table :=
  ⟨rfl, fun _ => rfl⟩

theorem trans (first : SameIn part earlier later) (second : SameIn part later last) :
    SameIn part earlier last :=
  ⟨second.keys.trans first.keys, fun key => (second.value key).trans (first.value key)⟩

/-- Changing another part of one value. -/
theorem update (table : Table String α) (name : String) {change : α → α}
    (same : ∀ value, part (change value) = part value) :
    SameIn part table (table.update name change) where
  keys := table.keys_update name change
  value key := by
    rw [Table.find?_update]
    by_cases here : key = name
    · rw [if_pos here, here, Option.map_map]
      exact congrArg (Option.map · _) (funext same)
    · rw [if_neg here]

end Table.SameIn

/-- A table of functions at a later time: new keys are added at the end, and every function
continues. -/
structure Table.Extended (earlier later : Table String FunctionRecord) : Prop where
  keys : earlier.keys <+: later.keys
  value : ∀ {key record}, earlier.find? key = some record →
    ∃ continued, later.find? key = some continued ∧ record.Continues continued

namespace Table.Extended

variable {earlier later last : Table String FunctionRecord}

theorem refl (table : Table String FunctionRecord) : table.Extended table :=
  ⟨List.prefix_refl _, fun found => ⟨_, found, .refl _⟩⟩

theorem trans (first : earlier.Extended later) (second : later.Extended last) :
    earlier.Extended last where
  keys := first.keys.trans second.keys
  value found := by
    obtain ⟨middle, foundMiddle, continuesMiddle⟩ := first.value found
    obtain ⟨final, foundFinal, continuesFinal⟩ := second.value foundMiddle
    exact ⟨final, foundFinal, continuesMiddle.trans continuesFinal⟩

/-- One more signature, of an old function or of a new one. -/
theorem upsert (table : Table String FunctionRecord) (name : String) (initial : FunctionRecord)
    {change : FunctionRecord → FunctionRecord}
    (continues : ∀ record : FunctionRecord, record.Continues (change record)) :
    table.Extended (table.upsert name initial change) where
  keys := by
    rw [Table.keys_upsert]
    split
    · exact List.prefix_refl _
    · exact List.prefix_append _ _
  value {key record} found := by
    rw [Table.find?_upsert]
    by_cases here : key = name
    · subst here
      rw [if_pos rfl, found]
      exact ⟨_, rfl, continues record⟩
    · rw [if_neg here]
      exact ⟨record, found, .refl record⟩

end Table.Extended

/-! ## Modules -/

/-- A module after any visits.  The header stays and children are added at the end.  The tables of
classes, interfaces and type aliases keep their keys and what the first pass wrote of every record,
and the table of enums stays as it is.  Signatures and constants are added at the end. -/
structure DocModule.FilledIn (earlier later : DocModule) : Prop where
  header : later.header = earlier.header
  children : earlier.children <+: later.children
  classes : Table.SameIn ClassRecord.skeleton earlier.classes later.classes
  interfaces : Table.SameIn InterfaceRecord.skeleton earlier.interfaces later.interfaces
  enums : later.enums = earlier.enums
  aliases : Table.SameIn AliasRecord.skeleton earlier.aliases later.aliases
  functions : earlier.functions.Extended later.functions
  constants : earlier.constants <+: later.constants

theorem DocModule.FilledIn.trans {earlier later last : DocModule}
    (first : earlier.FilledIn later) (second : later.FilledIn last) : earlier.FilledIn last where
  header := second.header.trans first.header
  children := first.children.trans second.children
  classes := first.classes.trans second.classes
  interfaces := first.interfaces.trans second.interfaces
  enums := second.enums.trans first.enums
  aliases := first.aliases.trans second.aliases
  functions := first.functions.trans second.functions
  constants := first.constants.trans second.constants

/-- Modules with the same declarations, the later one with more children. -/
theorem DocModule.FilledIn.of_content {earlier later : DocModule}
    (continues : earlier.Continues later) (same : later.content = earlier.content) :
    earlier.FilledIn later := by
  -- Every table is read off the content, so equal contents have equal tables.
  have classes : later.classes = earlier.classes := congrArg (·.classes) same
  have interfaces : later.interfaces = earlier.interfaces := congrArg (·.interfaces) same
  have enums : later.enums = earlier.enums := congrArg (·.enums) same
  have aliases : later.aliases = earlier.aliases := congrArg (·.aliases) same
  have functions : later.functions = earlier.functions := congrArg (·.functions) same
  have constants : later.constants = earlier.constants := congrArg (·.constants) same
  have header : later.header = earlier.header := by
    unfold DocModule.header
    rw [continues.name, continues.path, continues.repository, continues.isNamespace,
      continues.parent]
  exact ⟨header, continues.children, classes ▸ .refl _ _, interfaces ▸ .refl _ _, enums,
    aliases ▸ .refl _ _, functions ▸ .refl _, constants ▸ List.prefix_refl _⟩

theorem DocModule.FilledIn.refl (module : DocModule) : module.FilledIn module :=
  .of_content (.refl module) rfl

/-- What a visit learns from one statement is filled into what is there. -/
theorem Contribution.apply_filledIn (contribution : Contribution) (module : DocModule) :
    module.FilledIn (contribution.apply module) := by
  have unchanged := DocModule.FilledIn.refl module
  cases contribution with
  | classDecl name typeParameters base implemented body =>
      have filled : Table.SameIn ClassRecord.skeleton module.classes
          (module.classes.update name fun record =>
            { record with typeParameters, base, implemented, body }) := .update _ _ fun _ => rfl
      exact { unchanged with classes := filled }
  | interfaceDecl name typeParameters members bases =>
      have filled : Table.SameIn InterfaceRecord.skeleton module.interfaces
          (module.interfaces.update name (extendInterface typeParameters members bases)) :=
        .update _ _ fun _ => rfl
      exact { unchanged with interfaces := filled }
  | aliasDecl name typeParameters value =>
      have filled : Table.SameIn AliasRecord.skeleton module.aliases
          (module.aliases.update name fun record => { record with typeParameters, value }) :=
        .update _ _ fun _ => rfl
      exact { unchanged with aliases := filled }
  | functionDecl name exported signature =>
      refine { unchanged with functions := .upsert module.functions name _ fun record => ?_ }
      exact ⟨rfl, rfl, rfl, rfl, List.prefix_append _ _⟩
  | constants records =>
      exact { unchanged with constants := List.prefix_append _ _ }

/-- No statement that is prepared adds a function or a constant. -/
theorem Skeleton.file_values (skeleton : Skeleton) (module : DocModule) :
    (skeleton.file module).functions = module.functions ∧
      (skeleton.file module).constants = module.constants := by
  cases skeleton <;> exact ⟨rfl, rfl⟩

/-! ## Trees -/

/-- What a pass keeps of a module.  Entering children keeps it too, as it changes no
declarations. -/
structure Frame where
  keeps : DocModule → DocModule → Prop
  trans : ∀ {earlier later last : DocModule}, keeps earlier later → keeps later last →
    keeps earlier last
  entering : ∀ {earlier later : DocModule}, earlier.Continues later →
    later.content = earlier.content → keeps earlier later

/-- The second pass only fills in. -/
def Frame.visiting : Frame where
  keeps := DocModule.FilledIn
  trans := .trans
  entering := .of_content

/-- The first pass adds neither functions nor constants. -/
def Frame.preparing : Frame where
  keeps earlier later :=
    later.functions = earlier.functions ∧ later.constants = earlier.constants
  trans first second := ⟨second.1.trans first.1, second.2.trans first.2⟩
  entering _ same := ⟨congrArg (·.functions) same, congrArg (·.constants) same⟩

namespace ModuleTree

/-- A later tree in which a frame is kept: of every module that was there, and, starting from a
module without declarations, of every module that was created. -/
structure Kept (frame : Frame) (earlier later : ModuleTree) : Prop where
  old : ∀ {id module}, earlier.get? id = some module →
    ∃ continued, later.get? id = some continued ∧ frame.keeps module continued
  new : ∀ {id module}, earlier.get? id = none → later.get? id = some module →
    ∃ blank : DocModule, blank.content = { name := "" } ∧ frame.keeps blank module

namespace Kept

variable {frame : Frame} {earlier later last : ModuleTree}

theorem trans (first : earlier.Kept frame later) (second : later.Kept frame last) :
    earlier.Kept frame last where
  old found := by
    obtain ⟨middle, foundMiddle, keptMiddle⟩ := first.old found
    obtain ⟨final, foundFinal, keptFinal⟩ := second.old foundMiddle
    exact ⟨final, foundFinal, frame.trans keptMiddle keptFinal⟩
  new {id module} absent found := by
    cases middle : later.get? id with
    | none => exact second.new middle found
    | some between =>
        -- The module was created on the way, and what came later kept it.
        obtain ⟨blank, isBlank, keptBlank⟩ := first.new absent middle
        obtain ⟨final, foundFinal, keptFinal⟩ := second.old middle
        obtain rfl := Option.some.inj (found.symm.trans foundFinal)
        exact ⟨blank, isBlank, frame.trans keptBlank keptFinal⟩

/-- What keeps a frame keeps every weaker one. -/
theorem mono {weaker : Frame}
    (weakens : ∀ {earlier later : DocModule}, frame.keeps earlier later →
      weaker.keeps earlier later)
    (kept : earlier.Kept frame later) : earlier.Kept weaker later where
  old found := by
    obtain ⟨continued, foundLater, keeps⟩ := kept.old found
    exact ⟨continued, foundLater, weakens keeps⟩
  new absent found := by
    obtain ⟨blank, isBlank, keeps⟩ := kept.new absent found
    exact ⟨blank, isBlank, weakens keeps⟩

/-- A tree that grew without a change of declarations. -/
theorem of_content (growth : earlier.Extends later)
    (same : ∀ id, later.contentOf id = earlier.contentOf id) : earlier.Kept frame later where
  old {id module} found := by
    obtain ⟨continued, foundLater, continues⟩ := growth.module found
    have content := same id
    rw [contentOf, contentOf, found, foundLater] at content
    exact ⟨continued, foundLater, frame.entering continues content⟩
  new {id module} absent found := by
    have content := same id
    rw [contentOf, contentOf, found, absent] at content
    exact ⟨module, content, frame.entering (.refl module) rfl⟩

theorem refl (frame : Frame) (tree : ModuleTree) : tree.Kept frame tree :=
  .of_content (.refl tree) fun _ => rfl

/-- A change of one module that keeps the frame. -/
theorem modify (tree : ModuleTree) (id : ModuleId) {change : DocModule → DocModule}
    (keeps : ∀ module, frame.keeps module (change module)) :
    tree.Kept frame (tree.modify id change) where
  old {other module} found := by
    rw [get?_modify, found]
    split
    · exact ⟨change module, rfl, keeps module⟩
    · exact ⟨module, rfl, frame.entering (.refl module) rfl⟩
  new {other module} absent found := by
    rw [get?_modify, absent] at found
    split at found <;> cases found

end Kept

end ModuleTree

/-! ## Passes -/

namespace Extraction

variable {m : Type → Type} [Monad m] [LawfulMonad m] [MonadAttach m] [LawfulMonadAttach m]
variable {extraction : Extraction m} {file : FileId} {source : SourceFile} {base : ModuleId}
variable {tree : ModuleTree} {pass : Pass}

/-- One entry of the first pass: whatever skeleton it files, the frame is kept. -/
theorem prepareEntry_kept {above : DocModule} {entry : Entry} (wellFormed : tree.WellFormed)
    (there : tree.get? base = some above) {result : ModuleTree}
    (returned : CanReturn (extraction.prepareEntry file source base tree entry) result) :
    tree.Kept .preparing result := by
  obtain ⟨id, grown, -, arrived, ⟨-, rfl⟩ | ⟨index, module, skeleton, -, -, -, rfl⟩⟩ :=
    prepareEntry_cases wellFormed there returned
  · exact .of_content arrived.growth arrived.content
  · have entered : tree.Kept .preparing grown := .of_content arrived.growth arrived.content
    cases skeleton with
    | none => exact entered
    | some skeleton => exact entered.trans (.modify grown id skeleton.file_values)

/-- Filling in what the second pass can learn from a statement keeps a frame. -/
def FillsIn (extraction : Extraction m) (frame : Frame) : Prop :=
  ∀ {scope index contribution},
    CanReturn (extraction.resolver.contribution? scope index) (some contribution) →
    ∀ module, frame.keeps module (contribution.apply module)

omit [LawfulMonad m] [LawfulMonadAttach m] in
theorem fillsIn_visiting (extraction : Extraction m) : extraction.FillsIn .visiting :=
  fun {_ _ contribution} _ => contribution.apply_filledIn

/-- One entry of the second pass: it fills in what it learns, or stops and has only entered the
namespaces of the entry. -/
theorem visitEntry_kept {frame : Frame} (fillsIn : extraction.FillsIn frame) {above : DocModule}
    {entry : Entry} (wellFormed : tree.WellFormed) (there : tree.get? base = some above)
    (returned : CanReturn (extraction.visitEntry file source base tree entry) pass) :
    tree.Kept frame pass.tree := by
  obtain ⟨id, grown, -, arrived, ⟨-, rfl⟩ | ⟨index, module, -, -,
    ⟨error, -, rfl⟩ | ⟨-, contribution, learnt, rfl⟩⟩⟩ := visitEntry_cases wellFormed there returned
  · exact .of_content arrived.growth arrived.content
  · exact .of_content arrived.growth arrived.content
  · have entered : tree.Kept frame grown := .of_content arrived.growth arrived.content
    cases contribution with
    | none => exact entered
    | some contribution => exact entered.trans (.modify grown id (fillsIn learnt))

theorem prepareEntries_kept {entries : List Entry} :
    ∀ {tree : ModuleTree} {above : DocModule}, tree.WellFormed → tree.get? base = some above →
      ∀ {result : ModuleTree},
        CanReturn (extraction.prepareEntries file source base tree entries) result →
        tree.Kept .preparing result := by
  induction entries with
  | nil =>
      intro tree above wellFormed there result returned
      obtain rfl := LawfulMonadAttach.eq_of_canReturn_pure returned
      exact .refl _ tree
  | cons entry entries ih =>
      intro tree above wellFormed there result returned
      obtain ⟨middle, first, rest⟩ := LawfulMonadAttach.canReturn_bind_imp' returned
      have advances := prepareEntry_advances wellFormed there first
      obtain ⟨continued, foundContinued, -⟩ := advances.growth.module there
      exact (prepareEntry_kept wellFormed there first).trans
        (ih advances.wellFormed foundContinued rest)

theorem visitEntries_kept {frame : Frame} (fillsIn : extraction.FillsIn frame)
    {entries : List Entry} :
    ∀ {tree : ModuleTree} {above : DocModule}, tree.WellFormed → tree.get? base = some above →
      ∀ {pass : Pass},
        CanReturn (extraction.visitEntries file source base tree entries) pass →
        tree.Kept frame pass.tree := by
  induction entries with
  | nil =>
      intro tree above wellFormed there pass returned
      obtain rfl := LawfulMonadAttach.eq_of_canReturn_pure returned
      exact .refl _ tree
  | cons entry entries ih =>
      intro tree above wellFormed there pass returned
      obtain ⟨middle, first, rest⟩ := LawfulMonadAttach.canReturn_bind_imp' returned
      have advances := visitEntry_advances wellFormed there first
      have kept := visitEntry_kept fillsIn wellFormed there first
      cases failed : middle.error with
      | some error =>
          simp only [failed] at rest
          obtain rfl := LawfulMonadAttach.eq_of_canReturn_pure rest
          exact kept
      | none =>
          simp only [failed] at rest
          obtain ⟨continued, foundContinued, -⟩ := advances.growth.module there
          exact kept.trans (ih advances.wellFormed foundContinued rest)

/-! ## Calls -/

/-- A visit keeps every frame that its contributions keep, whether it fails or not. -/
theorem visitFile_kept {frame : Frame} (fillsIn : extraction.FillsIn frame)
    (consistent : extraction.Consistent tree)
    (returned : CanReturn (extraction.visitFile tree file) pass) : tree.Kept frame pass.tree := by
  unfold visitFile at returned
  cases known : extraction.program.file? file with
  | none =>
      simp only [known] at returned
      obtain rfl := LawfulMonadAttach.eq_of_canReturn_pure returned
      exact .refl _ tree
  | some source =>
      have entered := enterFile_entered consistent known
      obtain ⟨above, there⟩ := entered.get?
      simp only [known] at returned
      exact (ModuleTree.Kept.of_content entered.growth entered.content).trans
        (visitEntries_kept fillsIn entered.consistent.wellFormed there returned)

/-- The frame of the pass that a call makes. -/
def Call.frame : Call → Frame
  | .prepare _ => .preparing
  | .visit _ => .visiting

/-- A call keeps the frame of its pass, whether it fails or not. -/
theorem make_kept {call : Call} (consistent : extraction.Consistent tree)
    (returned : CanReturn (extraction.make tree call) pass) :
    tree.Kept call.frame pass.tree := by
  cases call with
  | prepare file =>
      unfold make prepareFile at returned
      cases known : extraction.program.file? file with
      | none =>
          simp only [known] at returned
          obtain rfl := LawfulMonadAttach.eq_of_canReturn_pure returned
          exact .refl _ tree
      | some source =>
          have entered := enterFile_entered consistent known
          obtain ⟨above, there⟩ := entered.get?
          simp only [known] at returned
          obtain ⟨result, prepared, done⟩ := LawfulMonadAttach.canReturn_bind_imp' returned
          obtain rfl := LawfulMonadAttach.eq_of_canReturn_pure done
          exact (ModuleTree.Kept.of_content entered.growth entered.content).trans
            (prepareEntries_kept entered.consistent.wellFormed there prepared)
  | visit file => exact visitFile_kept extraction.fillsIn_visiting consistent returned

/-- Calls with one frame keep it together. -/
theorem after_kept {frame : Frame} {calls : List Call} (each : ∀ call ∈ calls, call.frame = frame)
    (consistent : extraction.Consistent tree) {result : ModuleTree}
    (returned : CanReturn (extraction.after tree calls) result) : tree.Kept frame result := by
  let reaches (later : ModuleTree) : Prop := extraction.Consistent later ∧ tree.Kept frame later
  have reached : reaches result := by
    refine after_keeps ?_ ⟨consistent, .refl frame tree⟩ returned
    intro call later pass member before made
    have kept := make_kept before.1 made
    rw [each call member] at kept
    exact ⟨make_consistent before.1 made, before.2.trans kept⟩
  exact reached.2

/-- The invariant of an extraction holds after any calls. -/
theorem after_consistent {calls : List Call} {result : ModuleTree}
    (returned : CanReturn (extraction.after extraction.start calls) result) :
    extraction.Consistent result :=
  after_keeps (fun _ before made => make_consistent before made) extraction.start_consistent
    returned

end Extraction

/-- A module without records: the first pass has filed nothing in it. -/
structure DocModule.HasNoRecords (module : DocModule) : Prop where
  classes : module.classes.keys = []
  interfaces : module.interfaces.keys = []
  enums : module.enums.keys = []
  aliases : module.aliases.keys = []

/-- Visits file no records in a module that started blank. -/
theorem DocModule.FilledIn.hasNoRecords {blank module : DocModule}
    (filledIn : blank.FilledIn module) (isBlank : blank.content = { name := "" }) :
    module.HasNoRecords where
  classes := filledIn.classes.keys.trans (congrArg (·.classes.keys) isBlank)
  interfaces := filledIn.interfaces.keys.trans (congrArg (·.interfaces.keys) isBlank)
  enums := (congrArg Table.keys filledIn.enums).trans (congrArg (·.enums.keys) isBlank)
  aliases := filledIn.aliases.keys.trans (congrArg (·.aliases.keys) isBlank)

/-- **Visits fill in what was prepared, and preparing adds no values.**  After any calls, with any
index and from any state of it, let any files be visited, known or unknown, prepared or not.  Every
module that was there is filled in, and a module that a visit created has no records.  Let the files
be prepared instead: no module gets a function or a constant, whether it was there before or not. -/
theorem visits_fill_in {σ : Type} (extraction : Extraction (StateM σ)) (state : σ)
    (calls : List Extraction.Call) (files : List FileId) :
    let reached := extraction.after extraction.start calls state
    let visited := (extraction.after reached.1 (files.map .visit) reached.2).1
    let prepared := (extraction.after reached.1 (files.map .prepare) reached.2).1
    (∀ id module, reached.1.get? id = some module →
        ∃ filled, visited.get? id = some filled ∧ module.FilledIn filled) ∧
      (∀ id module, reached.1.get? id = none → visited.get? id = some module →
        module.HasNoRecords) ∧
      (∀ id module, reached.1.get? id = some module →
        ∃ later, prepared.get? id = some later ∧ later.functions = module.functions ∧
          later.constants = module.constants) ∧
      ∀ id module, reached.1.get? id = none → prepared.get? id = some module →
        module.functions.keys = [] ∧ module.constants = [] := by
  intro reached visited prepared
  have consistent : extraction.Consistent reached.1 :=
    Extraction.after_consistent (canReturn_run (extraction.after extraction.start calls) state)
  have visits : reached.1.Kept .visiting visited := by
    refine Extraction.after_kept ?_ consistent
      (canReturn_run (extraction.after reached.1 (files.map .visit)) reached.2)
    simp [Extraction.Call.frame]
  have preparations : reached.1.Kept .preparing prepared := by
    refine Extraction.after_kept ?_ consistent
      (canReturn_run (extraction.after reached.1 (files.map .prepare)) reached.2)
    simp [Extraction.Call.frame]
  refine ⟨fun id module => visits.old, fun id module absent found => ?_,
    fun id module => preparations.old, fun id module absent found => ?_⟩
  · obtain ⟨blank, isBlank, filledIn⟩ := visits.new absent found
    exact DocModule.FilledIn.hasNoRecords filledIn isBlank
  · obtain ⟨blank, isBlank, functions, constants⟩ := preparations.new absent found
    exact ⟨(congrArg Table.keys functions).trans (congrArg (·.functions.keys) isBlank),
      constants.trans (congrArg (·.constants) isBlank)⟩

/-- A file that was prepared and one that was not, in a directory of its own. -/
def lateProgram : Program where
  files := #[shapeFile, { shapeFile with path := "/project/parts/late.ts" }]

/-- The visit of the file that was not prepared fails, and so does that of an unknown file.  The
prepared class is still there and filled in, and the module that the failed visit created has no
records. -/
theorem visits_fill_in_late :
    let extraction := Extraction.remembering lateProgram (.ofBase "/project")
    let reached := extraction.after extraction.start [.prepare ⟨0⟩] {}
    let visited := (extraction.after reached.1 [.visit ⟨1⟩, .visit ⟨7⟩, .visit ⟨0⟩] reached.2).1
    (∃ root filled, reached.1.get? 0 = some root ∧ visited.get? 0 = some filled ∧
        root.FilledIn filled ∧ filled.classes.keys = ["Shape"]) ∧
      ∃ parts, reached.1.get? 1 = none ∧ visited.get? 1 = some parts ∧ parts.HasNoRecords := by
  intro extraction reached visited
  obtain ⟨old, new, -⟩ := visits_fill_in extraction {} [.prepare ⟨0⟩] [⟨1⟩, ⟨7⟩, ⟨0⟩]
  constructor
  · have prepared : (reached.1.get? 0).map (·.classes.keys) = some ["Shape"] := by decide +kernel
    obtain ⟨root, isRoot, keys⟩ := Option.map_eq_some_iff.1 prepared
    obtain ⟨filled, isFilled, filledIn⟩ := old 0 root isRoot
    exact ⟨root, filled, isRoot, isFilled, filledIn, filledIn.classes.keys.trans keys⟩
  · have absent : (reached.1.get? 1).isNone = true := by decide +kernel
    have created : (visited.get? 1).isSome = true := by decide +kernel
    rw [Option.isNone_iff_eq_none] at absent
    obtain ⟨parts, isParts⟩ := Option.isSome_iff_exists.1 created
    exact ⟨parts, absent, isParts, new 1 parts absent isParts⟩

end ApiDocs
