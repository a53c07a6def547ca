import ApiDocs.Proofs.Extract.Overloads
import ApiDocs.Proofs.Extract.Ways
import Mathlib.Algebra.BigOperators.Group.List.Basic

/-!
# The order of files does not matter

Two extractions of the same files in different orders give different numbers to modules, create
namespaces with different links, and meet the declarations of a name in different orders.  What they
document is the same: there are **the same modules**, found by the same ways from the root, with the
same names in them, the same exports, and as many signatures and constants.  The records of these
names may have other links, but without a repository there are no links at all: then the collected
parts of interfaces, enums and functions and the constants are the same up to their order, too.

## Main definitions

* `DocModule.SameOutline`, `DocModule.SameParts` — the two degrees to which modules agree.
* `Outline` — what a declaration says without links and types.
* `ModuleTree.Addressed` — modules are identified by their ways from the root.

## Main statements

* `sameOutline_ofDeclarations`, `sameParts_ofDeclarations` — modules made of the same outlines, or
  of the same declarations, in any order.
* `file_order_irrelevant` — the documentations of the same files in two orders.

## Design notes

**What the order decides.**  The first type parameters of an interface stay, the first declaration
of an enum says whether it is constant, the first one of a function gives its location, comment and
export, and the last one of a class or type alias is its record.  Neither `SameOutline` nor
`SameParts` says anything about these.
-/

namespace ApiDocs

/-- Two modules have the same names, exports, and numbers of signatures and constants. -/
structure DocModule.SameOutline (first second : DocModule) : Prop where
  classes : first.classes.keys.Perm second.classes.keys
  interfaces : first.interfaces.keys.Perm second.interfaces.keys
  enums : first.enums.keys.Perm second.enums.keys
  aliases : first.aliases.keys.Perm second.aliases.keys
  functions : first.functions.keys.Perm second.functions.keys
  exportedInterfaces : ∀ name, (first.interfaces.find? name).map (·.exported) =
    (second.interfaces.find? name).map (·.exported)
  exportedEnums : ∀ name, (first.enums.find? name).map (·.exported) =
    (second.enums.find? name).map (·.exported)
  signatures : ∀ name, (first.functions.find? name).map (·.signatures.length) =
    (second.functions.find? name).map (·.signatures.length)
  constants : first.constants.length = second.constants.length

/-- Two modules have the same members, bases, locations, signatures and constants, each in some
order. -/
structure DocModule.SameParts (first second : DocModule) : Prop where
  interfaces : ∀ name, Option.Rel (fun record other => record.members.Perm other.members ∧
    record.bases.Perm other.bases ∧ record.locations.Perm other.locations)
    (first.interfaces.find? name) (second.interfaces.find? name)
  enums : ∀ name, Option.Rel (fun record other => record.members.Perm other.members)
    (first.enums.find? name) (second.enums.find? name)
  functions : ∀ name, Option.Rel (fun record other => record.signatures.Perm other.signatures)
    (first.functions.find? name) (second.functions.find? name)
  constants : first.constants.Perm second.constants

/-- Modules agree if their declarations do. -/
theorem DocModule.SameOutline.of_content {first second : DocModule}
    (same : first.content.SameOutline second.content) : first.SameOutline second :=
  ⟨same.classes, same.interfaces, same.enums, same.aliases, same.functions,
    same.exportedInterfaces, same.exportedEnums, same.signatures, same.constants⟩

theorem DocModule.SameParts.of_content {first second : DocModule}
    (same : first.content.SameParts second.content) : first.SameParts second :=
  ⟨same.interfaces, same.enums, same.functions, same.constants⟩

/-! ## Outlines -/

/-- What a declaration says without links and types: its kind and name, whether it is exported, and
the number of constants. -/
structure Outline where
  kind : DeclarationKind
  name : String := ""
  exported : Bool := false
  count : Nat := 0

/-- The name and the export of a declaration of a kind. -/
def Outline.entry? (kind : DeclarationKind) (outline : Outline) : Option (String × Bool) :=
  if outline.kind = kind then some (outline.name, outline.exported) else none

/-- The number of constants of a declaration of constants. -/
def Outline.count? (outline : Outline) : Option Nat :=
  if outline.kind = .constant then some outline.count else none

/-- The outline of a declaration. -/
def Declaration.outline : Declaration → Outline
  | classDecl record => { kind := .classType, name := record.name, exported := record.exported }
  | interfaceDecl own => { kind := .interface, name := own.name, exported := own.exported }
  | enumDecl own => { kind := .enumType, name := own.name, exported := own.exported }
  | aliasDecl record => { kind := .typeAlias, name := record.name, exported := record.exported }
  | functionDecl own => { kind := .function, name := own.name, exported := own.exported }
  | constants records => { kind := .constant, count := records.length }

/-- A list of declarators declares a constant for each one with an initializer. -/
theorem Resolver.length_constants (resolver : Resolver Id) (scope : Scope) (doc : Option Doc)
    (declarators : NodeList) :
    (declarators.filterMap fun index => (resolver.constant? scope doc index).run).length =
      declarators.countP fun index => (scope.source.initialized? index).isSome := by
  rw [List.length_filterMap_eq_countP]
  simp only [constant?_eq, Option.isSome_map]

/-- The outline of a statement depends on its file only. -/
theorem Resolver.outline_declaration? (resolver : Resolver Id) {scope other : Scope}
    (sameSource : scope.source = other.source) (index : NodeIndex) :
    (resolver.declaration? scope index).map Declaration.outline =
      (resolver.declaration? other index).map Declaration.outline := by
  rw [declaration?, declaration?, sameSource]
  cases found : other.source.arena.get? index with
  | none => rfl
  | some node =>
      dsimp only
      split
      -- Functions and constants depend on what is found below the node; the rest is read off it.
      case h_5 data kindIs payloadIs =>
        have payload : other.source.arena.payload? index = some (.functionDecl data) := by
          rw [Arena.payload?, found, Option.map_some, payloadIs]
        obtain ⟨signature, signed, -⟩ := resolver.signature?_eq_some scope index
          (resolver.type scope) (sameSource ▸ payload)
        obtain ⟨otherSignature, otherSigned, -⟩ := resolver.signature?_eq_some other index
          (resolver.type other) payload
        rw [signed, otherSigned]
        rfl
      case h_6 data kindIs payloadIs =>
        split
        · simp only [Option.map_some, Declaration.outline, length_constants, sameSource]
        · rfl
      all_goals rfl

/-! ## Modules with the same outlines -/

theorem perm_eraseDups {first second : List String} (order : first.Perm second) :
    first.eraseDups.Perm second.eraseDups := by
  rw [List.perm_ext_iff_of_nodup (nodup_eraseDups _) (nodup_eraseDups _)]
  intro element
  rw [List.mem_eraseDups, List.mem_eraseDups, order.mem_iff]

section

variable {first second : List Declaration}

/-- What the outlines of declarations tell about them does not depend on the order of outlines. -/
theorem perm_select (order : (first.map Declaration.outline).Perm (second.map Declaration.outline))
    {δ β : Type} (select : Declaration → Option δ) (tell : δ → β) (read : Outline → Option β)
    (each : ∀ declaration, (select declaration).map tell = read declaration.outline) :
    ((first.filterMap select).map tell).Perm ((second.filterMap select).map tell) := by
  have told : ∀ declarations : List Declaration, (declarations.filterMap select).map tell =
      (declarations.map Declaration.outline).filterMap read := by
    intro declarations
    rw [List.map_filterMap, List.filterMap_map]
    exact List.filterMap_congr fun declaration _ => each declaration
  rw [told, told]
  exact order.filterMap _

/-- Entries in another order: the names. -/
theorem perm_names {δ : Type} {own others : List δ} {name : δ → String} {flag : δ → Bool}
    (order : (own.map fun entry => (name entry, flag entry)).Perm
      (others.map fun entry => (name entry, flag entry))) :
    (own.map name).eraseDups.Perm (others.map name).eraseDups := by
  have names := order.map (·.1)
  rw [List.map_map, List.map_map] at names
  exact perm_eraseDups names

/-- Entries in another order: the flags of a name. -/
theorem perm_flags {δ : Type} {own others : List δ} {name : δ → String} {flag : δ → Bool}
    (order : (own.map fun entry => (name entry, flag entry)).Perm
      (others.map fun entry => (name entry, flag entry))) (key : String) :
    ((own.filter (name · = key)).map flag).Perm ((others.filter (name · = key)).map flag) := by
  have flags := (order.filter (·.1 = key)).map (·.2)
  rw [List.filter_map, List.filter_map, List.map_map, List.map_map] at flags
  exact flags

/-- A merged record is exported if one of its declarations is, and there is one if there are any. -/
theorem map_exported {δ ρ : Type} {own others : List δ} {flag : δ → Bool} {exported : ρ → Bool}
    {record otherRecord : ρ} (order : (own.map flag).Perm (others.map flag))
    (merged : exported record = own.any flag)
    (otherMerged : exported otherRecord = others.any flag) :
    (if own = [] then none else some record).map exported =
      (if others = [] then none else some otherRecord).map exported := by
  have empty : own = [] ↔ others = [] := by
    rw [← List.length_eq_zero_iff, ← List.length_eq_zero_iff, ← own.length_map flag,
      order.length_eq, List.length_map]
  have any : own.any flag = others.any flag := by
    have flags := order.any_eq (f := id)
    rwa [List.any_map, List.any_map] at flags
  by_cases none : own = []
  · rw [if_pos none, if_pos (empty.1 none)]
  · rw [if_neg none, if_neg (mt empty.2 none), Option.map_some, Option.map_some, merged,
      otherMerged, any]

theorem map_head?_length {δ : Type} {own others : List δ} (same : own.length = others.length) :
    (own.head?.map fun _ => own.length) = others.head?.map fun _ => others.length := by
  rw [same]
  cases own with
  | nil => rw [List.eq_nil_of_length_eq_zero same.symm]
  | cons first rest =>
      obtain ⟨other, others, rfl⟩ := List.exists_cons_of_length_eq_add_one same.symm
      rfl

/-- Records that are merged from the same declarations are there together. -/
theorem rel_merged {δ ρ : Type} {own others : List δ} {record other : ρ}
    {related : ρ → ρ → Prop} (order : own.Perm others) (both : related record other) :
    Option.Rel related (if own = [] then none else some record)
      (if others = [] then none else some other) := by
  by_cases empty : own = []
  · subst empty
    rw [if_pos rfl, if_pos order.nil_eq.symm]
    exact .none
  · have full : others ≠ [] := fun none => empty (none ▸ order).eq_nil
    rw [if_neg empty, if_neg full]
    exact .some both

theorem rel_head? {δ ρ : Type} {own others : List δ} {record other : δ → ρ}
    {related : ρ → ρ → Prop} (order : own.Perm others)
    (both : ∀ {first second}, related (record first) (other second)) :
    Option.Rel related (own.head?.map record) (others.head?.map other) := by
  cases own with
  | nil =>
      rw [← order.nil_eq]
      exact .none
  | cons first rest =>
      obtain ⟨second, others, rfl⟩ := List.exists_cons_of_length_eq_add_one order.symm.length_eq
      exact .some both

namespace DocModule

/-- Modules made of declarations with the same outlines have the same outline. -/
theorem sameOutline_ofDeclarations
    (order : (first.map Declaration.outline).Perm (second.map Declaration.outline)) :
    (ofDeclarations first).SameOutline (ofDeclarations second) := by
  have classes := perm_select order Declaration.class? (fun own => (own.name, own.exported))
    (Outline.entry? .classType) fun declaration => by cases declaration <;> rfl
  have interfaces := perm_select order Declaration.interface? (fun own => (own.name, own.exported))
    (Outline.entry? .interface) fun declaration => by cases declaration <;> rfl
  have enums := perm_select order Declaration.enum? (fun own => (own.name, own.exported))
    (Outline.entry? .enumType) fun declaration => by cases declaration <;> rfl
  have aliases := perm_select order Declaration.alias? (fun own => (own.name, own.exported))
    (Outline.entry? .typeAlias) fun declaration => by cases declaration <;> rfl
  have functions := perm_select order Declaration.function? (fun own => (own.name, own.exported))
    (Outline.entry? .function) fun declaration => by cases declaration <;> rfl
  have constants := perm_select order Declaration.constants? List.length Outline.count?
    fun declaration => by cases declaration <;> rfl
  refine ⟨?_, ?_, ?_, ?_, ?_, ?_, ?_, ?_, ?_⟩
  · rw [keys_classes_ofDeclarations, keys_classes_ofDeclarations]
    exact perm_names classes
  · rw [keys_interfaces_ofDeclarations, keys_interfaces_ofDeclarations]
    exact perm_names interfaces
  · rw [keys_enums_ofDeclarations, keys_enums_ofDeclarations]
    exact perm_names enums
  · rw [keys_aliases_ofDeclarations, keys_aliases_ofDeclarations]
    exact perm_names aliases
  · rw [functions_ofDeclarations, functions_ofDeclarations, Table.keys_gather, Table.keys_gather]
    exact perm_names functions
  · intro name
    rw [find?_interfaces_ofDeclarations, find?_interfaces_ofDeclarations]
    exact map_exported (perm_flags interfaces name) rfl rfl
  · intro name
    rw [find?_enums_ofDeclarations, find?_enums_ofDeclarations]
    exact map_exported (perm_flags enums name) rfl rfl
  · intro name
    rw [find?_functions_ofDeclarations, find?_functions_ofDeclarations]
    have lengths := (perm_flags functions name).length_eq
    rw [List.length_map, List.length_map] at lengths
    simp only [Option.map_map, Function.comp_def, List.length_map]
    exact map_head?_length lengths
  · rw [constants_ofDeclarations, constants_ofDeclarations, List.length_flatten,
      List.length_flatten, constants.sum_eq]

/-- Modules made of the same declarations have the same parts. -/
theorem sameParts_ofDeclarations (order : first.Perm second) :
    (ofDeclarations first).SameParts (ofDeclarations second) := by
  refine ⟨?_, ?_, ?_, ?_⟩
  · intro name
    have own := (order.filterMap Declaration.interface?).filter (·.name = name)
    rw [find?_interfaces_ofDeclarations, find?_interfaces_ofDeclarations]
    exact rel_merged own ⟨own.flatMap_right _, own.flatMap_right _, own.map _⟩
  · intro name
    have own := (order.filterMap Declaration.enum?).filter (·.name = name)
    rw [find?_enums_ofDeclarations, find?_enums_ofDeclarations]
    exact rel_merged own (own.flatMap_right _)
  · intro name
    have own := (order.filterMap Declaration.function?).filter (·.name = name)
    rw [find?_functions_ofDeclarations, find?_functions_ofDeclarations]
    exact rel_head? own (own.map _)
  · rw [constants_ofDeclarations, constants_ofDeclarations, List.flatten_eq_flatMap,
      List.flatten_eq_flatMap]
    exact (order.filterMap _).flatMap_right _

end DocModule

end

/-! ## The statements of a module -/

/-- The statements filed in a module are those with its way. -/
theorem ModuleTree.Shaped.filedIn_eq {tree : ModuleTree} (shaped : tree.Shaped) {id : ModuleId}
    {steps : List Step} (leads : tree.follow? rootId steps = some id) (filings : List Filing) :
    tree.filedIn id filings = filings.filter (·.steps = steps) := by
  refine List.filter_congr fun filing _ => decide_eq_decide.2 ⟨fun here => ?_, fun same => ?_⟩
  · exact shaped.follow_injective here leads
  · rw [same, leads]

theorem Program.Opens.of_perm {program : Program} {settings : Settings} {files others : List FileId}
    (order : files.Perm others) {steps : List Step} (opens : program.Opens settings files steps) :
    program.Opens settings others steps := by
  rcases opens with none | ⟨file, member, rest⟩
  · exact .inl none
  · exact .inr ⟨file, order.mem_iff.1 member, rest⟩

/-- Modules are identified by their ways from the root, along the children of modules. -/
structure ModuleTree.Addressed (tree : ModuleTree) : Prop where
  way : ∀ {id module}, tree.get? id = some module → ∃ steps, tree.Leads rootId steps id
  module : ∀ {steps id}, tree.Leads rootId steps id → ∃ module, tree.get? id = some module
  unique : ∀ {steps others id other}, tree.Leads rootId steps id → tree.Leads rootId others other →
    (steps = others ↔ id = other)

theorem ModuleTree.Shaped.addressed {tree : ModuleTree} (shaped : tree.Shaped) :
    tree.Addressed := by
  refine ⟨?_, ?_, ?_⟩
  · intro id module found
    obtain ⟨steps, leads⟩ := shaped.exists_way (header?_of_get? found)
    exact ⟨steps, shaped.leads_iff.2 leads⟩
  · intro steps id leads
    exact shaped.get?_of_follow? (shaped.leads_iff.1 leads)
  · intro steps others id other leads leadsOther
    rw [shaped.leads_iff] at leads leadsOther
    constructor
    · rintro rfl
      exact Option.some.inj (leads.symm.trans leadsOther)
    · rintro rfl
      exact shaped.follow_injective leads leadsOther

/-! ## Two orders -/

section

variable {program : Program} {settings : Settings} {files others : List FileId}
variable {first second : Documentation} {steps : List Step} {id other : ModuleId}
variable {module otherModule : DocModule}

/-- The declarations filed in a module are made by the statements with its way. -/
theorem declarationsIn_eq (shaped : first.tree.Shaped)
    (leads : first.tree.follow? ModuleTree.rootId steps = some id) :
    first.declarationsIn program settings files id module =
      ((program.filings settings files).filter (·.steps = steps)).filterMap fun filing =>
        (Extraction.direct program settings).resolver.declaration? (filing.scope module)
          filing.statement := by
  rw [Documentation.declarationsIn, shaped.filedIn_eq leads]

theorem perm_statements (order : files.Perm others) :
    ((program.filings settings files).filter (·.steps = steps)).Perm
      ((program.filings settings others).filter (·.steps = steps)) :=
  (order.flatMap_right _).filter _

/-- Modules at one way are made of the same outlines. -/
theorem perm_outlines (order : files.Perm others) (shaped : first.tree.Shaped)
    (otherShaped : second.tree.Shaped)
    (leads : first.tree.follow? ModuleTree.rootId steps = some id)
    (otherLeads : second.tree.follow? ModuleTree.rootId steps = some other) :
    ((first.declarationsIn program settings files id module).map Declaration.outline).Perm
      ((second.declarationsIn program settings others other otherModule).map
        Declaration.outline) := by
  let resolver := (Extraction.direct program settings).resolver
  have sameOutline : ∀ filing : Filing,
      (resolver.declaration? (filing.scope module) filing.statement).map Declaration.outline =
        (resolver.declaration? (filing.scope otherModule) filing.statement).map
          Declaration.outline := by
    intro filing
    have sameSource : (filing.scope module).source = (filing.scope otherModule).source := rfl
    exact resolver.outline_declaration? sameSource filing.statement
  rw [declarationsIn_eq shaped leads, declarationsIn_eq otherShaped otherLeads,
    List.map_filterMap, List.map_filterMap, List.filterMap_congr fun filing _ => sameOutline filing]
  exact (perm_statements order).filterMap _

/-- Modules at one way are made of the same declarations if they have no links. -/
theorem perm_declarations (order : files.Perm others) (shaped : first.tree.Shaped)
    (otherShaped : second.tree.Shaped)
    (leads : first.tree.follow? ModuleTree.rootId steps = some id)
    (otherLeads : second.tree.follow? ModuleTree.rootId steps = some other)
    (found : first.tree.get? id = some module)
    (otherFound : second.tree.get? other = some otherModule)
    (noLink : module.repository = none) (noOtherLink : otherModule.repository = none) :
    (first.declarationsIn program settings files id module).Perm
      (second.declarationsIn program settings others other otherModule) := by
  -- Apart from the link, a scope is told by the file and the kind of the module.
  have sameScope : ∀ filing : Filing, filing.scope module = filing.scope otherModule := by
    intro filing
    rw [Filing.scope, Filing.scope, Scope.ofModule, Scope.ofModule, noLink, noOtherLink,
      shaped.isNamespace_eq found leads, otherShaped.isNamespace_eq otherFound otherLeads]
  rw [declarationsIn_eq shaped leads, declarationsIn_eq otherShaped otherLeads]
  simp only [sameScope]
  exact (perm_statements order).filterMap _

end

/-- **The order of files does not matter.**  The documentations of the same known files in two
orders have the same modules, which are identified by their ways from the root.  A module has the
same names of classes, interfaces, enums, type aliases and functions in both of them, the same
interfaces and enums are exported, and every function has as many signatures and the module as many
constants.  Without a repository, the members, bases and locations of interfaces, the members of
enums, the signatures of functions and the constants are the same, up to their order. -/
theorem file_order_irrelevant (program : Program) (settings : Settings) {files others : List FileId}
    (known : ∀ file ∈ files, (program.file? file).isSome = true) (order : files.Perm others) :
    ∃ first second, extractFiles program settings files = .ok first ∧
      extractFiles program settings others = .ok second ∧
      first.tree.Addressed ∧ second.tree.Addressed ∧
      (∀ steps, (∃ id, first.tree.Leads ModuleTree.rootId steps id) ↔
        ∃ id, second.tree.Leads ModuleTree.rootId steps id) ∧
      ∀ {steps id other module otherModule}, first.tree.Leads ModuleTree.rootId steps id →
        second.tree.Leads ModuleTree.rootId steps other → first.tree.get? id = some module →
        second.tree.get? other = some otherModule →
        module.SameOutline otherModule ∧
          (settings.repository = none → module.SameParts otherModule) := by
  have otherKnown : ∀ file ∈ others, (program.file? file).isSome = true :=
    fun file member => known file (order.mem_iff.2 member)
  obtain ⟨first, succeeds, collected⟩ := extractFiles_collected program settings known
  obtain ⟨second, otherSucceeds, otherCollected⟩ :=
    extractFiles_collected program settings otherKnown
  obtain ⟨within, reached⟩ := extractFiles_within succeeds
  obtain ⟨otherWithin, otherReached⟩ := extractFiles_within otherSucceeds
  have shaped := within.shaped
  have otherShaped := otherWithin.shaped
  refine ⟨first, second, succeeds, otherSucceeds, shaped.addressed, otherShaped.addressed, ?_, ?_⟩
  · -- In both trees there are modules at exactly the ways that the files open.
    intro steps
    simp only [shaped.leads_iff, otherShaped.leads_iff]
    constructor
    · rintro ⟨id, leads⟩
      exact otherReached ((within.way leads).of_perm order)
    · rintro ⟨id, leads⟩
      exact reached ((otherWithin.way leads).of_perm order.symm)
  · intro steps id other module otherModule leads otherLeads found otherFound
    rw [shaped.leads_iff] at leads
    rw [otherShaped.leads_iff] at otherLeads
    have content := collected.content_eq found
    have otherContent := otherCollected.content_eq otherFound
    constructor
    · refine .of_content ?_
      rw [content, otherContent]
      exact DocModule.sameOutline_ofDeclarations
        (perm_outlines order shaped otherShaped leads otherLeads)
    · intro noRepository
      have noLink : module.repository = none :=
        within.link (fun linked => linked noRepository) (ModuleTree.header?_of_get? found)
      have noOtherLink : otherModule.repository = none :=
        otherWithin.link (fun linked => linked noRepository)
          (ModuleTree.header?_of_get? otherFound)
      refine .of_content ?_
      rw [content, otherContent]
      exact DocModule.sameParts_ofDeclarations (perm_declarations order shaped otherShaped leads
        otherLeads found otherFound noLink noOtherLink)

/-- Two files that declare the interface `Point` in the namespace they share: whichever comes first,
the namespace is the same module, and the interface has the locations of both declarations. -/
theorem file_order_irrelevant_shapes :
    ∃ first second module otherModule record otherRecord,
      extractFiles shapesProgram (.ofBase "/project") [⟨0⟩, ⟨1⟩] = .ok first ∧
        extractFiles shapesProgram (.ofBase "/project") [⟨1⟩, ⟨0⟩] = .ok second ∧
        first.tree.get? 2 = some module ∧ second.tree.get? 2 = some otherModule ∧
        module.interfaces.find? "Point" = some record ∧
        otherModule.interfaces.find? "Point" = some otherRecord ∧ record.locations.length = 2 ∧
        record.locations.Perm otherRecord.locations := by
  have order : List.Perm [⟨0⟩, ⟨1⟩] [⟨1⟩, (⟨0⟩ : FileId)] := by decide
  obtain ⟨first, second, succeeds, otherSucceeds, -, -, -, same⟩ := file_order_irrelevant
    shapesProgram (.ofBase "/project") (by decide) order
  have evaluated : (extractFiles shapesProgram (.ofBase "/project") [⟨0⟩, ⟨1⟩]).toOption.map
      (fun documentation => (documentation.tree.follow? ModuleTree.rootId
        [⟨"plane", false⟩, ⟨"shapes", true⟩], (documentation.tree.get? 2).bind fun module =>
          (module.interfaces.find? "Point").map (·.locations.length))) =
      some (some 2, some 2) := by decide +kernel
  have otherEvaluated : (extractFiles shapesProgram (.ofBase "/project") [⟨1⟩, ⟨0⟩]).toOption.map
      (fun documentation => (documentation.tree.follow? ModuleTree.rootId
        [⟨"plane", false⟩, ⟨"shapes", true⟩], (documentation.tree.get? 2).isSome)) =
      some (some 2, true) := by decide +kernel
  rw [succeeds, Except.toOption, Option.map_some, Option.some.injEq, Prod.mk.injEq,
    Option.bind_eq_some_iff] at evaluated
  rw [otherSucceeds, Except.toOption, Option.map_some, Option.some.injEq, Prod.mk.injEq,
    Option.isSome_iff_exists] at otherEvaluated
  obtain ⟨follows, module, found, locations⟩ := evaluated
  obtain ⟨otherFollows, otherModule, otherFound⟩ := otherEvaluated
  obtain ⟨record, isRecord, two⟩ := Option.map_eq_some_iff.1 locations
  have leads := (extractFiles_within succeeds).1.shaped.leads_iff.2 follows
  have otherLeads := (extractFiles_within otherSucceeds).1.shaped.leads_iff.2 otherFollows
  have parts := ((same leads otherLeads found otherFound).2 rfl).interfaces "Point"
  rw [isRecord] at parts
  generalize isOther : otherModule.interfaces.find? "Point" = other at parts
  cases parts with
  | @some _ otherRecord both =>
      exact ⟨first, second, module, otherModule, record, otherRecord, succeeds, otherSucceeds,
        found, otherFound, isRecord, isOther, two, both.2.2⟩

end ApiDocs
