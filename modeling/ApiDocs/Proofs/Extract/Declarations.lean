import ApiDocs.Proofs.Extract.Content

/-!
# Declarations

Each pass reads a statement for itself.  Seen from the outside there is one thing to read: the
**declaration** that the statement makes, with everything the documentation says about it.  The two
passes file one part each, and so the content of a module is a function of the list of declarations
that are filed in it.

## Main definitions

* `SourceFile.carries`, `SourceFile.extendsEntries`, `SourceFile.implementsEntries` — the modifiers
  and the base types of a declaration, read off its nodes.
* `Declaration`, `Resolver.declaration?` — the declaration that a statement makes.
* `Declaration.skeleton?`, `Declaration.contribution?` — the parts that the two passes file.
* `DocModule.ofDeclarations` — the content of a module with the given declarations.
* `Documentation.declarationsIn` — the declarations filed in a module, in the order of the walk.

## Main statements

* `skeleton?_eq`, `contribution?_eq` — both passes read the same declaration off a statement.
* `Collected.content_eq` — the content of a module of the documentation.
* `interfaces_ofDeclarations` and its companions — the tables of such a module.
-/

namespace ApiDocs

/-- What one declaration of an interface says. -/
structure InterfaceDeclaration where
  name : String
  typeParameters : List (TypeParameter Ty)
  members : List (Member Ty)
  bases : List TypeReference
  location : Location
  doc : Option Doc
  exported : Bool

/-- What one declaration of an enum says. -/
structure EnumDeclaration where
  name : String
  members : List EnumMember
  location : Location
  doc : Option Doc
  exported : Bool
  isConst : Bool

/-- What one declaration of a function says. -/
structure FunctionDeclaration where
  name : String
  exported : Bool
  signature : FunctionSignature

/-- The part of a class that the first pass files. -/
def ClassRecord.outline (record : ClassRecord) : ClassRecord where
  name := record.name
  location := record.location
  doc := record.doc
  exported := record.exported
  abstract := record.abstract

/-- Fills the part of a class that the second pass files into a record. -/
def ClassRecord.complete (own record : ClassRecord) : ClassRecord :=
  { record with
    typeParameters := own.typeParameters
    base := own.base
    implemented := own.implemented
    body := own.body }

/-- The part of a type alias that the first pass files. -/
def AliasRecord.outline (record : AliasRecord) : AliasRecord where
  name := record.name
  location := record.location
  doc := record.doc
  exported := record.exported

/-- Fills the part of a type alias that the second pass files into a record. -/
def AliasRecord.complete (own record : AliasRecord) : AliasRecord :=
  { record with typeParameters := own.typeParameters, value := own.value }

/-- What a statement declares, with all that the documentation says about it. -/
inductive Declaration where
  | classDecl (record : ClassRecord)
  | interfaceDecl (declaration : InterfaceDeclaration)
  | enumDecl (declaration : EnumDeclaration)
  | aliasDecl (record : AliasRecord)
  | functionDecl (declaration : FunctionDeclaration)
  | constants (records : List ConstantRecord)

namespace Declaration

/-- The part of a declaration that the first pass files. -/
def skeleton? : Declaration → Option Skeleton
  | classDecl record => some (.classDecl record.outline)
  | interfaceDecl declaration =>
    some (.interfaceDecl declaration.name declaration.exported declaration.location
      declaration.doc)
  | enumDecl declaration =>
    some (.enumDecl declaration.name declaration.isConst declaration.exported
      declaration.location declaration.doc declaration.members)
  | aliasDecl record => some (.aliasDecl record.outline)
  | functionDecl _ => none
  | constants _ => none

/-- The part of a declaration that the second pass files. -/
def contribution? : Declaration → Option Contribution
  | classDecl record =>
    some (.classDecl record.name record.typeParameters record.base record.implemented record.body)
  | interfaceDecl declaration =>
    some (.interfaceDecl declaration.name declaration.typeParameters declaration.members
      declaration.bases)
  | enumDecl _ => none
  | aliasDecl record => some (.aliasDecl record.name record.typeParameters record.value)
  | functionDecl declaration =>
    some (.functionDecl declaration.name declaration.exported declaration.signature)
  | constants records => some (.constants records)

/-- The class that is declared, if it is one. -/
def class? : Declaration → Option ClassRecord
  | classDecl record => some record
  | _ => none

/-- The declaration of an interface, if it is one. -/
def interface? : Declaration → Option InterfaceDeclaration
  | interfaceDecl declaration => some declaration
  | _ => none

/-- The declaration of an enum, if it is one. -/
def enum? : Declaration → Option EnumDeclaration
  | enumDecl declaration => some declaration
  | _ => none

/-- The type alias that is declared, if it is one. -/
def alias? : Declaration → Option AliasRecord
  | aliasDecl record => some record
  | _ => none

/-- The declaration of a function, if it is one. -/
def function? : Declaration → Option FunctionDeclaration
  | functionDecl declaration => some declaration
  | _ => none

/-- The constants that are declared, if they are constants. -/
def constants? : Declaration → Option (List ConstantRecord)
  | constants records => some records
  | _ => none

end Declaration

/-! ## Reading nodes -/

namespace SourceFile

variable (source : SourceFile)

/-- Whether one of the modifiers of a declaration is the given keyword. -/
def carries (modifiers : Option NodeList) (keyword : Kind) : Bool :=
  (modifiers.getD []).any fun modifier => source.arena.kind? modifier = some keyword

theorem hasModifier_eq (modifiers : Option NodeList) (keyword : Kind) :
    source.arena.hasModifier modifiers keyword = source.carries modifiers keyword := by
  rw [Bool.eq_iff_iff, Arena.hasModifier, Arena.modifierKinds, carries, List.contains_iff_mem,
    List.mem_filterMap, List.any_eq_true]
  simp only [decide_eq_true_eq]

/-- The entries of those heritage clauses of a declaration whose token is selected, clause by
clause. -/
def heritageEntries (selects : Kind → Bool) (clauses : Option NodeList) : NodeList :=
  (clauses.getD []).flatMap fun clause =>
    match source.arena.payload? clause with
    | some (.heritage token entries) => if selects token then entries else []
    | _ => []

/-- The entries of the heritage clauses that are no `implements` clauses. -/
def extendsEntries (clauses : Option NodeList) : NodeList :=
  source.heritageEntries (· != .implementsKeyword) clauses

/-- The entries of the `implements` clauses. -/
def implementsEntries (clauses : Option NodeList) : NodeList :=
  source.heritageEntries (· == .implementsKeyword) clauses

end SourceFile

/-- The answers on a list, without effects. -/
theorem collectM_run {α β : Type} (answer? : α → Id (Option β)) (list : List α) :
    (collectM answer? list).run = list.filterMap fun element => (answer? element).run := by
  induction list with
  | nil => rfl
  | cons element rest ih =>
      rw [filterMap_cons_toList, ← ih]
      rfl

/-! ## Reading a statement -/

namespace Resolver

variable (resolver : Resolver Id) (scope : Scope) (index : NodeIndex)

/-- The base type that an entry of a heritage clause stands for. -/
def baseType : TypeReference :=
  (resolver.heritage (resolver.type scope) scope index).run

/-- The member of an enum that a node declares; `none` for any other node. -/
def declaredEnumMember? : Option EnumMember :=
  match scope.source.arena.payload? index with
  | some (.enumMember name initializer) => some
      { name := scope.source.declarationName name
        initializer := initializer.toOption.map scope.source.nodeText
        location := scope.location index
        doc := (resolver.docOf? scope index).run }
  | _ => none

theorem enumMember?_run :
    (resolver.enumMember? scope index).run = resolver.declaredEnumMember? scope index := by
  rw [enumMember?, declaredEnumMember?]
  cases scope.source.arena.payload? index with
  | none => rfl
  | some payload => cases payload <;> rfl

/-- The base types of the clauses that are wanted are those of their entries, clause by clause. -/
theorem flatMap_heritageClause? (wanted : Bool → Bool) (clauses : NodeList) :
    ((clauses.filterMap fun clause => (resolver.heritageClause? scope clause).run).filter
        (wanted ·.1)).flatMap (·.2) =
      (scope.source.heritageEntries (fun token => wanted (token == .implementsKeyword))
        (some clauses)).map (resolver.baseType scope) := by
  induction clauses with
  | nil => rfl
  | cons clause rest ih =>
      rw [filterMap_cons_toList, List.filter_append, List.flatMap_append, ih,
        SourceFile.heritageEntries, SourceFile.heritageEntries, Option.getD_some, Option.getD_some,
        List.flatMap_cons, List.map_append]
      refine congrArg (· ++ _) ?_
      rw [heritageClause?]
      cases scope.source.arena.payload? clause with
      | none => rfl
      | some payload =>
          cases payload with
          | heritage token entries =>
              simp only [Id.run_bind, List.idRun_mapM, Id.run_pure, Option.toList_some]
              rw [List.filter_cons, List.filter_nil, beq_eq_decide]
              split
              · exact List.append_nil _
              · rfl
          | _ => rfl

/-- The type at an optional node, without effects. -/
theorem optionalType_run (type : NodeIndex → Id Ty) :
    (optionalType type index).run = index.toOption.map fun index => (type index).run := by
  rw [optionalType]
  cases index.toOption <;> rfl

/-- The base types of all clauses are those of their entries, in order. -/
theorem heritageClauses_run (clauses : Option NodeList) :
    (resolver.heritageClauses scope clauses).run =
      ((scope.source.extendsEntries clauses).map (resolver.baseType scope),
        (scope.source.implementsEntries clauses).map (resolver.baseType scope)) := by
  rw [heritageClauses, Id.run_bind, collectM_run]
  exact Prod.ext (resolver.flatMap_heritageClause? scope (!·) (clauses.getD []))
    (resolver.flatMap_heritageClause? scope id (clauses.getD []))

/-- The declaration that a statement makes; `none` for a statement that is not documented. -/
def declaration? : Option Declaration :=
  let type := resolver.type scope
  let source := scope.source
  let location := scope.location index
  let doc := (resolver.docOf? scope index).run
  let typeParameters (list : Option NodeList) := (list.getD []).filterMap fun parameter =>
    (typeParameter? type scope parameter).run
  match source.arena.get? index with
  | none => none
  | some node =>
    match node.kind, node.payload with
    | .classDeclaration, .classDecl data =>
      some (.classDecl
        { name := source.declarationName data.name
          typeParameters := typeParameters data.typeParameters
          body := (resolver.classBody scope data.members).run
          base := (source.extendsEntries data.heritage).head?.map (resolver.baseType scope)
          implemented := (source.implementsEntries data.heritage).map (resolver.baseType scope)
          location
          doc
          exported := source.carries data.modifiers .exportKeyword
          abstract := source.carries data.modifiers .abstractKeyword })
    | .interfaceDeclaration, .interfaceDecl data =>
      some (.interfaceDecl
        { name := source.declarationName data.name
          typeParameters := typeParameters data.typeParameters
          members := data.members.filterMap fun member => (resolver.member? type scope member).run
          bases := (source.extendsEntries data.heritage).map (resolver.baseType scope)
          location
          doc
          exported := source.carries data.modifiers .exportKeyword })
    | .enumDeclaration, .enumDecl data =>
      some (.enumDecl
        { name := source.declarationName data.name
          members := data.members.filterMap (resolver.declaredEnumMember? scope)
          location
          doc
          exported := source.carries data.modifiers .exportKeyword
          isConst := source.carries data.modifiers .constKeyword })
    | .typeAliasDeclaration, .aliasDecl data =>
      some (.aliasDecl
        { name := source.declarationName data.name
          typeParameters := typeParameters data.typeParameters
          value := data.value.toOption.map fun value => (type value).run
          location
          doc
          exported := source.carries data.modifiers .exportKeyword })
    | .functionDeclaration, .functionDecl data =>
      (resolver.signature? type scope index).run.map fun signature =>
        .functionDecl
          { name := source.declarationName data.name
            exported := source.carries data.modifiers .exportKeyword
            signature }
    | .variableStatement, .variableStatement data =>
      if source.carries data.modifiers .exportKeyword then
        some (.constants (data.declarations.filterMap fun declarator =>
          (resolver.constant? scope doc declarator).run))
      else none
    | _, _ => none

/-- The first pass reads the declaration off a statement. -/
theorem skeleton?_eq :
    (resolver.skeleton? scope index).run =
      (resolver.declaration? scope index).bind Declaration.skeleton? := by
  rw [skeleton?, declaration?]
  cases scope.source.arena.get? index with
  | none => rfl
  | some node =>
      dsimp only
      split
      case h_5 noClass noInterface noEnum noAlias =>
        -- What remains for the declaration has no skeleton.
        split
        · exact (noClass _ ‹_› ‹_›).elim
        · exact (noInterface _ ‹_› ‹_›).elim
        · exact (noEnum _ ‹_› ‹_›).elim
        · exact (noAlias _ ‹_› ‹_›).elim
        · cases (resolver.signature? (resolver.type scope) scope index).run <;> rfl
        · split <;> rfl
        · rfl
      all_goals
        rename_i kindIs payloadIs
        simp only [kindIs, payloadIs, Id.run_bind, SourceFile.hasModifier_eq, collectM_run,
          enumMember?_run]
        rfl

/-- The second pass reads the same declaration. -/
theorem contribution?_eq :
    (resolver.contribution? scope index).run =
      (resolver.declaration? scope index).bind Declaration.contribution? := by
  rw [contribution?, declaration?]
  cases scope.source.arena.get? index with
  | none => rfl
  | some node =>
      dsimp only
      split
      case h_4 kindIs payloadIs =>
        simp only [kindIs, payloadIs, Id.run_bind, SourceFile.hasModifier_eq]
        cases (resolver.signature? (resolver.type scope) scope index).run <;> rfl
      case h_5 kindIs payloadIs =>
        simp only [kindIs, payloadIs, SourceFile.hasModifier_eq]
        split
        · rw [Id.run_bind, Id.run_bind, collectM_run]
          rfl
        · rfl
      case h_6 noClass noInterface noAlias noFunction noVariable =>
        -- Of what remains only an enum declares something, and the first pass filed it whole.
        split
        · exact (noClass _ ‹_› ‹_›).elim
        · exact (noInterface _ ‹_› ‹_›).elim
        · rfl
        · exact (noAlias _ ‹_› ‹_›).elim
        · exact (noFunction _ ‹_› ‹_›).elim
        · exact (noVariable _ ‹_› ‹_›).elim
        · rfl
      all_goals
        rename_i kindIs payloadIs
        simp only [kindIs, payloadIs, Id.run_bind, heritageClauses_run, typeParameters, members,
          collectM_run, optionalType_run, List.head?_map]
        rfl

end Resolver

/-! ## Modules made of declarations -/

namespace DocModule

/-- A module after the first pass over a declaration. -/
def prepare (module : DocModule) (declaration : Declaration) : DocModule :=
  declaration.skeleton?.elim module (Skeleton.file module)

/-- A module after the second pass over a declaration. -/
def visit (module : DocModule) (declaration : Declaration) : DocModule :=
  declaration.contribution?.elim module (Contribution.apply module)

/-- The content of a module in which the given declarations are filed: both passes go over all of
them, one after the other. -/
def ofDeclarations (declarations : List Declaration) : DocModule :=
  declarations.foldl visit (declarations.foldl prepare { name := "" })

/-- A part of a module that a pass changes by declarations of one kind only is a fold over the
declarations of that kind. -/
theorem view_foldl {τ δ : Type} (view : DocModule → τ) (select : Declaration → Option δ)
    (step : τ → δ → τ) {act : DocModule → Declaration → DocModule}
    (each : ∀ module declaration,
      view (act module declaration) = (select declaration).elim (view module) (step (view module)))
    (declarations : List Declaration) :
    ∀ module, view (declarations.foldl act module) =
      (declarations.filterMap select).foldl step (view module) := by
  induction declarations with
  | nil => intro module; rfl
  | cons declaration declarations ih =>
      intro module
      rw [List.foldl_cons, ih, each, List.filterMap_cons]
      cases select declaration with
      | none => rfl
      | some selected => rfl

variable (declarations : List Declaration)

/-- A part of a module that both passes change by declarations of one kind only. -/
theorem view_ofDeclarations {τ δ : Type} (view : DocModule → τ)
    (select : Declaration → Option δ) (first second : τ → δ → τ)
    (prepares : ∀ module declaration, view (prepare module declaration) =
      (select declaration).elim (view module) (first (view module)))
    (visits : ∀ module declaration, view (visit module declaration) =
      (select declaration).elim (view module) (second (view module))) :
    view (ofDeclarations declarations) =
      (declarations.filterMap select).foldl second
        ((declarations.filterMap select).foldl first (view { name := "" })) := by
  rw [ofDeclarations, view_foldl view select second visits, view_foldl view select first prepares]

/-- The interfaces of a module are gathered by the first pass and revised by the second. -/
theorem interfaces_ofDeclarations :
    (ofDeclarations declarations).interfaces =
      Table.revise InterfaceDeclaration.name
        (fun own => Contribution.extendInterface own.typeParameters own.members own.bases)
        (Table.gather InterfaceDeclaration.name (fun own => { name := own.name })
          (fun own => Skeleton.extendInterface own.exported own.location own.doc) {}
          (declarations.filterMap Declaration.interface?))
        (declarations.filterMap Declaration.interface?) := by
  apply view_ofDeclarations declarations (·.interfaces)
  · intro module declaration
    cases declaration <;> rfl
  · intro module declaration
    cases declaration <;> rfl

/-- The enums of a module are gathered by the first pass. -/
theorem enums_ofDeclarations :
    (ofDeclarations declarations).enums =
      Table.gather EnumDeclaration.name (fun own => { name := own.name, isConst := own.isConst })
        (fun own => Skeleton.extendEnum own.exported own.location own.doc own.members) {}
        (declarations.filterMap Declaration.enum?) := by
  rw [view_ofDeclarations declarations (·.enums) Declaration.enum?
    (fun table own => table.upsert own.name { name := own.name, isConst := own.isConst }
      (Skeleton.extendEnum own.exported own.location own.doc own.members)) (fun table _ => table),
    List.foldl_fixed]
  · rfl
  · intro module declaration
    cases declaration <;> rfl
  · intro module declaration
    cases declaration <;> rfl

/-- The classes of a module are replaced by the first pass and completed by the second. -/
theorem classes_ofDeclarations :
    (ofDeclarations declarations).classes =
      Table.revise ClassRecord.name ClassRecord.complete
        (Table.gather ClassRecord.name ClassRecord.outline (fun own _ => own.outline) {}
          (declarations.filterMap Declaration.class?))
        (declarations.filterMap Declaration.class?) := by
  apply view_ofDeclarations declarations (·.classes)
  · intro module declaration
    cases declaration <;> rfl
  · intro module declaration
    cases declaration <;> rfl

/-- The type aliases of a module are replaced by the first pass and completed by the second. -/
theorem aliases_ofDeclarations :
    (ofDeclarations declarations).aliases =
      Table.revise AliasRecord.name AliasRecord.complete
        (Table.gather AliasRecord.name AliasRecord.outline (fun own _ => own.outline) {}
          (declarations.filterMap Declaration.alias?))
        (declarations.filterMap Declaration.alias?) := by
  apply view_ofDeclarations declarations (·.aliases)
  · intro module declaration
    cases declaration <;> rfl
  · intro module declaration
    cases declaration <;> rfl

/-- The functions of a module are gathered by the second pass. -/
theorem functions_ofDeclarations :
    (ofDeclarations declarations).functions =
      Table.gather FunctionDeclaration.name
        (fun own => Contribution.newFunction own.name own.exported own.signature)
        (fun own record => { record with signatures := record.signatures ++ [own.signature] }) {}
        (declarations.filterMap Declaration.function?) := by
  rw [view_ofDeclarations declarations (·.functions) Declaration.function? (fun table _ => table)
    (fun table own => table.upsert own.name
      (Contribution.newFunction own.name own.exported own.signature)
      fun record => { record with signatures := record.signatures ++ [own.signature] }),
    List.foldl_fixed]
  · rfl
  · intro module declaration
    cases declaration <;> rfl
  · intro module declaration
    cases declaration <;> rfl

/-- The constants of a module are listed by the second pass. -/
theorem constants_ofDeclarations :
    (ofDeclarations declarations).constants =
      (declarations.filterMap Declaration.constants?).flatten := by
  rw [view_ofDeclarations declarations (·.constants) Declaration.constants? (fun list _ => list)
    (fun list own => list ++ own), List.foldl_fixed, List.flatten_eq_flatMap,
    List.flatMap_eq_foldl]
  · rfl
  · intro module declaration
    cases declaration <;> rfl
  · intro module declaration
    cases declaration <;> rfl

/-! Names stand in the order in which they are first declared. -/

theorem keys_classes_ofDeclarations :
    (ofDeclarations declarations).classes.keys =
      ((declarations.filterMap Declaration.class?).map (·.name)).eraseDups := by
  rw [classes_ofDeclarations, Table.keys_revise, Table.keys_gather]

theorem keys_interfaces_ofDeclarations :
    (ofDeclarations declarations).interfaces.keys =
      ((declarations.filterMap Declaration.interface?).map (·.name)).eraseDups := by
  rw [interfaces_ofDeclarations, Table.keys_revise, Table.keys_gather]

theorem keys_enums_ofDeclarations :
    (ofDeclarations declarations).enums.keys =
      ((declarations.filterMap Declaration.enum?).map (·.name)).eraseDups := by
  rw [enums_ofDeclarations, Table.keys_gather]

theorem keys_aliases_ofDeclarations :
    (ofDeclarations declarations).aliases.keys =
      ((declarations.filterMap Declaration.alias?).map (·.name)).eraseDups := by
  rw [aliases_ofDeclarations, Table.keys_revise, Table.keys_gather]

end DocModule

/-! ## The declarations filed in a module -/

/-- The declarations filed in a module of a documentation, in the order of the walk through the
files. -/
def Documentation.declarationsIn (documentation : Documentation) (program : Program)
    (settings : Settings) (files : List FileId) (id : ModuleId) (module : DocModule) :
    List Declaration :=
  (documentation.tree.filedIn id (program.filings settings files)).filterMap fun filing =>
    (Extraction.direct program settings).resolver.declaration? (filing.scope module)
      filing.statement

/-- A fold over what is learnt in two steps is a fold over what is learnt in the first step. -/
theorem foldl_filterMap_bind {ι δ β : Type} (first : ι → Option δ) (second : δ → Option β)
    (act : DocModule → β → DocModule) (list : List ι) :
    ∀ module, (list.filterMap fun element => (first element).bind second).foldl act module =
      (list.filterMap first).foldl (fun module found => (second found).elim module (act module))
        module := by
  induction list with
  | nil => intro module; rfl
  | cons element rest ih =>
      intro module
      rw [List.filterMap_cons, List.filterMap_cons]
      cases first element with
      | none => exact ih module
      | some found =>
          rw [Option.bind_some, List.foldl_cons, ← ih]
          cases second found with
          | none => rfl
          | some learnt => rfl

/-- The content of a module of the documentation is made of the declarations filed in it. -/
theorem Extraction.Collected.content_eq {program : Program} {settings : Settings}
    {files : List FileId} {documentation : Documentation}
    (collected : (direct program settings).Collected (program.filings settings files)
      documentation.tree)
    {id : ModuleId} {module : DocModule} (found : documentation.tree.get? id = some module) :
    module.content =
      .ofDeclarations (documentation.declarationsIn program settings files id module) := by
  rw [collected.content found, PassRule.fill, PassRule.fill]
  simp only [preparing, visiting, Resolver.skeleton?_eq, Resolver.contribution?_eq]
  rw [foldl_filterMap_bind, foldl_filterMap_bind]
  rfl

end ApiDocs
