import ApiDocs.Proofs.Extract.Merging

/-!
# Functions and constants are collected whole

Functions and constants are recorded by the second pass alone.  Declarations of one function may lie
in several files and in several bodies of one namespace, and a variable statement may declare any
number of constants.  Each of them is found again in the module its statement is filed in, **once
and in the order of the walk**: a function has one signature for each of its declarations, and the
list of constants has one entry for each exported declarator with an initializer.

## Main definitions

* `SourceFile.functionData?` — the data of the function that a statement declares.
* `SourceFile.exportedDeclarators` — the initialized declarators of an exported variable statement.
* `FunctionRecord.Collects` — a record that is put together from a list of function declarations.

## Main statements

* `functions_and_constants_collected` — the functions and constants of every module of the
  documentation.
-/

namespace ApiDocs

namespace SourceFile

variable (source : SourceFile) (index : NodeIndex)

/-- The data of the function that a statement declares; `none` for any other statement. -/
def functionData? : Option FunctionPayload :=
  match source.arena.get? index with
  | some node =>
    match node.kind, node.payload with
    | .functionDeclaration, .functionDecl data => some data
    | _, _ => none
  | none => none

/-- The data of a variable statement that carries `export`; `none` for any other statement. -/
def exportedVariables? : Option VariablesPayload :=
  match source.arena.get? index with
  | some node =>
    match node.kind, node.payload with
    | .variableStatement, .variableStatement data =>
      if source.carries data.modifiers .exportKeyword then some data else none
    | _, _ => none
  | none => none

/-- The data of a declarator with an initializer. -/
def initialized? : Option VariablePayload :=
  match source.arena.payload? index with
  | some (.declarator data) => if data.initializer.isPresent then some data else none
  | _ => none

/-- The initialized declarators of an exported variable statement, each with its data. -/
def exportedDeclarators : List (NodeIndex × VariablePayload) :=
  match source.exportedVariables? index with
  | some data => data.declarations.filterMap fun declarator =>
      (source.initialized? declarator).map (declarator, ·)
  | none => []

end SourceFile

namespace Filing

/-- The name of the function that a statement declares, if it declares one. -/
def functionName? (filing : Filing) : Option String :=
  (filing.source.functionData? filing.statement).map fun data =>
    filing.source.declarationName data.name

/-- Whether a statement declares a function that carries `export`. -/
def exportsFunction (filing : Filing) : Bool :=
  (filing.source.functionData? filing.statement).any fun data =>
    filing.source.carries data.modifiers .exportKeyword

variable (filing : Filing) (resolver : Resolver Id) (module : DocModule)

/-- The signature of a statement that is filed in a module. -/
def signature? : Option FunctionSignature :=
  (resolver.signature? (resolver.type (filing.scope module)) (filing.scope module)
    filing.statement).run

/-- The documentation of a statement that is filed in a module. -/
def doc? : Option Doc :=
  (resolver.docOf? (filing.scope module) filing.statement).run

/-- The constants that a statement declares in the module in which it is filed: one for each
initialized declarator, if the statement carries `export`.  Of a long initializer a constant shows
the first 256 characters, with three dots behind them. -/
def constants : List ConstantRecord :=
  (filing.source.exportedDeclarators filing.statement).map fun (declarator, data) =>
    let text := filing.source.nodeText data.initializer
    { name := filing.source.declarationName data.name
      type := (data.typeNode.toOption).map fun typeNode =>
        (resolver.type (filing.scope module) typeNode).run
      content :=
        if text.length ≤ 256 then text else String.ofList (text.toList.take 256) ++ "..."
      location := (filing.scope module).location declarator
      doc := filing.doc? resolver module }

end Filing

/-- The record of a function is put together from the declarations of its name, which are filed in
one module: every declaration gives a signature, and the first one gives the rest. -/
structure FunctionRecord.Collects (record : FunctionRecord) (resolver : Resolver Id)
    (module : DocModule) (first : Filing) (others : List Filing) : Prop where
  name : some record.name = first.functionName?
  location : record.location = (first.scope module).location first.statement
  doc : record.doc = first.doc? resolver module
  exported : record.exported = first.exportsFunction
  signatures : record.signatures.map some =
    (first :: others).map (Filing.signature? · resolver module)

/-! ## Reading functions and constants off a statement -/

namespace Resolver

variable (resolver : Resolver Id) (scope : Scope) (index : NodeIndex)

/-- Everything with the data of a function has a signature, at its own place and with its own
documentation. -/
theorem signature?_eq_some (type : NodeIndex → Id Ty) {data : FunctionPayload}
    (isFunction : scope.source.arena.payload? index = some (.functionDecl data)) :
    ∃ signature, (resolver.signature? type scope index).run = some signature ∧
      signature.location = scope.location index ∧
      signature.doc = (doc? type scope index).run := by
  rw [signature?, isFunction]
  exact ⟨_, rfl, rfl, rfl⟩

/-- The function that a statement declares, read off its data. -/
theorem function?_declaration? :
    (resolver.declaration? scope index).bind Declaration.function? =
      (scope.source.functionData? index).bind fun data =>
        (resolver.signature? (resolver.type scope) scope index).run.map fun signature =>
          { name := scope.source.declarationName data.name
            exported := scope.source.carries data.modifiers .exportKeyword
            signature } := by
  rw [declaration?, SourceFile.functionData?]
  cases scope.source.arena.get? index with
  | none => rfl
  | some node =>
      dsimp only
      split
      case h_5 kindIs payloadIs =>
        simp only [kindIs, payloadIs, Option.bind_some]
        cases (resolver.signature? (resolver.type scope) scope index).run <;> rfl
      case h_6 kindIs payloadIs =>
        simp only [kindIs, payloadIs]
        split <;> rfl
      case h_7 noClass noInterface noEnum noAlias noFunction noVariable =>
        split
        · exact (noFunction _ ‹_› ‹_›).elim
        · rfl
      all_goals
        rename_i kindIs payloadIs
        simp only [kindIs, payloadIs]
        rfl

/-- The constant that a declarator declares, read off its data. -/
theorem constant?_eq (doc : Option Doc) :
    (resolver.constant? scope doc index).run =
      (scope.source.initialized? index).map fun data =>
        let text := scope.source.nodeText data.initializer
        { name := scope.source.declarationName data.name
          type := (data.typeNode.toOption).map fun typeNode =>
            (resolver.type scope typeNode).run
          content :=
            if text.length ≤ 256 then text else String.ofList (text.toList.take 256) ++ "..."
          location := scope.location index
          doc } := by
  rw [constant?, SourceFile.initialized?]
  cases scope.source.arena.payload? index with
  | none => rfl
  | some payload =>
      cases payload with
      | declarator data =>
          by_cases present : data.initializer.isPresent = true
          · simp only [present, if_true, Id.run_bind, optionalType_run, Text.excerpt_eq]
            rfl
          · simp only [present]
            rfl
      | _ => rfl

/-- The constants that a statement declares, read off its data. -/
theorem constants?_declaration? :
    (resolver.declaration? scope index).bind Declaration.constants? =
      (scope.source.exportedVariables? index).map fun data =>
        data.declarations.filterMap fun declarator =>
          (resolver.constant? scope (resolver.docOf? scope index).run declarator).run := by
  rw [declaration?, SourceFile.exportedVariables?]
  cases scope.source.arena.get? index with
  | none => rfl
  | some node =>
      dsimp only
      split
      case h_5 kindIs payloadIs =>
        simp only [kindIs, payloadIs]
        cases (resolver.signature? (resolver.type scope) scope index).run <;> rfl
      case h_6 kindIs payloadIs =>
        simp only [kindIs, payloadIs]
        split <;> rfl
      case h_7 noClass noInterface noEnum noAlias noFunction noVariable =>
        split
        · exact (noVariable _ ‹_› ‹_›).elim
        · rfl
      all_goals
        rename_i kindIs payloadIs
        simp only [kindIs, payloadIs]
        rfl

end Resolver

namespace Filing

variable (filing : Filing) (resolver : Resolver Id) (module : DocModule)

/-- The function that a filed statement declares. -/
def function? : Option FunctionDeclaration :=
  (resolver.declaration? (filing.scope module) filing.statement).bind Declaration.function?

theorem function?_eq :
    filing.function? resolver module =
      (filing.source.functionData? filing.statement).bind fun data =>
        (filing.signature? resolver module).map fun signature =>
          { name := filing.source.declarationName data.name
            exported := filing.source.carries data.modifiers .exportKeyword
            signature } :=
  resolver.function?_declaration? (filing.scope module) filing.statement

/-- A statement with the data of a function declares a function, with all that its data say. -/
theorem function?_eq_some {data : FunctionPayload}
    (isFunction : filing.source.functionData? filing.statement = some data) :
    ∃ own, filing.function? resolver module = some own ∧
      own.name = filing.source.declarationName data.name ∧
      own.exported = filing.source.carries data.modifiers .exportKeyword ∧
      some own.signature = filing.signature? resolver module ∧
      own.signature.location = (filing.scope module).location filing.statement ∧
      own.signature.doc = filing.doc? resolver module := by
  have payload : (filing.scope module).source.arena.payload? filing.statement =
      some (.functionDecl data) := by
    rw [SourceFile.functionData?] at isFunction
    show filing.source.arena.payload? filing.statement = _
    rw [Arena.payload?]
    cases found : filing.source.arena.get? filing.statement with
    | none => simp [found] at isFunction
    | some node =>
        simp only [found] at isFunction
        split at isFunction
        · rename_i payloadIs
          cases isFunction
          simp [payloadIs]
        · cases isFunction
  obtain ⟨signature, read, location, doc⟩ := resolver.signature?_eq_some (filing.scope module)
    filing.statement (resolver.type (filing.scope module)) payload
  have signed : filing.signature? resolver module = some signature := read
  refine ⟨⟨filing.source.declarationName data.name,
    filing.source.carries data.modifiers .exportKeyword, signature⟩, ?_, rfl, rfl,
    signed.symm, location, doc⟩
  rw [function?_eq, isFunction, signed]
  rfl

theorem functionName?_eq :
    filing.functionName? = (filing.function? resolver module).map (·.name) := by
  rw [functionName?]
  cases isFunction : filing.source.functionData? filing.statement with
  | none => simp [function?_eq, isFunction]
  | some data =>
      obtain ⟨own, declared, name, -⟩ := filing.function?_eq_some resolver module isFunction
      rw [declared, Option.map_some, Option.map_some, name]

/-- The constants of a filed statement are those that it declares. -/
theorem constants_eq :
    ((resolver.declaration? (filing.scope module) filing.statement).bind
      Declaration.constants?).getD [] = filing.constants resolver module := by
  rw [Resolver.constants?_declaration?, constants, SourceFile.exportedDeclarators]
  show ((filing.source.exportedVariables? filing.statement).map _).getD [] = _
  cases filing.source.exportedVariables? filing.statement with
  | none => rfl
  | some data =>
      simp only [Resolver.constant?_eq, Option.map_some, Option.getD_some, List.map_filterMap,
        Option.map_map]
      rfl

end Filing

/-! ## The functions and constants of a module -/

/-- What all elements of a list give is listed without gaps. -/
theorem map_some_filterMap {α β γ : Type} (select : α → Option β) (read : β → γ) {list : List α}
    (each : ∀ element ∈ list, (select element).isSome = true) :
    ((list.filterMap select).map fun selected => some (read selected)) =
      list.map fun element => (select element).map read := by
  induction list with
  | nil => rfl
  | cons first rest ih =>
      obtain ⟨selected, isSelected⟩ := Option.isSome_iff_exists.1 (each first (by simp))
      rw [List.filterMap_cons_some isSelected, List.map_cons, List.map_cons, isSelected,
        ih fun element member => each element (by simp [member])]
      rfl

/-- Joining the lists that elements give, where they give one. -/
theorem flatten_filterMap {α β : Type} (select : α → Option (List β)) (list : List α) :
    (list.filterMap select).flatten = list.flatMap fun element => (select element).getD [] := by
  induction list with
  | nil => rfl
  | cons first rest ih =>
      rw [List.flatMap_cons, ← ih, filterMap_cons_toList]
      cases select first <;> rfl

/-- The declarations of a function among those that a list of statements makes are made by the
statements that declare a function of its name. -/
theorem filter_filterMap_function? (statements : List Filing) (resolver : Resolver Id)
    (module : DocModule) (name : String) :
    (statements.filterMap (Filing.function? · resolver module)).filter (·.name = name) =
      (statements.filter fun filing => filing.functionName? = some name).filterMap
        (Filing.function? · resolver module) := by
  rw [List.filter_filterMap, List.filterMap_filter]
  apply List.filterMap_congr
  intro filing _
  rw [filing.functionName?_eq resolver module]
  cases filing.function? resolver module with
  | none => simp
  | some own => by_cases same : own.name = name <;> simp [same]

/-- The record that a list of function declarations of one name makes. -/
theorem DocModule.collects_ofDeclarations {declarations : List Declaration}
    {statements others : List Filing} {resolver : Resolver Id} {module : DocModule}
    (functions : declarations.filterMap Declaration.function? =
      statements.filterMap (Filing.function? · resolver module)) {name : String} {first : Filing}
    (overloads : statements.filter (fun filing => filing.functionName? = some name) =
      first :: others) :
    ∃ record, (ofDeclarations declarations).functions.find? name = some record ∧
      record.Collects resolver module first others := by
  have named : ∀ filing ∈ first :: others, filing.functionName? = some name := by
    intro filing member
    rw [← overloads] at member
    simpa using (List.mem_filter.1 member).2
  have declares : ∀ filing ∈ first :: others, ∃ data,
      filing.source.functionData? filing.statement = some data := by
    intro filing member
    obtain ⟨data, isFunction, -⟩ := Option.map_eq_some_iff.1 (named filing member)
    exact ⟨data, isFunction⟩
  obtain ⟨data, isFunction⟩ := declares first (by simp)
  obtain ⟨own, declared, ownName, exported, -, location, doc⟩ :=
    first.function?_eq_some resolver module isFunction
  have isFirst : ((first :: others).filterMap (Filing.function? · resolver module)).head? =
      some own := by
    rw [List.filterMap_cons, declared]
    rfl
  rw [find?_functions_ofDeclarations, functions, filter_filterMap_function?, overloads, isFirst]
  refine ⟨_, rfl, (named first (by simp)).symm, location, doc, ?_, ?_⟩
  · rw [Filing.exportsFunction, isFunction]
    exact exported
  · rw [List.map_map]
    refine (map_some_filterMap (Filing.function? · resolver module) (·.signature) ?_).trans ?_
    · intro filing member
      obtain ⟨data, isFunction⟩ := declares filing member
      obtain ⟨own, declared, -⟩ := filing.function?_eq_some resolver module isFunction
      rw [declared]
      rfl
    · refine List.map_congr_left fun filing member => ?_
      obtain ⟨data, isFunction⟩ := declares filing member
      obtain ⟨own, declared, -, -, signed, -⟩ :=
        filing.function?_eq_some resolver module isFunction
      rw [declared, ← signed]
      rfl

/-- **No overload and no constant is lost, repeated or misfiled.**  In the documentation of known
files, a module has a function under a name exactly if a statement with the data of a function of
that name is filed in it; the record has the signatures of all these statements in the order of the
walk, and the location, the documentation and the export of the first one.  The constants of the
module are those of the exported variable statements filed in it, one for each initialized
declarator, in the order of the walk.  Names of functions stand in the order in which they are first
declared. -/
theorem functions_and_constants_collected (program : Program) (settings : Settings)
    (files : List FileId) (known : ∀ file ∈ files, (program.file? file).isSome = true) :
    ∃ documentation, extractFiles program settings files = .ok documentation ∧
      ∀ id module, documentation.tree.get? id = some module →
        let resolver := (Extraction.direct program settings).resolver
        let statements := documentation.tree.filedIn id (program.filings settings files)
        module.functions.keys = (statements.filterMap Filing.functionName?).eraseDups ∧
          (∀ name,
            match statements.filter fun filing => filing.functionName? = some name with
            | [] => module.functions.find? name = none
            | first :: others => ∃ record, module.functions.find? name = some record ∧
                record.Collects resolver module first others) ∧
          module.constants = statements.flatMap (Filing.constants · resolver module) := by
  obtain ⟨documentation, succeeds, collected⟩ := extractFiles_collected program settings known
  refine ⟨documentation, succeeds, fun id module found => ?_⟩
  intro resolver statements
  have content := collected.content_eq found
  have functionsIs := congrArg (·.functions) content
  have constantsIs := congrArg (·.constants) content
  have functions : (documentation.declarationsIn program settings files id module).filterMap
      Declaration.function? = statements.filterMap (Filing.function? · resolver module) :=
    List.filterMap_filterMap
  refine ⟨?_, fun name => ?_, ?_⟩
  · refine (congrArg Table.keys functionsIs).trans ?_
    rw [DocModule.functions_ofDeclarations, Table.keys_gather, functions, List.map_filterMap]
    simp only [← Filing.functionName?_eq]
  · cases overloads : statements.filter fun filing => filing.functionName? = some name with
    | nil =>
        refine (congrArg (Table.find? · name) functionsIs).trans ?_
        rw [DocModule.find?_functions_ofDeclarations, functions, filter_filterMap_function?,
          overloads]
        rfl
    | cons first others =>
        obtain ⟨record, isFound, collects⟩ := DocModule.collects_ofDeclarations functions overloads
        exact ⟨record, (congrArg (Table.find? · name) functionsIs).trans isFound, collects⟩
  · refine constantsIs.trans ?_
    rw [DocModule.constants_ofDeclarations, Documentation.declarationsIn, List.filterMap_filterMap,
      flatten_filterMap]
    simp only [Filing.constants_eq]
    rfl

/-- A numeral of sevens. -/
def sevens (count : Nat) : String :=
  String.ofList (List.replicate count '7')

/-- A file that declares the function `area` and, with a long initializer, the variable `big` in the
namespace `shapes`. -/
def bigFile : SourceFile where
  path := "/project/plane/first.ts"
  text :=
    "namespace shapes \x7b function area(): number; export let big = " ++ sevens 300 ++ " \x7d"
  arena.nodes := #[
    { kind := .identifier, start := 10, stop := 16, payload := .identifier "shapes" },
    { kind := .identifier, start := 28, stop := 32, payload := .identifier "area" },
    { kind := .numberKeyword, start := 36, stop := 42 },
    { kind := .functionDeclaration, start := 19, stop := 43
      payload := .functionDecl
        { modifiers := none, name := ⟨1⟩, optional := false, typeParameters := none
          parameters := [], typeNode := ⟨2⟩, body := .absent } },
    { kind := .exportKeyword, start := 44, stop := 50 },
    { kind := .identifier, start := 55, stop := 58, payload := .identifier "big" },
    { kind := .numericLiteral, start := 61, stop := 361, payload := .literal (sevens 300) },
    { kind := .variableDeclaration, start := 55, stop := 361
      payload := .declarator { name := ⟨5⟩, typeNode := .absent, initializer := ⟨6⟩ } },
    { kind := .variableStatement, start := 44, stop := 361
      payload := .variableStatement { modifiers := some [⟨4⟩], declarations := [⟨7⟩] } },
    { kind := .moduleBlock, start := 17, stop := 363, payload := .block [⟨3⟩, ⟨8⟩] },
    { kind := .moduleDeclaration, start := 0, stop := 363
      payload := .namespaceDecl { modifiers := none, name := ⟨0⟩, body := ⟨9⟩ } }]
  statements := [⟨10⟩]
  commentMap := .ofList [(3, [{ text := some "In a plane." }])]

/-- A file that declares the function again, and the variables `sides` and `angle`, of which only
the first has an initializer. -/
def areaFile : SourceFile where
  path := "/project/plane/second.ts"
  text :=
    "namespace shapes { export function area(): void; export let sides: number = 4, angle; }"
  arena.nodes := #[
    { kind := .identifier, start := 10, stop := 16, payload := .identifier "shapes" },
    { kind := .exportKeyword, start := 19, stop := 25 },
    { kind := .identifier, start := 35, stop := 39, payload := .identifier "area" },
    { kind := .voidKeyword, start := 43, stop := 47 },
    { kind := .functionDeclaration, start := 19, stop := 48
      payload := .functionDecl
        { modifiers := some [⟨1⟩], name := ⟨2⟩, optional := false, typeParameters := none
          parameters := [], typeNode := ⟨3⟩, body := .absent } },
    { kind := .exportKeyword, start := 49, stop := 55 },
    { kind := .identifier, start := 60, stop := 65, payload := .identifier "sides" },
    { kind := .numberKeyword, start := 67, stop := 73 },
    { kind := .numericLiteral, start := 76, stop := 77, payload := .literal "4" },
    { kind := .variableDeclaration, start := 60, stop := 77
      payload := .declarator { name := ⟨6⟩, typeNode := ⟨7⟩, initializer := ⟨8⟩ } },
    { kind := .identifier, start := 79, stop := 84, payload := .identifier "angle" },
    { kind := .variableDeclaration, start := 79, stop := 84
      payload := .declarator { name := ⟨10⟩, typeNode := .absent, initializer := .absent } },
    { kind := .variableStatement, start := 49, stop := 85
      payload := .variableStatement { modifiers := some [⟨5⟩], declarations := [⟨9⟩, ⟨11⟩] } },
    { kind := .moduleBlock, start := 17, stop := 87, payload := .block [⟨4⟩, ⟨12⟩] },
    { kind := .moduleDeclaration, start := 0, stop := 87
      payload := .namespaceDecl { modifiers := none, name := ⟨0⟩, body := ⟨13⟩ } }]
  statements := [⟨14⟩]
  commentMap := .ofList
    [(4, [{ text := some "Of a shape." }]), (12, [{ text := some "Of a square." }])]

/-- Two files of one directory that open the same namespace. -/
def areaProgram : Program where
  files := #[bigFile, areaFile]

theorem toList_sevens (count : Nat) : (sevens count).toList = List.replicate count '7' :=
  String.toList_ofList

/-- The long initializer, as it stands between the other parts of its file. -/
theorem nodeText_bigFile : bigFile.nodeText ⟨6⟩ = sevens 300 := by
  let front := "namespace shapes \x7b function area(): number; export let big = "
  have start : Text.byteLength front.toList = 61 := by decide +kernel
  have width : Text.byteLength (sevens 300).toList = 300 :=
    toList_sevens 300 ▸ (by decide +kernel : Text.byteLength (List.replicate 300 '7') = 300)
  have cut := Text.slice_append front.toList (sevens 300).toList " \x7d".toList
  rw [start, width, ← String.toList_append, ← String.toList_append] at cut
  show String.ofList ((Text.slice bigFile.text.toList 61 361).getD []) = sevens 300
  rw [bigFile, cut, Option.getD_some, String.ofList_toList]

/-- The functions and variables of both files, in the order of a walk that begins with the second
file. -/
theorem filings_areaProgram :
    let settings := Settings.ofBase "/project"
    areaProgram.filings settings [⟨1⟩, ⟨0⟩] =
      [⟨4⟩, ⟨12⟩].map
          (Filing.mk ⟨1⟩ areaFile (route (settings.directoriesOf areaFile) ["shapes"])) ++
        [⟨3⟩, ⟨8⟩].map
          (Filing.mk ⟨0⟩ bigFile (route (settings.directoriesOf bigFile) ["shapes"])) := by
  intro settings
  have areaEntries : areaFile.entries =
      [⟨["shapes"], none⟩, ⟨["shapes"], some ⟨4⟩⟩, ⟨["shapes"], some ⟨12⟩⟩] := by
    decide +kernel
  have bigEntries : bigFile.entries =
      [⟨["shapes"], none⟩, ⟨["shapes"], some ⟨3⟩⟩, ⟨["shapes"], some ⟨8⟩⟩] := by
    decide +kernel
  have ofArea : areaProgram.filingsOf settings ⟨1⟩ = _ :=
    congrArg (List.filterMap (settings.filingOf? ⟨1⟩ areaFile)) areaEntries
  have ofBig : areaProgram.filingsOf settings ⟨0⟩ = _ :=
    congrArg (List.filterMap (settings.filingOf? ⟨0⟩ bigFile)) bigEntries
  rw [Program.filings, List.flatMap_cons, List.flatMap_cons, List.flatMap_nil, List.append_nil,
    ofArea, ofBig]
  rfl

/-- What the constants of both files show: of the long initializer it is the first 256 digits. -/
theorem constants_areaProgram (resolver : Resolver Id) (module : DocModule) :
    ((areaProgram.filings (.ofBase "/project") [⟨1⟩, ⟨0⟩]).flatMap
        (Filing.constants · resolver module)).map
        (fun constant => (constant.name, constant.content)) =
      [("sides", "4"), ("big", sevens 256 ++ "...")] := by
  have noneInArea : areaFile.exportedDeclarators ⟨4⟩ = [] := rfl
  have sides : areaFile.exportedDeclarators ⟨12⟩ =
      [(⟨9⟩, { name := ⟨6⟩, typeNode := ⟨7⟩, initializer := ⟨8⟩ })] := rfl
  have noneInBig : bigFile.exportedDeclarators ⟨3⟩ = [] := rfl
  have big : bigFile.exportedDeclarators ⟨8⟩ =
      [(⟨7⟩, { name := ⟨5⟩, typeNode := .absent, initializer := ⟨6⟩ })] := rfl
  have four : areaFile.nodeText ⟨8⟩ = "4" := by decide +kernel
  have short : "4".length ≤ 256 := by decide
  have long : ¬(sevens 300).length ≤ 256 := by
    rw [← String.length_toList, toList_sevens, List.length_replicate]
    decide
  have front : String.ofList ((sevens 300).toList.take 256) = sevens 256 := by
    rw [toList_sevens, List.take_replicate]
    rfl
  rw [filings_areaProgram]
  simp only [List.map_cons, List.map_nil, List.flatMap_cons, List.flatMap_nil, Filing.constants,
    noneInArea, sides, noneInBig, big, List.nil_append, List.append_nil, List.cons_append, four,
    if_pos short, nodeText_bigFile, if_neg long, front]
  rfl

/-- The function that two files declare in the namespace they share has two signatures, and the
declaration that is met first gives the rest.  Of the variables declared there the initialized ones
are constants, and the one with the long initializer shows 256 digits of it. -/
theorem functions_and_constants_collected_area :
    ∃ documentation module record,
      extractFiles areaProgram (.ofBase "/project") [⟨1⟩, ⟨0⟩] = .ok documentation ∧
        documentation.tree.get? 2 = some module ∧ module.path = ["plane", "shapes"] ∧
        module.functions.find? "area" = some record ∧ record.exported = true ∧
        record.doc.bind (·.comment) = some "Of a shape." ∧
        record.location.position = some ⟨0, 19⟩ ∧
        record.signatures.map (·.result matches some (.keyword .void)) = [true, false] ∧
        module.constants.map (fun constant => (constant.name, constant.content)) =
          [("sides", "4"), ("big", sevens 256 ++ "...")] ∧
        module.constants.map (·.type matches some (.keyword .number)) = [true, false] := by
  obtain ⟨documentation, succeeds, collects⟩ := functions_and_constants_collected areaProgram
    (.ofBase "/project") [⟨1⟩, ⟨0⟩] (by decide)
  let resolver := (Extraction.direct areaProgram (.ofBase "/project")).resolver
  have evaluated : (extractFiles areaProgram (.ofBase "/project") [⟨1⟩, ⟨0⟩]).toOption.any
      fun documentation => (documentation.tree.get? 2).any fun module =>
        let filings := areaProgram.filings (.ofBase "/project") [⟨1⟩, ⟨0⟩]
        let overloads := (documentation.tree.filedIn 2 filings).filter fun filing =>
          filing.functionName? = some "area"
        module.path = ["plane", "shapes"] ∧
          (∀ filing ∈ filings, documentation.tree.follow? ModuleTree.rootId filing.steps = some 2) ∧
          overloads.map (·.exportsFunction) = [true, false] ∧
          overloads.head?.bind (fun first => (first.doc? resolver module).bind (·.comment)) =
            some "Of a shape." ∧
          overloads.head?.bind (fun first =>
            ((first.scope module).location first.statement).position) = some ⟨0, 19⟩ ∧
          (overloads.map (Filing.signature? · resolver module)).map
            (fun signature => signature.bind (·.result) matches some (.keyword .void)) =
              [true, false] ∧
          (filings.flatMap (Filing.constants · resolver module)).map
            (·.type matches some (.keyword .number)) = [true, false] := by
    decide +kernel
  rw [succeeds, Except.toOption, Option.any_some] at evaluated
  obtain ⟨module, found, holds⟩ := (Option.any_eq_true _ _).1 evaluated
  obtain ⟨path, filed, exports, doc, position, results, types⟩ := of_decide_eq_true holds
  obtain ⟨-, lookUp, listed⟩ := collects 2 module found
  rw [ModuleTree.filedIn, List.filter_eq_self.2 (by simpa using filed)] at listed
  have byName := lookUp "area"
  split at byName
  · rename_i none
    rw [none] at exports
    cases exports
  · rename_i first others overloads
    obtain ⟨record, isFound, collected⟩ := byName
    rw [overloads] at exports doc position results
    refine ⟨documentation, module, record, succeeds, found, path, isFound, ?_, ?_, ?_, ?_, ?_, ?_⟩
    · exact collected.exported.trans (List.cons.inj exports).1
    · rw [collected.doc]
      exact doc
    · rw [collected.location]
      exact position
    · rw [← collected.signatures, List.map_map] at results
      exact results
    · rw [listed, constants_areaProgram]
    · rw [listed]
      exact types

end ApiDocs
