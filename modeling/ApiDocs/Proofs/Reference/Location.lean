import ApiDocs.Proofs.Collect.Walk
import ApiDocs.Proofs.Extract.Merging
import ApiDocs.Proofs.Reference.Chain

/-!
# References lead to declarations

A declaration and a reference to it find their way independently.  The walk enters directories and
namespaces as it meets them in the syntax; the index follows the parents of a symbol and recomputes
the directories of its file.  Both come to **the same path**: the directories of the file below the
base directory, and then the names of the namespaces, outermost first.

## Main definitions

* `DocModule.Documents` — a module has a record in which a declaration takes part.

## Main statements

* `documents_ofDeclarations` — a module documents what is filed in it.
* `locate?_eq` — the reference of a symbol of the project.
* `references_lead_to_declarations` — the module of a declaration has the path of its reference.
-/

namespace ApiDocs

/-! ## Modules document what is filed in them -/

/-- A module has a record under the name of a declaration, in which the declaration takes part.  A
class or type alias of a later declaration may have taken the place of an earlier one. -/
def DocModule.Documents (module : DocModule) : Declaration → Prop
  | .classDecl record => record.name ∈ module.classes.keys
  | .interfaceDecl own =>
    ∃ record, module.interfaces.find? own.name = some record ∧ own.location ∈ record.locations
  | .enumDecl own =>
    ∃ record, module.enums.find? own.name = some record ∧ own.location ∈ record.locations
  | .aliasDecl record => record.name ∈ module.aliases.keys
  | .functionDecl own =>
    ∃ record, module.functions.find? own.name = some record ∧ own.signature ∈ record.signatures
  | .constants records => records ⊆ module.constants

namespace DocModule

/-- Whether a module documents a declaration depends on its content only. -/
theorem documents_content {module : DocModule} {declaration : Declaration} :
    module.content.Documents declaration ↔ module.Documents declaration := by
  cases declaration <;> exact Iff.rfl

/-- A declaration of a kind is among the declarations of its kind and name. -/
theorem mem_filter_of_mem {δ : Type} (select : Declaration → Option δ) (key : δ → String)
    {declarations : List Declaration} {declaration : Declaration} {own : δ}
    (member : declaration ∈ declarations) (selected : select declaration = some own) :
    own ∈ (declarations.filterMap select).filter (key · = key own) :=
  List.mem_filter.2 ⟨List.mem_filterMap.2 ⟨declaration, member, selected⟩, by simp⟩

theorem documents_ofDeclarations {declarations : List Declaration} {declaration : Declaration}
    (member : declaration ∈ declarations) :
    (ofDeclarations declarations).Documents declaration := by
  cases declaration with
  | classDecl record =>
      show record.name ∈ (ofDeclarations declarations).classes.keys
      rw [keys_classes_ofDeclarations, List.mem_eraseDups]
      exact List.mem_map_of_mem (List.mem_filterMap.2 ⟨_, member, rfl⟩)
  | interfaceDecl own =>
      have among := mem_filter_of_mem Declaration.interface? (·.name) member rfl
      refine ⟨.ofDeclarations own.name _, ?_, List.mem_map_of_mem among⟩
      rw [find?_interfaces_ofDeclarations, if_neg (List.ne_nil_of_mem among)]
  | enumDecl own =>
      have among := mem_filter_of_mem Declaration.enum? (·.name) member rfl
      refine ⟨.ofDeclarations own.name _, ?_, List.mem_map_of_mem among⟩
      rw [find?_enums_ofDeclarations, if_neg (List.ne_nil_of_mem among)]
  | aliasDecl record =>
      show record.name ∈ (ofDeclarations declarations).aliases.keys
      rw [keys_aliases_ofDeclarations, List.mem_eraseDups]
      exact List.mem_map_of_mem (List.mem_filterMap.2 ⟨_, member, rfl⟩)
  | functionDecl own =>
      have among := mem_filter_of_mem Declaration.function? (·.name) member rfl
      obtain ⟨first, isFirst⟩ := Option.ne_none_iff_exists'.1
        (mt List.head?_eq_none_iff.1 (List.ne_nil_of_mem among))
      show ∃ record, (ofDeclarations declarations).functions.find? own.name = some record ∧ _
      rw [find?_functions_ofDeclarations, isFirst]
      exact ⟨_, rfl, List.mem_map_of_mem among⟩
  | constants records =>
      intro record inRecords
      rw [constants_ofDeclarations]
      exact List.mem_flatten.2 ⟨records, List.mem_filterMap.2 ⟨_, member, rfl⟩, inRecords⟩

end DocModule

/-! ## The reference of a symbol -/

/-- The reference of a symbol of the project: its path leads through the directories of the file of
its first declaration and then through the modules around it. -/
theorem Program.locate?_eq {program : Program} {base : String} {id : SymbolId} {symbol : Symbol}
    {site : DeclarationSite} {source : SourceFile} {segments names : List String}
    (found : program.symbol? id = some symbol) (declared : symbol.declarations.head? = some site)
    (known : program.file? site.file = some source)
    (below : Path.segments? base source.path = some segments)
    (unspecified : symbol.specifier = none) (visible : symbol.hasAny Flag.internal = false)
    (noParameter : symbol.hasAny Flag.typeParameter = false)
    (chain : program.ModuleChain symbol.parent names.reverse) :
    program.locate? base id = some (.declaration
      ⟨symbol.name, segments ++ names, false, DeclarationKind.ofFlags? symbol.flags⟩) := by
  have isListed : symbol.hasAny Flag.unlisted = false :=
    Flag.meets_or_eq_false.2 ⟨visible, noParameter⟩
  have path : program.modulePath? base symbol = some (segments ++ names) := by
    simp only [modulePath?, declared, known, below, namespaceChain_eq chain,
      Option.bind_eq_bind, Option.bind_some]
  simp only [locate?, found, isListed, referenceOf, unspecified, path]
  rfl

/-! ## Both paths agree -/

/-- A statement that the walk meets in a listed file is filed, on the way through the directories
of the file and the namespaces around the statement. -/
theorem Program.mem_filings {program : Program} (settings : Settings) {files : List FileId}
    {file : FileId} {source : SourceFile} {names : List String} {index : NodeIndex}
    (listed : file ∈ files) (found : program.file? file = some source)
    (met : ⟨names, some index⟩ ∈ source.entries) :
    ⟨file, source, route (settings.directoriesOf source) names, index⟩ ∈
      program.filings settings files := by
  refine List.mem_flatMap.2 ⟨file, listed, ?_⟩
  simp only [filingsOf, found]
  exact List.mem_filterMap.2 ⟨_, met, rfl⟩

/-- **References lead to declarations.**  Let a file lie in the directories `segments` below the
base directory.  In the documentation of known files with that file among them, a statement that the
walk meets inside the namespaces `names` is filed in the module that these directories and
namespaces lead to, by look-up and along children, and the path of that module is
`segments ++ names`.  A symbol that is first declared in the
file, comes from no other module, is neither a placeholder nor a type parameter and has the modules
`names` around it gets a reference with exactly this path, whatever was looked up before. -/
theorem references_lead_to_declarations (program : Program) (settings : Settings)
    (files : List FileId) (known : ∀ file ∈ files, (program.file? file).isSome = true)
    {file : FileId} {source : SourceFile} {segments : List String} (listed : file ∈ files)
    (found : program.file? file = some source)
    (below : Path.segments? settings.baseDirectory source.path = some segments) :
    ∃ documentation, extractFiles program settings files = .ok documentation ∧
      ∀ names : List String,
        (∀ index, ⟨names, some index⟩ ∈ source.entries →
          (∃ outer ∈ source.statements, source.Inside outer names index) ∧
            ∃ id module,
              documentation.tree.follow? ModuleTree.rootId (route segments names) = some id ∧
                documentation.tree.Leads ModuleTree.rootId (route segments names) id ∧
                documentation.tree.get? id = some module ∧ module.path = segments ++ names ∧
                ∀ declaration,
                  (Extraction.direct program settings).resolver.declaration?
                      (.ofModule file source module) index = some declaration →
                    module.Documents declaration) ∧
          ∀ id symbol site memory, program.symbol? id = some symbol →
            symbol.declarations.head? = some site → site.file = file →
            symbol.specifier = none → symbol.hasAny Flag.internal = false →
            symbol.hasAny Flag.typeParameter = false →
            program.ModuleChain symbol.parent names.reverse →
            ReferenceIndex.Reached program settings.baseDirectory settings.builtins memory →
            ((ReferenceIndex.remembering program settings.baseDirectory
                settings.builtins).bySymbol id memory).1 =
              some (.declaration
                ⟨symbol.name, segments ++ names, false, DeclarationKind.ofFlags? symbol.flags⟩) := by
  obtain ⟨documentation, succeeds, collected⟩ := extractFiles_collected program settings known
  have directories : settings.directoriesOf source = segments := by
    rw [Settings.directoriesOf, below, Option.getD_some]
  refine ⟨documentation, succeeds, fun names => ⟨fun index met => ?_, ?_⟩⟩
  · -- The walk: the statement is filed, and its way leads to a module that documents it.
    refine ⟨(SourceFile.mem_entries_iff.1 met).1, ?_⟩
    have filed := Program.mem_filings settings listed found met
    rw [directories] at filed
    obtain ⟨id, module, follow, there, path⟩ := collected.reached filed
    refine ⟨id, module, follow, collected.wellFormed.leads follow, there,
      by rw [path, map_name_route], fun declaration declared => ?_⟩
    have member : declaration ∈
        documentation.declarationsIn program settings files id module :=
      List.mem_filterMap.2 ⟨_, List.mem_filter.2 ⟨filed, decide_eq_true follow⟩, declared⟩
    rw [← DocModule.documents_content, collected.content_eq there]
    exact DocModule.documents_ofDeclarations member
  · -- The index: what it answers is what it would derive.
    intro id symbol site memory isSymbol declared inFile unspecified visible noParameter chain
      reached
    subst inFile
    rw [(ReferenceIndex.agrees_bySymbol program settings.baseDirectory settings.builtins id memory
      reached.recalls).1]
    exact program.locate?_eq isSymbol declared found below unspecified visible noParameter chain

/-- A file that declares the class `Point` in a namespace with a dotted name. -/
def dottedFile : SourceFile :=
  .ofNodes "/project/geometry/point.ts" "namespace plane.shapes { class Point { } }"
    #[{ kind := .identifier, start := 10, stop := 15, payload := .identifier "plane" },
      { kind := .identifier, start := 16, stop := 22, payload := .identifier "shapes" },
      { kind := .identifier, start := 31, stop := 36, payload := .identifier "Point" },
      { kind := .classDeclaration, start := 25, stop := 40
        payload := .classDecl
          { modifiers := none, name := ⟨2⟩, typeParameters := none, heritage := none
            members := [] } },
      { kind := .moduleBlock, start := 23, stop := 42, payload := .block [⟨3⟩] },
      { kind := .moduleDeclaration, start := 16, stop := 42
        payload := .namespaceDecl { modifiers := none, name := ⟨1⟩, body := ⟨4⟩ } },
      { kind := .moduleDeclaration, start := 0, stop := 42
        payload := .namespaceDecl { modifiers := none, name := ⟨0⟩, body := ⟨5⟩ } }]
    [⟨6⟩]

/-- The program with that file, and the symbols of the two namespaces and of the class. -/
def dottedProgram : Program where
  files := #[dottedFile]
  symbols := #[
    { name := "plane", flags := Flag.module, declarations := [⟨⟨0⟩, ⟨6⟩⟩] },
    { name := "shapes", flags := Flag.module, parent := some ⟨0⟩
      declarations := [⟨⟨0⟩, ⟨5⟩⟩] },
    { name := "Point", flags := Flag.classType, parent := some ⟨1⟩
      declarations := [⟨⟨0⟩, ⟨3⟩⟩] }]

/-- The class in the namespace with a dotted name is documented where its reference leads. -/
theorem references_lead_to_declarations_point :
    ∃ documentation id module,
      extractFiles dottedProgram (.ofBase "/project") [⟨0⟩] = .ok documentation ∧
        documentation.tree.follow? ModuleTree.rootId (route ["geometry"] ["plane", "shapes"]) =
          some id ∧
        documentation.tree.get? id = some module ∧
        module.path = ["geometry", "plane", "shapes"] ∧ "Point" ∈ module.classes.keys ∧
        ((ReferenceIndex.remembering dottedProgram "/project" []).bySymbol ⟨2⟩ {}).1 =
          some (.declaration
            ⟨"Point", ["geometry", "plane", "shapes"], false, some .classType⟩) := by
  obtain ⟨documentation, succeeds, agree⟩ := references_lead_to_declarations dottedProgram
    (.ofBase "/project") [⟨0⟩] (by decide) (List.mem_singleton_self _)
    (show dottedProgram.file? ⟨0⟩ = some dottedFile from rfl)
    (show Path.segments? "/project" dottedFile.path = some ["geometry"] by
      decide +kernel)
  obtain ⟨walk, index⟩ := agree ["plane", "shapes"]
  obtain ⟨-, id, module, follow, -, found, path, documents⟩ := walk ⟨3⟩ (by decide +kernel)
  have plane : dottedProgram.symbol? ⟨0⟩ =
      some { name := "plane", flags := Flag.module, declarations := [⟨⟨0⟩, ⟨6⟩⟩] } := rfl
  have shapes : dottedProgram.symbol? ⟨1⟩ =
      some { name := "shapes", flags := Flag.module, parent := some ⟨0⟩
             declarations := [⟨⟨0⟩, ⟨5⟩⟩] } := rfl
  have chain : dottedProgram.ModuleChain (some ⟨1⟩) ["shapes", "plane"] :=
    .module shapes (by decide) (.module plane (by decide) .root)
  refine ⟨documentation, id, module, succeeds, follow, found, path, ?_, ?_⟩
  · exact documents (.classDecl _) rfl
  · exact index ⟨2⟩ _ _ {} rfl rfl rfl rfl (by decide) (by decide) chain .empty

end ApiDocs
