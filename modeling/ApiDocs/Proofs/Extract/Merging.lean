import ApiDocs.Proofs.Extract.Declarations

/-!
# Interfaces and enums merge

The declarations of one interface may lie in several files and in several bodies of one namespace,
and their parts are filed by different passes.  In the documentation none of this shows: the record
of a name is put together from **all declarations of the name that are filed in the module**, in the
order of the walk.

## Main definitions

* `InterfaceRecord.ofDeclarations`, `EnumRecord.ofDeclarations` — the record that a list of
  declarations makes.

## Main statements

* `interfaces_and_enums_merge` — the interfaces and enums of every module of the documentation.

## Design notes

**Each field merges in its own way.**  Most fields accumulate, an export of one declaration exports
all, the first type parameters stay, and an enum is constant if its first declaration says so.
-/

namespace ApiDocs

/-- The record of an interface with the given declarations. -/
def InterfaceRecord.ofDeclarations (name : String) (declarations : List InterfaceDeclaration) :
    InterfaceRecord where
  name
  typeParameters :=
    ((declarations.map (·.typeParameters)).find? (!·.isEmpty)).getD []
  members := declarations.flatMap (·.members)
  bases := declarations.flatMap (·.bases)
  locations := declarations.map (·.location)
  docs := declarations.filterMap (·.doc)
  exported := declarations.any (·.exported)

/-- The record of an enum with the given declarations. -/
def EnumRecord.ofDeclarations (name : String) (declarations : List EnumDeclaration) :
    EnumRecord where
  name
  members := declarations.flatMap (·.members)
  locations := declarations.map (·.location)
  docs := declarations.filterMap (·.doc)
  exported := declarations.any (·.exported)
  isConst := declarations.head?.any (·.isConst)

/-! ## The two passes over the declarations of a name -/

/-- The first pass adds locations, documentation and exports. -/
theorem Skeleton.foldl_extendInterface (declarations : List InterfaceDeclaration) :
    ∀ record : InterfaceRecord,
      declarations.foldl
          (fun record own => extendInterface own.exported own.location own.doc record) record =
        { record with
          exported := record.exported || declarations.any (·.exported)
          locations := record.locations ++ declarations.map (·.location)
          docs := record.docs ++ declarations.filterMap (·.doc) } := by
  induction declarations with
  | nil => intro record; simp
  | cons first rest ih =>
      intro record
      rw [List.foldl_cons, ih]
      cases documented : first.doc <;> simp [extendInterface, documented, Bool.or_assoc]

/-- The second pass adds members and bases, and type parameters as long as there are none. -/
theorem Contribution.foldl_extendInterface (declarations : List InterfaceDeclaration) :
    ∀ record : InterfaceRecord,
      declarations.foldl
          (fun record own => extendInterface own.typeParameters own.members own.bases record)
          record =
        { record with
          typeParameters :=
            (((record.typeParameters :: declarations.map (·.typeParameters)).find?
              (!·.isEmpty)).getD [])
          members := record.members ++ declarations.flatMap (·.members)
          bases := record.bases ++ declarations.flatMap (·.bases) } := by
  induction declarations with
  | nil =>
      intro record
      obtain ⟨name, typeParameters⟩ := record
      cases typeParameters <;> simp
  | cons first rest ih =>
      intro record
      rw [List.foldl_cons, ih]
      cases given : record.typeParameters <;> simp [extendInterface, given]

theorem Skeleton.foldl_extendEnum (declarations : List EnumDeclaration) :
    ∀ record : EnumRecord,
      declarations.foldl
          (fun record own => extendEnum own.exported own.location own.doc own.members record)
          record =
        { record with
          exported := record.exported || declarations.any (·.exported)
          locations := record.locations ++ declarations.map (·.location)
          docs := record.docs ++ declarations.filterMap (·.doc)
          members := record.members ++ declarations.flatMap (·.members) } := by
  induction declarations with
  | nil => intro record; simp
  | cons first rest ih =>
      intro record
      rw [List.foldl_cons, ih]
      cases documented : first.doc <;> simp [extendEnum, documented, Bool.or_assoc]

/-- The second pass adds the signatures of functions. -/
theorem foldl_signatures (declarations : List FunctionDeclaration) :
    ∀ record : FunctionRecord,
      declarations.foldl
          (fun record own => { record with signatures := record.signatures ++ [own.signature] })
          record =
        { record with signatures := record.signatures ++ declarations.map (·.signature) } := by
  induction declarations with
  | nil => intro record; simp
  | cons first rest ih =>
      intro record
      rw [List.foldl_cons, ih]
      simp

/-! ## Look-up in a module -/

namespace DocModule

variable (declarations : List Declaration) (name : String)

/-- The record of an interface is made of all its declarations. -/
theorem find?_interfaces_ofDeclarations :
    (ofDeclarations declarations).interfaces.find? name =
      if (declarations.filterMap Declaration.interface?).filter (·.name = name) = [] then none
      else some (.ofDeclarations name
        ((declarations.filterMap Declaration.interface?).filter (·.name = name))) := by
  rw [interfaces_ofDeclarations, Table.find?_revise, Table.find?_gather]
  cases split : (declarations.filterMap Declaration.interface?).filter (·.name = name) with
  | nil => rfl
  | cons first rest =>
      rw [Table.merged, Option.map_some, Skeleton.foldl_extendInterface,
        Contribution.foldl_extendInterface, if_neg (List.cons_ne_nil first rest)]
      simp [InterfaceRecord.ofDeclarations, Table.key_of_filter_eq_cons split]

/-- The record of an enum is made of all its declarations. -/
theorem find?_enums_ofDeclarations :
    (ofDeclarations declarations).enums.find? name =
      if (declarations.filterMap Declaration.enum?).filter (·.name = name) = [] then none
      else some (.ofDeclarations name
        ((declarations.filterMap Declaration.enum?).filter (·.name = name))) := by
  rw [enums_ofDeclarations, Table.find?_gather]
  cases split : (declarations.filterMap Declaration.enum?).filter (·.name = name) with
  | nil => rfl
  | cons first rest =>
      rw [Table.merged, Skeleton.foldl_extendEnum, if_neg (List.cons_ne_nil first rest)]
      simp [EnumRecord.ofDeclarations, Table.key_of_filter_eq_cons split]

/-- A function has the signatures of all its declarations, and the first of them gives the rest. -/
theorem find?_functions_ofDeclarations :
    (ofDeclarations declarations).functions.find? name =
      ((declarations.filterMap Declaration.function?).filter (·.name = name)).head?.map
        fun first =>
          { name
            location := first.signature.location
            doc := first.signature.doc
            exported := first.exported
            signatures :=
              ((declarations.filterMap Declaration.function?).filter (·.name = name)).map
                (·.signature) } := by
  rw [functions_ofDeclarations, Table.find?_gather]
  cases split : (declarations.filterMap Declaration.function?).filter (·.name = name) with
  | nil => rfl
  | cons first rest =>
      rw [Table.merged, foldl_signatures]
      simp [Contribution.newFunction, Table.key_of_filter_eq_cons split]

end DocModule

/-- **Declarations merge, and nothing is lost.**  In the documentation of known files, an interface
of a module has the locations, the documentation, the members and the bases of all declarations of
its name that are filed in the module, in the order of the walk; it is exported if one of them is,
and it has the first type parameters that are not empty.  The same holds for enums, where the first
declaration says whether the enum is constant.  Names stand in the order in which they are first
declared, and no other names are there. -/
theorem interfaces_and_enums_merge (program : Program) (settings : Settings)
    (files : List FileId) (known : ∀ file ∈ files, (program.file? file).isSome = true) :
    ∃ documentation, extractFiles program settings files = .ok documentation ∧
      ∀ id module, documentation.tree.get? id = some module →
        let declarations := documentation.declarationsIn program settings files id module
        let interfaces := declarations.filterMap Declaration.interface?
        let enums := declarations.filterMap Declaration.enum?
        module.interfaces.keys = (interfaces.map (·.name)).eraseDups ∧
          (∀ name, module.interfaces.find? name =
            if interfaces.filter (·.name = name) = [] then none
            else some (.ofDeclarations name (interfaces.filter (·.name = name)))) ∧
          module.enums.keys = (enums.map (·.name)).eraseDups ∧
          ∀ name, module.enums.find? name =
            if enums.filter (·.name = name) = [] then none
            else some (.ofDeclarations name (enums.filter (·.name = name))) := by
  obtain ⟨documentation, succeeds, collected⟩ := extractFiles_collected program settings known
  refine ⟨documentation, succeeds, fun id module found => ?_⟩
  intro declarations own ownEnums
  have content : module.content = .ofDeclarations declarations := collected.content_eq found
  have interfaces : module.interfaces = (DocModule.ofDeclarations declarations).interfaces :=
    congrArg (·.interfaces) content
  have enums : module.enums = (DocModule.ofDeclarations declarations).enums :=
    congrArg (·.enums) content
  rw [interfaces, enums]
  exact ⟨DocModule.keys_interfaces_ofDeclarations declarations,
    DocModule.find?_interfaces_ofDeclarations declarations,
    DocModule.keys_enums_ofDeclarations declarations,
    DocModule.find?_enums_ofDeclarations declarations⟩

/-- A file that opens the namespace `shapes` and declares the interface `Dot` and the constant enum
`Side` there. -/
def firstDotsFile : SourceFile where
  path := "/project/plane/first.ts"
  text :=
    "namespace shapes { export interface Dot<T> extends Base { x: T } const enum Side { Up = 1 } }"
  arena.nodes := #[
    { kind := .identifier, start := 10, stop := 16, payload := .identifier "shapes" },
    { kind := .exportKeyword, start := 19, stop := 25 },
    { kind := .identifier, start := 36, stop := 39, payload := .identifier "Dot" },
    { kind := .identifier, start := 40, stop := 41, payload := .identifier "T" },
    { kind := .typeParameter, start := 40, stop := 41
      payload := .typeParameter { name := ⟨3⟩, constraint := .absent, default := .absent } },
    { kind := .identifier, start := 51, stop := 55, payload := .identifier "Base" },
    { kind := .expressionWithTypeArguments, start := 51, stop := 55
      payload := .heritageEntry ⟨5⟩ none },
    { kind := .heritageClause, start := 43, stop := 55
      payload := .heritage .extendsKeyword [⟨6⟩] },
    { kind := .identifier, start := 58, stop := 59, payload := .identifier "x" },
    { kind := .identifier, start := 61, stop := 62, payload := .identifier "T" },
    { kind := .typeReference, start := 61, stop := 62, payload := .typeReference ⟨9⟩ none },
    { kind := .propertySignature, start := 58, stop := 62
      payload := .property
        { modifiers := none, name := ⟨8⟩, optional := false
          typeNode := ⟨10⟩, initializer := .absent } },
    { kind := .interfaceDeclaration, start := 19, stop := 64
      payload := .interfaceDecl
        { modifiers := some [⟨1⟩], name := ⟨2⟩, typeParameters := some [⟨4⟩]
          heritage := some [⟨7⟩], members := [⟨11⟩] } },
    { kind := .constKeyword, start := 65, stop := 70 },
    { kind := .identifier, start := 76, stop := 80, payload := .identifier "Side" },
    { kind := .identifier, start := 83, stop := 85, payload := .identifier "Up" },
    { kind := .numericLiteral, start := 88, stop := 89, payload := .literal "1" },
    { kind := .enumMember, start := 83, stop := 89, payload := .enumMember ⟨15⟩ ⟨16⟩ },
    { kind := .enumDeclaration, start := 65, stop := 91
      payload := .enumDecl { modifiers := some [⟨13⟩], name := ⟨14⟩, members := [⟨17⟩] } },
    { kind := .moduleBlock, start := 17, stop := 93, payload := .block [⟨12⟩, ⟨18⟩] },
    { kind := .moduleDeclaration, start := 0, stop := 93
      payload := .namespaceDecl { modifiers := none, name := ⟨0⟩, body := ⟨19⟩ } }]
  statements := [⟨20⟩]
  commentMap := .ofList
    [(12, [{ text := some "A dot." }]), (18, [{ text := some "Up or down." }])]

/-- A file that opens the namespace again and adds to both. -/
def secondDotsFile : SourceFile where
  path := "/project/plane/second.ts"
  text :=
    "namespace shapes { interface Dot<U> extends Mark, Tip { y } export enum Side { Down } }"
  arena.nodes := #[
    { kind := .identifier, start := 10, stop := 16, payload := .identifier "shapes" },
    { kind := .identifier, start := 29, stop := 32, payload := .identifier "Dot" },
    { kind := .identifier, start := 33, stop := 34, payload := .identifier "U" },
    { kind := .typeParameter, start := 33, stop := 34
      payload := .typeParameter { name := ⟨2⟩, constraint := .absent, default := .absent } },
    { kind := .identifier, start := 44, stop := 48, payload := .identifier "Mark" },
    { kind := .expressionWithTypeArguments, start := 44, stop := 48
      payload := .heritageEntry ⟨4⟩ none },
    { kind := .identifier, start := 50, stop := 53, payload := .identifier "Tip" },
    { kind := .expressionWithTypeArguments, start := 50, stop := 53
      payload := .heritageEntry ⟨6⟩ none },
    { kind := .heritageClause, start := 36, stop := 53
      payload := .heritage .extendsKeyword [⟨5⟩, ⟨7⟩] },
    { kind := .identifier, start := 56, stop := 57, payload := .identifier "y" },
    { kind := .propertySignature, start := 56, stop := 57
      payload := .property
        { modifiers := none, name := ⟨9⟩, optional := false
          typeNode := .absent, initializer := .absent } },
    { kind := .interfaceDeclaration, start := 19, stop := 59
      payload := .interfaceDecl
        { modifiers := none, name := ⟨1⟩, typeParameters := some [⟨3⟩]
          heritage := some [⟨8⟩], members := [⟨10⟩] } },
    { kind := .exportKeyword, start := 60, stop := 66 },
    { kind := .identifier, start := 72, stop := 76, payload := .identifier "Side" },
    { kind := .identifier, start := 79, stop := 83, payload := .identifier "Down" },
    { kind := .enumMember, start := 79, stop := 83, payload := .enumMember ⟨14⟩ .absent },
    { kind := .enumDeclaration, start := 60, stop := 85
      payload := .enumDecl { modifiers := some [⟨12⟩], name := ⟨13⟩, members := [⟨15⟩] } },
    { kind := .moduleBlock, start := 17, stop := 87, payload := .block [⟨11⟩, ⟨16⟩] },
    { kind := .moduleDeclaration, start := 0, stop := 87
      payload := .namespaceDecl { modifiers := none, name := ⟨0⟩, body := ⟨17⟩ } }]
  statements := [⟨18⟩]
  commentMap := .ofList
    [(11, [{ text := some "With a tip." }])]

/-- Two files of one directory that open the same namespace. -/
def dotsProgram : Program where
  files := #[firstDotsFile, secondDotsFile]

/-- Two files declare an interface and an enum in the namespace that they share.  The records have
the parts of both declarations; only the first interface gives its type parameter, and the enum is
constant because the first one is. -/
theorem interfaces_and_enums_merge_shapes :
    ∃ documentation module dot side,
      extractFiles dotsProgram (.ofBase "/project") [⟨0⟩, ⟨1⟩] = .ok documentation ∧
        documentation.tree.get? 2 = some module ∧ module.path = ["plane", "shapes"] ∧
        module.interfaces.find? "Dot" = some dot ∧ module.enums.find? "Side" = some side ∧
        dot.typeParameters.map (·.name) = ["T"] ∧ dot.members.map (·.name) = ["x", "y"] ∧
        dot.bases.map (·.target) = [.written "Base", .written "Mark", .written "Tip"] ∧
        dot.docs.map (·.comment) = [some "A dot.", some "With a tip."] ∧
        dot.locations.map (·.position) = [some ⟨0, 19⟩, some ⟨0, 19⟩] ∧ dot.exported = true ∧
        side.members.map (fun member => (member.name, member.initializer)) =
          [("Up", some "1"), ("Down", none)] ∧
        side.docs.map (·.comment) = [some "Up or down."] ∧
        side.locations.map (·.position) = [some ⟨0, 65⟩, some ⟨0, 60⟩] ∧ side.exported = true ∧
        side.isConst = true := by
  obtain ⟨documentation, succeeds, merges⟩ := interfaces_and_enums_merge dotsProgram
    (.ofBase "/project") [⟨0⟩, ⟨1⟩] (by decide)
  have evaluated : (extractFiles dotsProgram (.ofBase "/project") [⟨0⟩, ⟨1⟩]).toOption.any
      fun documentation => (documentation.tree.get? 2).any fun module =>
        let declarations := documentation.declarationsIn dotsProgram (.ofBase "/project")
          [⟨0⟩, ⟨1⟩] 2 module
        let dots := (declarations.filterMap Declaration.interface?).filter (·.name = "Dot")
        let sides := (declarations.filterMap Declaration.enum?).filter (·.name = "Side")
        let dot := InterfaceRecord.ofDeclarations "Dot" dots
        let side := EnumRecord.ofDeclarations "Side" sides
        module.path = ["plane", "shapes"] ∧ dots ≠ [] ∧ sides ≠ [] ∧
          dot.typeParameters.map (·.name) = ["T"] ∧ dot.members.map (·.name) = ["x", "y"] ∧
          dot.bases.map (·.target) = [.written "Base", .written "Mark", .written "Tip"] ∧
          dot.docs.map (·.comment) = [some "A dot.", some "With a tip."] ∧
          dot.locations.map (·.position) = [some ⟨0, 19⟩, some ⟨0, 19⟩] ∧ dot.exported = true ∧
          side.members.map (fun member => (member.name, member.initializer)) =
            [("Up", some "1"), ("Down", none)] ∧
          side.docs.map (·.comment) = [some "Up or down."] ∧
          side.locations.map (·.position) = [some ⟨0, 65⟩, some ⟨0, 60⟩] ∧ side.exported = true ∧
          side.isConst = true := by
    decide +kernel
  rw [succeeds, Except.toOption, Option.any_some] at evaluated
  obtain ⟨module, found, holds⟩ := (Option.any_eq_true _ _).1 evaluated
  obtain ⟨path, dots, sides, values⟩ := of_decide_eq_true holds
  have merged := merges 2 module found
  exact ⟨documentation, module, _, _, succeeds, found, path,
    (merged.2.1 "Dot").trans (if_neg dots), (merged.2.2.2 "Side").trans (if_neg sides), values⟩

end ApiDocs
