import ApiDocs.Collect.ClassBody
import ApiDocs.Text.Excerpt
import ApiDocs.Tree.Module

/-!
# Contributions

The second pass resolves the types of every statement and fills in the skeletons; functions and
constants are recorded here for the first time.  What it learns from one statement is a
`Contribution`.

## Main definitions

* `SourceFile.expected?` — the record that a statement fills in and that has to be there.
* `Resolver.contribution?` — what the second pass learns from a statement.
* `Contribution.apply` — fills a contribution into a module.
-/

namespace ApiDocs

/-- The kinds of records that the first pass creates. -/
inductive RecordKind where
  | classRecord
  | interfaceRecord
  | enumRecord
  | aliasRecord
deriving DecidableEq

/-- How messages call a kind of record. -/
def RecordKind.word : RecordKind → String
  | classRecord => "class"
  | interfaceRecord => "interface"
  | enumRecord => "enum"
  | aliasRecord => "type"

/-- Whether a module has a record of a kind under a name. -/
def DocModule.hasRecord (module : DocModule) (name : String) : RecordKind → Bool
  | .classRecord => module.classes.contains name
  | .interfaceRecord => module.interfaces.contains name
  | .enumRecord => module.enums.contains name
  | .aliasRecord => module.aliases.contains name

/-- The record that a statement fills in: its kind and name. -/
def SourceFile.expected? (file : SourceFile) (index : NodeIndex) : Option (RecordKind × String) :=
  match file.arena.get? index with
  | none => none
  | some node =>
    match node.kind, node.payload with
    | .classDeclaration, .classDecl data => some (.classRecord, file.declarationName data.name)
    | .interfaceDeclaration, .interfaceDecl data =>
      some (.interfaceRecord, file.declarationName data.name)
    | .enumDeclaration, .enumDecl data => some (.enumRecord, file.declarationName data.name)
    | .typeAliasDeclaration, .aliasDecl data => some (.aliasRecord, file.declarationName data.name)
    | _, _ => none

/-- What the second pass learns from a statement. -/
inductive Contribution where
  | classDecl (name : String) (typeParameters : List (TypeParameter Ty))
      (base : Option TypeReference) (implemented : List TypeReference) (body : ClassBody)
  | interfaceDecl (name : String) (typeParameters : List (TypeParameter Ty))
      (members : List (Member Ty)) (bases : List TypeReference)
  | aliasDecl (name : String) (typeParameters : List (TypeParameter Ty)) (value : Option Ty)
  | functionDecl (name : String) (exported : Bool) (signature : FunctionSignature)
  | constants (records : List ConstantRecord)

namespace Contribution

/-- Adds a declaration of an interface to its record; the first type parameters stay. -/
def extendInterface (typeParameters : List (TypeParameter Ty)) (members : List (Member Ty))
    (bases : List TypeReference) (record : InterfaceRecord) : InterfaceRecord :=
  { record with
    typeParameters :=
      if record.typeParameters.isEmpty then typeParameters else record.typeParameters
    members := record.members ++ members
    bases := record.bases ++ bases }

/-- The record of a function without signatures; its first signature gives the location and the
documentation. -/
def newFunction (name : String) (exported : Bool) (first : FunctionSignature) : FunctionRecord :=
  { name, location := first.location, doc := first.doc, exported, signatures := [] }

/-- Fills a contribution into a module. -/
def apply (module : DocModule) : Contribution → DocModule
  | .classDecl name typeParameters base implemented body =>
    { module with
      classes := module.classes.update name fun record =>
        { record with typeParameters, base, implemented, body } }
  | .interfaceDecl name typeParameters members bases =>
    { module with
      interfaces := module.interfaces.update name (extendInterface typeParameters members bases) }
  | .aliasDecl name typeParameters value =>
    { module with
      aliases := module.aliases.update name fun record => { record with typeParameters, value } }
  | .functionDecl name exported signature =>
    { module with
      functions := module.functions.upsert name (newFunction name exported signature)
        fun record => { record with signatures := record.signatures ++ [signature] } }
  | .constants records => { module with constants := module.constants ++ records }

end Contribution

namespace Resolver

variable {m : Type → Type} [Monad m]

/-- A heritage clause: whether it is an `implements` clause, and its entries. -/
def heritageClause? (resolver : Resolver m) (scope : Scope) (index : NodeIndex) :
    m (Option (Bool × List TypeReference)) :=
  match scope.source.arena.payload? index with
  | some (.heritage token types) => do
    let entries ← types.mapM (resolver.heritage (resolver.type scope) scope)
    pure (some (decide (token = .implementsKeyword), entries))
  | _ => pure none

/-- The entries of all `extends` clauses and of all `implements` clauses. -/
def heritageClauses (resolver : Resolver m) (scope : Scope) (clauses : Option NodeList) :
    m (List TypeReference × List TypeReference) := do
  let clauses ← collectM (resolver.heritageClause? scope) (clauses.getD [])
  pure ((clauses.filter (!·.1)).flatMap (·.2), (clauses.filter (·.1)).flatMap (·.2))

/-- The constant that a declarator declares; `none` without an initializer. -/
def constant? (resolver : Resolver m) (scope : Scope) (doc : Option Doc) (index : NodeIndex) :
    m (Option ConstantRecord) :=
  match scope.source.arena.payload? index with
  | some (.declarator data) =>
    if data.initializer.isPresent then do
      let type ← optionalType (resolver.type scope) data.typeNode
      pure (some
        { name := scope.source.declarationName data.name
          type
          content := Text.excerpt (scope.source.nodeText data.initializer)
          location := scope.location index
          doc })
    else pure none
  | _ => pure none

/-- What the second pass learns from a statement. -/
def contribution? (resolver : Resolver m) (scope : Scope) (index : NodeIndex) :
    m (Option Contribution) :=
  let type := resolver.type scope
  let arena := scope.source.arena
  match arena.get? index with
  | none => pure none
  | some node =>
    match node.kind, node.payload with
    | .classDeclaration, .classDecl data => do
      let typeParameters ← typeParameters type scope data.typeParameters
      let (bases, implemented) ← resolver.heritageClauses scope data.heritage
      let body ← resolver.classBody scope data.members
      pure (some (.classDecl (scope.source.declarationName data.name) typeParameters bases.head?
        implemented body))
    | .interfaceDeclaration, .interfaceDecl data => do
      let typeParameters ← typeParameters type scope data.typeParameters
      let members ← resolver.members type scope data.members
      let (bases, _) ← resolver.heritageClauses scope data.heritage
      pure (some (.interfaceDecl (scope.source.declarationName data.name) typeParameters members
        bases))
    | .typeAliasDeclaration, .aliasDecl data => do
      let typeParameters ← typeParameters type scope data.typeParameters
      let value ← optionalType type data.value
      pure (some (.aliasDecl (scope.source.declarationName data.name) typeParameters value))
    | .functionDeclaration, .functionDecl data => do
      let signature ← resolver.signature? type scope index
      pure (signature.map
        (.functionDecl (scope.source.declarationName data.name)
          (arena.hasModifier data.modifiers .exportKeyword)))
    | .variableStatement, .variableStatement data =>
      if arena.hasModifier data.modifiers .exportKeyword then do
        let doc ← doc? type scope index
        let records ← collectM (resolver.constant? scope doc) data.declarations
        pure (some (.constants records))
      else pure none
    | _, _ => pure none

end Resolver

end ApiDocs
