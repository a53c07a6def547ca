import ApiDocs.Resolve.Types
import ApiDocs.Tree.Module

/-!
# Skeletons

The first pass gives every class, interface, enum and type alias its place in the documentation,
so that the second pass finds all names of the project.  What it learns from one statement is a
`Skeleton`.

## Main definitions

* `Resolver.skeleton?` — what the first pass learns from a statement.
* `Skeleton.file` — files a skeleton in a module.

## Design notes

**Merging.**  A class or type alias replaces an earlier one of its name, in that one's place.
Interfaces and enums accumulate; only an enum's `const` is taken from the first declaration.
-/

namespace ApiDocs

/-- What the first pass learns from a statement. -/
inductive Skeleton where
  | classDecl (record : ClassRecord)
  | interfaceDecl (name : String) (exported : Bool) (location : Location) (doc : Option Doc)
  | enumDecl (name : String) (isConst exported : Bool) (location : Location) (doc : Option Doc)
      (members : List EnumMember)
  | aliasDecl (record : AliasRecord)

namespace Skeleton

/-- Adds a declaration of an interface to its record. -/
def extendInterface (exported : Bool) (location : Location) (doc : Option Doc)
    (record : InterfaceRecord) : InterfaceRecord :=
  { record with
    exported := record.exported || exported
    locations := record.locations ++ [location]
    docs := record.docs ++ doc.toList }

/-- Adds a declaration of an enum to its record. -/
def extendEnum (exported : Bool) (location : Location) (doc : Option Doc)
    (members : List EnumMember) (record : EnumRecord) : EnumRecord :=
  { record with
    exported := record.exported || exported
    locations := record.locations ++ [location]
    docs := record.docs ++ doc.toList
    members := record.members ++ members }

/-- Files a skeleton in a module. -/
def file (module : DocModule) : Skeleton → DocModule
  | .classDecl record => { module with classes := module.classes.insert record.name record }
  | .interfaceDecl name exported location doc =>
    { module with
      interfaces :=
        module.interfaces.upsert name { name } (extendInterface exported location doc) }
  | .enumDecl name isConst exported location doc members =>
    { module with
      enums :=
        module.enums.upsert name { name, isConst } (extendEnum exported location doc members) }
  | .aliasDecl record => { module with aliases := module.aliases.insert record.name record }

end Skeleton

namespace Resolver

variable {m : Type → Type} [Monad m]

/-- The documentation of a node in a scope. -/
def docOf? (resolver : Resolver m) (scope : Scope) (index : NodeIndex) : m (Option Doc) :=
  doc? (resolver.type scope) scope index

/-- A member of an enum; `none` if the node is not one. -/
def enumMember? (resolver : Resolver m) (scope : Scope) (index : NodeIndex) :
    m (Option EnumMember) :=
  match scope.source.arena.payload? index with
  | some (.enumMember name initializer) => do
    let doc ← resolver.docOf? scope index
    pure (some
      { name := scope.source.declarationName name
        initializer := initializer.toOption.map scope.source.nodeText
        location := scope.location index
        doc })
  | _ => pure none

/-- What the first pass learns from a statement. -/
def skeleton? (resolver : Resolver m) (scope : Scope) (index : NodeIndex) :
    m (Option Skeleton) :=
  let arena := scope.source.arena
  let location := scope.location index
  match arena.get? index with
  | none => pure none
  | some node =>
    match node.kind, node.payload with
    | .classDeclaration, .classDecl data => do
      let doc ← resolver.docOf? scope index
      pure (some (.classDecl
        { name := scope.source.declarationName data.name
          location
          doc
          exported := arena.hasModifier data.modifiers .exportKeyword
          abstract := arena.hasModifier data.modifiers .abstractKeyword }))
    | .interfaceDeclaration, .interfaceDecl data => do
      let doc ← resolver.docOf? scope index
      pure (some (.interfaceDecl (scope.source.declarationName data.name)
        (arena.hasModifier data.modifiers .exportKeyword) location doc))
    | .enumDeclaration, .enumDecl data => do
      let doc ← resolver.docOf? scope index
      let members ← collectM (resolver.enumMember? scope) data.members
      pure (some (.enumDecl (scope.source.declarationName data.name)
        (arena.hasModifier data.modifiers .constKeyword)
        (arena.hasModifier data.modifiers .exportKeyword) location doc members))
    | .typeAliasDeclaration, .aliasDecl data => do
      let doc ← resolver.docOf? scope index
      pure (some (.aliasDecl
        { name := scope.source.declarationName data.name
          location
          doc
          exported := arena.hasModifier data.modifiers .exportKeyword }))
    | _, _ => pure none

end Resolver

end ApiDocs
