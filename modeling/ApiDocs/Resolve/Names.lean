import ApiDocs.Reference.Index
import ApiDocs.Resolve.Scope

/-!
# Resolving names

From a name node to a `Reference`: the checker's symbol decides if there is one, and the written
name otherwise.

## Main definitions

* `Resolver` — a program with the index to consult.
* `Resolver.entityName` — the dotted name that a name node spells.
* `Resolver.symbolAt?` — the symbol at a name node, or at its last segment.
* `Resolver.symbolReference` — the reference of a symbol.
* `Resolver.typeName` — the reference of the name in a type.
* `Resolver.heritageName` — the reference of the name of a base type.

## Design notes

**Placeholders of the checker.**  Where the checker could not resolve a qualified name it may
report a placeholder symbol.  In a type name and in a dotted base name such a symbol is passed
over, and the index is asked for the written name with its qualifier.
-/

namespace ApiDocs

/-- A program with the index to consult. -/
structure Resolver (m : Type → Type) where
  program : Program
  index : ReferenceIndex m
  /-- How far walks through a file may go.  An acyclic file ends them earlier. -/
  depth : SourceFile → Nat := fun source => source.arena.depthBound

/-- A dotted name at its last dot: the qualifier and the last segment. -/
def splitLastDot? (dotted : String) : Option (String × String) :=
  let reversed := dotted.toList.reverse
  match reversed.dropWhile (· ≠ '.') with
  | '.' :: qualifier =>
    some (String.ofList qualifier.reverse, String.ofList (reversed.takeWhile (· ≠ '.')).reverse)
  | _ => none

namespace Resolver

variable {m : Type → Type} [Monad m]

omit [Monad m] in
/-- The dotted name that an identifier, qualified name or property access spells. -/
def entityName (resolver : Resolver m) (scope : Scope) (index : NodeIndex) : String :=
  scope.entityNameWithin (resolver.depth scope.source) index

omit [Monad m] in
/-- The symbol at a name node, or else at the last segment of a dotted name. -/
def symbolAt? (resolver : Resolver m) (scope : Scope) (index : NodeIndex) : Option SymbolId :=
  match resolver.program.symbolAt? scope.file index with
  | some symbol => some symbol
  | none =>
    match scope.source.arena.payload? index with
    | some (.qualifiedName _ right) => resolver.program.symbolAt? scope.file right
    | some (.access _ name) => resolver.program.symbolAt? scope.file name
    | _ => none

omit [Monad m] in
/-- Whether a symbol is a placeholder of the checker. -/
def isInternal (resolver : Resolver m) (id : SymbolId) : Bool :=
  (resolver.program.symbol? id).any (·.hasAny Flag.internal)

omit [Monad m] in
/-- The reference of a name without a symbol. -/
def unresolved (resolver : Resolver m) (name : String) : Reference :=
  if resolver.index.isBuiltin name then .builtin name else .written name

/-- What the index knows about a dotted name: its last segment, qualified by the others. -/
def qualifiedName? (resolver : Resolver m) (dotted : String) : m (Option Reference) :=
  match splitLastDot? dotted with
  | some (qualifier, last) => resolver.index.byName last (some qualifier)
  | none => pure none

/-- The reference of a symbol; `fallback` is the name as it was written. -/
def symbolReference (resolver : Resolver m) (id : SymbolId) (fallback : String) : m Reference :=
  match resolver.program.symbol? id with
  | none => pure (.written fallback)
  | some symbol =>
    let name := if symbol.name = "" then fallback else symbol.name
    if symbol.hasAny Flag.typeParameter then pure (.written name)
    else if symbol.hasAny Flag.enumMember then do
      let owner ← match symbol.parent with
        | some parent => resolver.index.bySymbol parent
        | none => pure none
      match owner with
      | some owner => pure (.enumMember owner name)
      | none => pure (.written fallback)
    else do
      let reference ← resolver.index.bySymbol id
      pure (reference.getD (.written name))

/-- The reference of the name in a type. -/
def typeName (resolver : Resolver m) (scope : Scope) (index : NodeIndex) : m Reference :=
  let text := resolver.entityName scope index
  match resolver.symbolAt? scope index with
  | none => pure (resolver.unresolved text)
  | some symbol =>
    if resolver.isInternal symbol then do
      let reference ← resolver.qualifiedName? text
      pure (reference.getD (resolver.unresolved text))
    else resolver.symbolReference symbol text

/-- The reference of a dotted base name. -/
def dottedHeritageName (resolver : Resolver m) (scope : Scope) (index : NodeIndex) :
    m Reference := do
  let text := resolver.entityName scope index
  match (resolver.symbolAt? scope index).filter (!resolver.isInternal ·) with
  | some symbol => resolver.symbolReference symbol text
  | none =>
    let reference ← resolver.qualifiedName? text
    pure (reference.getD (.written text))

/-- The reference of a name that stands for a value: a plain base name or the class after `new`. -/
def valueName (resolver : Resolver m) (scope : Scope) (index : NodeIndex) : m Reference :=
  let text := resolver.entityName scope index
  match resolver.symbolAt? scope index with
  | some symbol => resolver.symbolReference symbol text
  | none => pure (resolver.unresolved text)

/-- The reference of the name of a base type. -/
def heritageName (resolver : Resolver m) (scope : Scope) (index : NodeIndex) : m Reference :=
  match scope.source.arena.kind? index with
  | some .propertyAccessExpression => resolver.dottedHeritageName scope index
  | some .qualifiedName => resolver.dottedHeritageName scope index
  | some .identifier => resolver.valueName scope index
  | _ => pure (.written (scope.source.nodeText index))

omit [Monad m] in
/-- Whether the expression of a property access is bound to a module or namespace. -/
def accessesModule (resolver : Resolver m) (scope : Scope) (expression : NodeIndex) : Bool :=
  match resolver.program.symbolAt? scope.file expression with
  | some left => (resolver.program.symbol? left).any (·.hasAny Flag.module)
  | none => false

/-- The reference of a property access on a module or namespace. -/
def moduleAccess? (resolver : Resolver m) (scope : Scope) (index : NodeIndex) :
    m (Option Reference) :=
  match scope.source.arena.payload? index with
  | some (.access expression _) =>
    if resolver.accessesModule scope expression then
      let text := resolver.entityName scope index
      match resolver.symbolAt? scope index with
      | some symbol => some <$> resolver.symbolReference symbol text
      | none => resolver.qualifiedName? text
    else pure none
  | _ => pure none

end Resolver

end ApiDocs
