import ApiDocs.Resolve.Parts

/-!
# Resolving types

A type node becomes a value of `Ty`.  Resolution never fails: syntax without a structural
counterpart, or with data of another layout, is shown as it was written.

## Main definitions

* `Resolver.typeStep` — one step: the type of a node, given the types of its parts.
* `Resolver.type` — the type of a node.

## Design notes

**One recursive function.**  Every cycle of resolution runs through the type of some node, so the
step function is the whole definition and `typeWithin` iterates it.  Each iteration follows at
least one link from a node to a child of its own or to the type of a tag attached to it, and so an
acyclic file needs no more iterations than it has nodes.
-/

namespace ApiDocs

/-- The keyword type that a kind of node spells. -/
def Keyword.ofKind? : Kind → Option Keyword
  | .numberKeyword => some .number
  | .stringKeyword => some .string
  | .booleanKeyword => some .boolean
  | .trueKeyword => some .true
  | .falseKeyword => some .false
  | .undefinedKeyword => some .undefined
  | .nullKeyword => some .null
  | .voidKeyword => some .void
  | .anyKeyword => some .any
  | .unknownKeyword => some .unknown
  | .neverKeyword => some .never
  | .objectKeyword => some .object
  | .symbolKeyword => some .symbol
  | .bigIntKeyword => some .bigint
  | _ => none

/-- The type that an operator makes of its operand. -/
def operatorType? : Kind → Option (Ty → Ty)
  | .uniqueKeyword => some .unique
  | .keyOfKeyword => some .keyof
  | .readonlyKeyword => some .readonly
  | _ => none

namespace Resolver

variable {m : Type → Type} [Monad m]

/-- The type of a node with a kind that is no keyword. -/
def structuralType (resolver : Resolver m) (scope : Scope) (type : NodeIndex → m Ty)
    (index : NodeIndex) (node : Node) : m Ty :=
  let raw : Ty := .written (scope.source.nodeText index)
  match node.kind with
  | .typeReference =>
    match node.payload with
    | .typeReference name typeArguments => do
      let target ← resolver.typeName scope name
      let arguments ← typeList type typeArguments
      pure (.reference target arguments)
    | _ => pure raw
  | .identifier => do
    let target ← resolver.typeName scope index
    pure (.reference target [])
  | .qualifiedName => do
    let target ← resolver.typeName scope index
    pure (.reference target [])
  | .expressionWithTypeArguments => do
    let reference ← resolver.heritage type scope index
    pure reference.toTy
  | .thisType => thisType raw
  | .thisKeyword => thisType raw
  | .functionType => functionType raw
  | .constructorType => functionType raw
  | .typeLiteral =>
    match node.payload with
    | .typeLiteral list => Ty.object <$> resolver.members type scope list
    | _ => pure raw
  | .unionType => composite raw .union
  | .intersectionType => composite raw .intersection
  | .tupleType => composite raw .tuple
  | .arrayType =>
    match node.payload with
    | .arrayType element => Ty.array <$> type element
    | _ => pure raw
  | .typeOperator =>
    match node.payload with
    | .typeOperator operator operand =>
      match operatorType? operator with
      | some operate => operate <$> type operand
      | none => pure raw
    | _ => pure raw
  | .parenthesizedType =>
    match node.payload with
    | .wrapped inner => type inner
    | _ => pure raw
  | .literalType =>
    match node.payload with
    | .literalType literal => pure (literalType scope literal)
    | _ => pure raw
  | .numericLiteral => pure (literalType scope index)
  | .stringLiteral => pure (literalType scope index)
  | .noSubstitutionTemplateLiteral => pure (literalType scope index)
  | .prefixUnaryExpression => pure (literalType scope index)
  | _ => pure raw
where
  /-- A `this` type points at the symbol that the checker gives it. -/
  thisType (raw : Ty) : m Ty :=
    match resolver.program.symbolAt? scope.file index with
    | some symbol => do
      let target ← resolver.symbolReference symbol "this"
      pure (.reference target [])
    | none => pure raw
  /-- A function or constructor type. -/
  functionType (raw : Ty) : m Ty :=
    match node.payload with
    | .functionDecl data => do
      let parameters ← resolver.parameters type scope data.parameters
      let result ← optionalType type data.typeNode
      let typeParameters ← typeParameters type scope data.typeParameters
      pure (.arrow parameters result typeParameters)
    | _ => pure raw
  /-- A union, intersection or tuple. -/
  composite (raw : Ty) (combine : List Ty → Ty) : m Ty :=
    match node.payload with
    | .composite types => combine <$> typeList type (some types)
    | _ => pure raw

/-- One step of resolution: the type of a node, given the types of the nodes it refers to. -/
def typeStep (resolver : Resolver m) (scope : Scope) (type : NodeIndex → m Ty)
    (index : NodeIndex) : m Ty :=
  match scope.source.arena.get? index with
  | none => pure (.written (scope.source.nodeText index))
  | some node =>
    match Keyword.ofKind? node.kind with
    | some word => pure (.keyword word)
    | none => resolver.structuralType scope type index node

/-- The type of a node, resolved down to the given depth. -/
def typeWithin (resolver : Resolver m) (scope : Scope) : Nat → NodeIndex → m Ty
  | 0, index => pure (.written (scope.source.nodeText index))
  | depth + 1, index => resolver.typeStep scope (resolver.typeWithin scope depth) index

/-- The type of a node. -/
def type (resolver : Resolver m) (scope : Scope) (index : NodeIndex) : m Ty :=
  resolver.typeWithin scope (resolver.depth scope.source) index

end Resolver

end ApiDocs
