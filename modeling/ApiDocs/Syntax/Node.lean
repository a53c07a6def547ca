import ApiDocs.Syntax.Kind

/-!
# Syntax nodes

A node has a kind, flags, a span of the source text and a `Payload`, the typed data of its layout.
Several kinds share a layout: everything that takes parameters is a `FunctionPayload`, property
declarations and property signatures are both a `PropertyPayload`.

Nodes refer to each other by `NodeIndex`.  An absent child is the index `NodeIndex.absent`, an
absent list is `none`.

## Main definitions

* `NodeIndex` — the index of a node in its arena.
* `Payload` — the typed data of a node.
* `Payload.indexes` — the indexes that a payload stores, field by field.
* `Payload.children` — those of them that are present.
* `Node` — a node.
-/

namespace ApiDocs

/-- The index of a node in its arena, a 32-bit word. -/
structure NodeIndex where
  raw : UInt32
deriving DecidableEq

namespace NodeIndex

/-- The index that stands for an absent node. -/
def absent : NodeIndex := ⟨4294967295⟩

/-- The index of the `n`-th node. -/
def ofNat (n : Nat) : NodeIndex := ⟨UInt32.ofNat n⟩

/-- The place of a node in its arena. -/
def toNat (index : NodeIndex) : Nat := index.raw.toNat

theorem toNat_injective : Function.Injective toNat := by
  rintro ⟨first⟩ ⟨second⟩ same
  exact congrArg mk (UInt32.toNat_inj.1 same)

/-- Whether an index stands for a node. -/
def isPresent (index : NodeIndex) : Bool := index ≠ absent

/-- The index itself if it stands for a node. -/
def toOption (index : NodeIndex) : Option NodeIndex :=
  if index.isPresent then some index else none

end NodeIndex

/-- A list of child nodes. -/
abbrev NodeList := List NodeIndex

/-- The data of a `new` expression or call. -/
structure CallPayload where
  expression : NodeIndex
  typeArguments : Option NodeList
  arguments : Option NodeList

/-- The data of a class or interface declaration. -/
structure ClassPayload where
  modifiers : Option NodeList
  name : NodeIndex
  typeParameters : Option NodeList
  heritage : Option NodeList
  members : NodeList

/-- The data of an enum declaration. -/
structure EnumPayload where
  modifiers : Option NodeList
  name : NodeIndex
  members : NodeList

/-- The data of a type alias declaration. -/
structure AliasPayload where
  modifiers : Option NodeList
  name : NodeIndex
  typeParameters : Option NodeList
  value : NodeIndex

/-- The data of everything that takes parameters. -/
structure FunctionPayload where
  modifiers : Option NodeList
  name : NodeIndex
  optional : Bool
  typeParameters : Option NodeList
  parameters : NodeList
  typeNode : NodeIndex
  body : NodeIndex

/-- The data of a variable statement. -/
structure VariablesPayload where
  modifiers : Option NodeList
  declarations : NodeList

/-- The data of one declarator of a variable statement. -/
structure VariablePayload where
  name : NodeIndex
  typeNode : NodeIndex
  initializer : NodeIndex

/-- The data of a module or namespace declaration.  The body is a block or, for a dotted name, the
declaration of the next name. -/
structure NamespacePayload where
  modifiers : Option NodeList
  name : NodeIndex
  body : NodeIndex

/-- The data of a property declaration or property signature. -/
structure PropertyPayload where
  modifiers : Option NodeList
  name : NodeIndex
  optional : Bool
  typeNode : NodeIndex
  initializer : NodeIndex

/-- The data of an index signature. -/
structure IndexSignaturePayload where
  modifiers : Option NodeList
  parameters : NodeList
  typeNode : NodeIndex

/-- The data of a parameter. -/
structure ParameterPayload where
  modifiers : Option NodeList
  rest : Bool
  name : NodeIndex
  optional : Bool
  typeNode : NodeIndex
  initializer : NodeIndex

/-- The data of a type parameter. -/
structure TypeParameterPayload where
  name : NodeIndex
  constraint : NodeIndex
  default : NodeIndex

/-- The typed data of a node. -/
inductive Payload where
  | empty
  | identifier (text : String)
  /-- A string or number literal; the text of a string is without its quotation marks. -/
  | literal (text : String)
  | qualifiedName (left right : NodeIndex)
  | access (expression name : NodeIndex)
  | call (data : CallPayload)
  | classDecl (data : ClassPayload)
  | interfaceDecl (data : ClassPayload)
  | enumDecl (data : EnumPayload)
  | enumMember (name initializer : NodeIndex)
  | aliasDecl (data : AliasPayload)
  | functionDecl (data : FunctionPayload)
  | variableStatement (data : VariablesPayload)
  | declarator (data : VariablePayload)
  | namespaceDecl (data : NamespacePayload)
  | block (statements : NodeList)
  | property (data : PropertyPayload)
  | indexSignature (data : IndexSignaturePayload)
  | parameter (data : ParameterPayload)
  | typeParameter (data : TypeParameterPayload)
  | heritage (token : Kind) (types : NodeList)
  | heritageEntry (expression : NodeIndex) (typeArguments : Option NodeList)
  | typeReference (name : NodeIndex) (typeArguments : Option NodeList)
  /-- A union, intersection or tuple. -/
  | composite (types : NodeList)
  | typeLiteral (members : NodeList)
  | arrayType (element : NodeIndex)
  | typeOperator (operator : Kind) (operand : NodeIndex)
  /-- A type around exactly one type, such as a parenthesized one. -/
  | wrapped (inner : NodeIndex)
  | literalType (literal : NodeIndex)

namespace Payload

/-- The indexes that a payload stores, field by field, absent ones included. -/
def indexes : Payload → List NodeIndex
  | .empty => []
  | .identifier _ => []
  | .literal _ => []
  | .qualifiedName left right => [left, right]
  | .access expression name => [expression, name]
  | .call data => data.expression :: (data.typeArguments.getD [] ++ data.arguments.getD [])
  | .classDecl data => classIndexes data
  | .interfaceDecl data => classIndexes data
  | .enumDecl data => data.modifiers.getD [] ++ data.name :: data.members
  | .enumMember name initializer => [name, initializer]
  | .aliasDecl data =>
    data.modifiers.getD [] ++ data.name :: (data.typeParameters.getD [] ++ [data.value])
  | .functionDecl data =>
    data.modifiers.getD [] ++ data.name ::
      (data.typeParameters.getD [] ++ data.parameters ++ [data.typeNode, data.body])
  | .variableStatement data => data.modifiers.getD [] ++ data.declarations
  | .declarator data => [data.name, data.typeNode, data.initializer]
  | .namespaceDecl data => data.modifiers.getD [] ++ [data.name, data.body]
  | .block statements => statements
  | .property data => data.modifiers.getD [] ++ [data.name, data.typeNode, data.initializer]
  | .indexSignature data => data.modifiers.getD [] ++ data.parameters ++ [data.typeNode]
  | .parameter data => data.modifiers.getD [] ++ [data.name, data.typeNode, data.initializer]
  | .typeParameter data => [data.name, data.constraint, data.default]
  | .heritage _ types => types
  | .heritageEntry expression typeArguments => expression :: typeArguments.getD []
  | .typeReference name typeArguments => name :: typeArguments.getD []
  | .composite types => types
  | .typeLiteral members => members
  | .arrayType element => [element]
  | .typeOperator _ operand => [operand]
  | .wrapped inner => [inner]
  | .literalType inner => [inner]
where
  classIndexes (data : ClassPayload) : List NodeIndex :=
    data.modifiers.getD [] ++ data.name ::
      (data.typeParameters.getD [] ++ data.heritage.getD [] ++ data.members)

/-- The children of a node: the indexes of its payload that are present, in order. -/
def children (payload : Payload) : List NodeIndex :=
  payload.indexes.filter (·.isPresent)

end Payload

/-- A syntax node.  The span runs from the byte `start` up to the byte `stop`. -/
structure Node where
  kind : Kind
  flags : UInt16 := 0
  start : UInt32
  stop : UInt32
  payload : Payload := .empty

namespace Node

/-- The start of a node that has no source text. -/
def syntheticStart : UInt32 := 4294967295

/-- The flag of a `declare global` block. -/
def globalAugmentation : UInt16 := 8

/-- Whether a node has no source text. -/
def isSynthetic (node : Node) : Bool :=
  node.start == syntheticStart || decide (node.stop < node.start)

/-- Whether a node carries one of the given flags. -/
def hasFlag (node : Node) (flag : UInt16) : Bool :=
  node.flags &&& flag != 0

/-- The name that an identifier or literal node stands for. -/
def nameText? (node : Node) : Option String :=
  match node.payload with
  | .identifier text => some text
  | .literal text => some text
  | _ => none

end Node

end ApiDocs
