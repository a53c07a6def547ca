import ApiDocs.Json.Fields
import ApiDocs.Json.Reader
import ApiDocs.Program.Basic

/-!
# Reading snapshots

A snapshot is refused as a whole if its syntax or its shape is wrong.  Keys that a record does not
have are skipped, whatever their values.

## Main definitions

* `Program.decode?` — the program that a document describes.
* `Program.ofText?` — the program that a text describes.

## Design notes

**Depth.**  A snapshot may be nested `127` levels deep, counting only what is read and not what is
skipped.  Everything but inferred types has a fixed depth; the outermost inferred type stands at
the sixth level and each list of type arguments adds two, so inferred types may be nested
`InferredType.maxDepth` deep.  A signature that stands alone has no such limit.

**Keys.**  The key of a map is a number in decimal digits, and the digits have to be written as such:
the reader leaves escapes of digits in keys as they are, so that they are no digits here.
-/

namespace ApiDocs

/-- A kind: its word, or an object that gives its word the value `null`. -/
def Kind.decode? : Json → Option Kind
  | .string word => Kind.ofName? word
  | .object [(word, .null)] => Kind.ofName? word
  | _ => none

/-- A node index. -/
def NodeIndex.decode? (document : Json) : Option NodeIndex :=
  document.word?.map NodeIndex.mk

/-- A list of nodes. -/
def decodeNodes? (document : Json) : Option NodeList :=
  match document.slots? ["nodes"] with
  | some [nodes] => nodes.required (Json.list? NodeIndex.decode?)
  | _ => none

/-- The text of an identifier or literal. -/
def decodeText? (body : Json) : Option String :=
  match body.slots? ["text"] with
  | some [text] => text.required Json.text?
  | _ => none

/-- The fields of a class or interface declaration. -/
def ClassPayload.decode? (body : Json) : Option ClassPayload :=
  match body.slots? ["modifiers", "name", "type_parameters", "heritage_clauses", "members"] with
  | some [modifiers, name, typeParameters, heritage, members] => do
    some
      { modifiers := ← modifiers.nullable decodeNodes?
        name := ← name.required NodeIndex.decode?
        typeParameters := ← typeParameters.nullable decodeNodes?
        heritage := ← heritage.nullable decodeNodes?
        members := ← members.required decodeNodes? }
  | _ => none

/-- Two nodes under the given names. -/
def decodePair? (first second : String) (body : Json) : Option (NodeIndex × NodeIndex) :=
  match body.slots? [first, second] with
  | some [left, right] => do
    some (← left.required NodeIndex.decode?, ← right.required NodeIndex.decode?)
  | _ => none

/-- One node under the given name. -/
def decodeNode? (name : String) (body : Json) : Option NodeIndex :=
  match body.slots? [name] with
  | some [node] => node.required NodeIndex.decode?
  | _ => none

/-- One list of nodes under the given name. -/
def decodeList? (name : String) (body : Json) : Option NodeList :=
  match body.slots? [name] with
  | some [nodes] => nodes.required decodeNodes?
  | _ => none

/-- A node with type arguments. -/
def decodeApplied? (name : String) (body : Json) : Option (NodeIndex × Option NodeList) :=
  match body.slots? [name, "type_arguments"] with
  | some [node, typeArguments] => do
    some (← node.required NodeIndex.decode?, ← typeArguments.nullable decodeNodes?)
  | _ => none

/-- The fields of a `new` expression or call. -/
def CallPayload.decode? (body : Json) : Option CallPayload :=
  match body.slots? ["expression", "type_arguments", "arguments"] with
  | some [expression, typeArguments, arguments] => do
    some
      { expression := ← expression.required NodeIndex.decode?
        typeArguments := ← typeArguments.nullable decodeNodes?
        arguments := ← arguments.nullable decodeNodes? }
  | _ => none

/-- The fields of an enum declaration. -/
def EnumPayload.decode? (body : Json) : Option EnumPayload :=
  match body.slots? ["modifiers", "name", "members"] with
  | some [modifiers, name, members] => do
    some
      { modifiers := ← modifiers.nullable decodeNodes?
        name := ← name.required NodeIndex.decode?
        members := ← members.required decodeNodes? }
  | _ => none

/-- The fields of a type alias declaration. -/
def AliasPayload.decode? (body : Json) : Option AliasPayload :=
  match body.slots? ["modifiers", "name", "type_parameters", "type_node"] with
  | some [modifiers, name, typeParameters, value] => do
    some
      { modifiers := ← modifiers.nullable decodeNodes?
        name := ← name.required NodeIndex.decode?
        typeParameters := ← typeParameters.nullable decodeNodes?
        value := ← value.required NodeIndex.decode? }
  | _ => none

/-- The fields of everything that takes parameters. -/
def FunctionPayload.decode? (body : Json) : Option FunctionPayload :=
  match body.slots? ["modifiers", "name", "question_token", "type_parameters", "parameters",
    "type_annotation", "body"] with
  | some [modifiers, name, optional, typeParameters, parameters, typeNode, inner] => do
    some
      { modifiers := ← modifiers.nullable decodeNodes?
        name := ← name.required NodeIndex.decode?
        optional := ← optional.required Json.bool?
        typeParameters := ← typeParameters.nullable decodeNodes?
        parameters := ← parameters.required decodeNodes?
        typeNode := ← typeNode.required NodeIndex.decode?
        body := ← inner.required NodeIndex.decode? }
  | _ => none

/-- The fields of a variable statement. -/
def VariablesPayload.decode? (body : Json) : Option VariablesPayload :=
  match body.slots? ["modifiers", "declarations"] with
  | some [modifiers, declarations] => do
    some
      { modifiers := ← modifiers.nullable decodeNodes?
        declarations := ← declarations.required decodeNodes? }
  | _ => none

/-- The fields of a declarator. -/
def VariablePayload.decode? (body : Json) : Option VariablePayload :=
  match body.slots? ["name", "type_annotation", "initializer"] with
  | some [name, typeNode, initializer] => do
    some
      { name := ← name.required NodeIndex.decode?
        typeNode := ← typeNode.required NodeIndex.decode?
        initializer := ← initializer.required NodeIndex.decode? }
  | _ => none

/-- The fields of a module or namespace declaration. -/
def NamespacePayload.decode? (body : Json) : Option NamespacePayload :=
  match body.slots? ["modifiers", "name", "body"] with
  | some [modifiers, name, inner] => do
    some
      { modifiers := ← modifiers.nullable decodeNodes?
        name := ← name.required NodeIndex.decode?
        body := ← inner.required NodeIndex.decode? }
  | _ => none

/-- The fields of a property declaration or signature. -/
def PropertyPayload.decode? (body : Json) : Option PropertyPayload :=
  match body.slots? ["modifiers", "name", "question_token", "type_annotation", "initializer"] with
  | some [modifiers, name, optional, typeNode, initializer] => do
    some
      { modifiers := ← modifiers.nullable decodeNodes?
        name := ← name.required NodeIndex.decode?
        optional := ← optional.required Json.bool?
        typeNode := ← typeNode.required NodeIndex.decode?
        initializer := ← initializer.required NodeIndex.decode? }
  | _ => none

/-- The fields of an index signature. -/
def IndexSignaturePayload.decode? (body : Json) : Option IndexSignaturePayload :=
  match body.slots? ["modifiers", "parameters", "type_annotation"] with
  | some [modifiers, parameters, typeNode] => do
    some
      { modifiers := ← modifiers.nullable decodeNodes?
        parameters := ← parameters.required decodeNodes?
        typeNode := ← typeNode.required NodeIndex.decode? }
  | _ => none

/-- The fields of a parameter. -/
def ParameterPayload.decode? (body : Json) : Option ParameterPayload :=
  match body.slots? ["modifiers", "dot_dot_dot_token", "name", "question_token",
    "type_annotation", "initializer"] with
  | some [modifiers, rest, name, optional, typeNode, initializer] => do
    some
      { modifiers := ← modifiers.nullable decodeNodes?
        rest := ← rest.required Json.bool?
        name := ← name.required NodeIndex.decode?
        optional := ← optional.required Json.bool?
        typeNode := ← typeNode.required NodeIndex.decode?
        initializer := ← initializer.required NodeIndex.decode? }
  | _ => none

/-- The fields of a type parameter. -/
def TypeParameterPayload.decode? (body : Json) : Option TypeParameterPayload :=
  match body.slots? ["name", "constraint", "default"] with
  | some [name, constraint, default] => do
    some
      { name := ← name.required NodeIndex.decode?
        constraint := ← constraint.required NodeIndex.decode?
        default := ← default.required NodeIndex.decode? }
  | _ => none

/-- The fields of a heritage clause. -/
def decodeHeritage? (body : Json) : Option (Kind × NodeList) :=
  match body.slots? ["token", "types"] with
  | some [token, types] => do
    some (← token.required Kind.decode?, ← types.required decodeNodes?)
  | _ => none

/-- The fields of a type operator. -/
def decodeOperator? (body : Json) : Option (Kind × NodeIndex) :=
  match body.slots? ["operator", "type_node"] with
  | some [operator, operand] => do
    some (← operator.required Kind.decode?, ← operand.required NodeIndex.decode?)
  | _ => none

namespace Payload

/-- The payload with the given word and fields. -/
def decodeTagged? (tag : String) (body : Json) : Option Payload :=
  match tag with
  | "None" => match body with
    | .null => some .empty
    | _ => none
  | "Identifier" => (decodeText? body).map .identifier
  | "Literal" => (decodeText? body).map .literal
  | "QualifiedName" => (decodePair? "left" "right" body).map fun (left, right) =>
    .qualifiedName left right
  | "Access" => (decodePair? "expression" "name" body).map fun (expression, name) =>
    .access expression name
  | "Call" => (CallPayload.decode? body).map .call
  | "Class" => (ClassPayload.decode? body).map .classDecl
  | "Interface" => (ClassPayload.decode? body).map .interfaceDecl
  | "Enum" => (EnumPayload.decode? body).map .enumDecl
  | "EnumMember" => (decodePair? "name" "initializer" body).map fun (name, initializer) =>
    .enumMember name initializer
  | "TypeAlias" => (AliasPayload.decode? body).map .aliasDecl
  | "Function" => (FunctionPayload.decode? body).map .functionDecl
  | "VariableStatement" => (VariablesPayload.decode? body).map .variableStatement
  | "VariableDeclaration" => (VariablePayload.decode? body).map .declarator
  | "Module" => (NamespacePayload.decode? body).map .namespaceDecl
  | "ModuleBlock" => (decodeList? "statements" body).map .block
  | "PropertyDecl" => (PropertyPayload.decode? body).map .property
  | "IndexSignature" => (IndexSignaturePayload.decode? body).map .indexSignature
  | "Parameter" => (ParameterPayload.decode? body).map .parameter
  | "TypeParameter" => (TypeParameterPayload.decode? body).map .typeParameter
  | "Heritage" => (decodeHeritage? body).map fun (token, types) => .heritage token types
  | "ExprWithTypeArgs" => (decodeApplied? "expression" body).map fun (expression, arguments) =>
    .heritageEntry expression arguments
  | "TypeRef" => (decodeApplied? "type_name" body).map fun (name, arguments) =>
    .typeReference name arguments
  | "CompositeType" => (decodeList? "types" body).map .composite
  | "TypeLiteral" => (decodeList? "members" body).map .typeLiteral
  | "ArrayType" => (decodeNode? "element_type" body).map .arrayType
  | "TypeOperator" => (decodeOperator? body).map fun (operator, operand) =>
    .typeOperator operator operand
  | "WrappedType" => (decodeNode? "type_node" body).map .wrapped
  | "LiteralType" => (decodeNode? "literal" body).map .literalType
  | _ => none

/-- A payload: its word with its fields, or the word of the empty payload alone. -/
def decode? : Json → Option Payload
  | .string "None" => some .empty
  | .object [(tag, body)] => decodeTagged? tag body
  | _ => none

end Payload

/-- A node. -/
def Node.decode? (document : Json) : Option Node :=
  match document.slots? ["kind", "flags", "pos", "end", "data"] with
  | some [kind, flags, start, stop, payload] => do
    some
      { kind := ← kind.required Kind.decode?
        flags := ← flags.withDefault 0 Json.halfWord?
        start := ← start.required Json.word?
        stop := ← stop.required Json.word?
        payload := ← payload.withDefault .empty Payload.decode? }
  | _ => none

/-- An arena. -/
def Arena.decode? (document : Json) : Option Arena :=
  match document.slots? ["nodes", "parents"] with
  | some [nodes, parents] => do
    some
      { nodes := (← nodes.required (Json.list? Node.decode?)).toArray
        parents := (← parents.required (Json.list? NodeIndex.decode?)).toArray }
  | _ => none

/-- A tag of a comment. -/
def CommentTag.decode? (document : Json) : Option CommentTag :=
  match document.slots? ["tag_name", "comment", "name", "type_expression"] with
  | some [word, comment, name, type] => do
    some
      { word := ← word.required Json.text?
        comment := ← comment.optional Json.text?
        name := ← name.optional Json.text?
        type := ← type.withDefault .absent NodeIndex.decode? }
  | _ => none

/-- A comment. -/
def Comment.decode? (document : Json) : Option Comment :=
  match document.slots? ["comment", "tags"] with
  | some [text, tags] => do
    some
      { text := ← text.optional Json.text?
        tags := ← tags.withDefault [] (Json.list? CommentTag.decode?) }
  | _ => none

/-- The key of a map: decimal digits of a 32-bit word, without leading zeros. -/
def decodeKey? (key : String) : Option UInt32 :=
  match Json.readWhole key.toList with
  | some (digits, []) => (Json.nat (Json.decimalValue digits)).word?
  | _ => none

/-- A map; the last value of a repeated key stays. -/
def WordMap.decode? {α : Type} (decodeValue : Json → Option α) : Json → Option (WordMap α)
  | .object fields => do
    let pairs ← fields.mapM fun (key, value) => do some (← decodeKey? key, ← decodeValue value)
    some (WordMap.ofList pairs)
  | _ => none

/-- A source file. -/
def SourceFile.decode? (document : Json) : Option SourceFile :=
  match document.slots? ["file_name", "text", "arena", "statements", "jsdoc"] with
  | some [path, text, arena, statements, comments] => do
    some
      { path := ← path.required Json.text?
        text := ← text.required Json.text?
        arena := ← arena.required Arena.decode?
        statements := ← statements.required decodeNodes?
        commentMap := ←
          comments.withDefault .empty (WordMap.decode? (Json.list? Comment.decode?)) }
  | _ => none

/-- A symbol number. -/
def SymbolId.decode? (document : Json) : Option SymbolId :=
  document.word?.map SymbolId.mk

/-- A declaration site. -/
def DeclarationSite.decode? (document : Json) : Option DeclarationSite :=
  match document.slots? ["file", "node"] with
  | some [file, node] => do
    some
      { file := ⟨← file.required Json.word?⟩
        node := ← node.required NodeIndex.decode? }
  | _ => none

/-- A symbol. -/
def Symbol.decode? (document : Json) : Option Symbol :=
  match document.slots? ["name", "flags", "parent", "declarations", "module_specifier"] with
  | some [name, flags, parent, declarations, specifier] => do
    some
      { name := ← name.required Json.text?
        flags := ← flags.required Json.word?
        parent := ← parent.optional SymbolId.decode?
        declarations := ← declarations.withDefault [] (Json.list? DeclarationSite.decode?)
        specifier := ← specifier.optional Json.text? }
  | _ => none

/-- How deep inferred types may be nested in a snapshot. -/
def InferredType.maxDepth : Nat := 61

/-- An inferred type nested at most the given number of levels deep. -/
def InferredType.decodeWithin? : Nat → Json → Option InferredType
  | 0, _ => none
  | room + 1, document =>
    match document.slots? ["text", "symbol", "type_arguments"] with
    | some [text, symbol, arguments] => do
      some
        { text := ← text.withDefault "" Json.text?
          symbol := ← symbol.optional SymbolId.decode?
          arguments := ← arguments.withDefault [] (Json.list? (InferredType.decodeWithin? room)) }
    | _ => none

/-- An inferred signature with types nested at most the given number of levels deep. -/
def InferredSignature.decodeWithin? (room : Nat) (document : Json) : Option InferredSignature :=
  match document.slots? ["return_type"] with
  | some [returnType] => do
    some { returnType := ← returnType.optional (InferredType.decodeWithin? room) }
  | _ => none

/-- An inferred signature, however deep its types are nested. -/
def InferredSignature.decode? (document : Json) : Option InferredSignature :=
  InferredSignature.decodeWithin? document.depth document

/-- The checker's answers for a file. -/
def FileBindings.decode? (document : Json) : Option FileBindings :=
  match document.slots? ["node_symbols", "signatures"] with
  | some [symbols, signatures] => do
    some
      { symbols := ← symbols.withDefault .empty (WordMap.decode? SymbolId.decode?)
        signatures := ← signatures.withDefault .empty
          (WordMap.decode? (InferredSignature.decodeWithin? InferredType.maxDepth)) }
  | _ => none

/-- A symbol table. -/
def decodeSymbols? (document : Json) : Option (List Symbol) :=
  match document.slots? ["symbols"] with
  | some [symbols] => symbols.required (Json.list? Symbol.decode?)
  | _ => none

namespace Program

/-- The program that a document describes. -/
def decode? (document : Json) : Option Program :=
  match document.slots? ["files", "symbols", "bindings"] with
  | some [files, symbols, bindings] => do
    some
      { files := (← files.required (Json.list? SourceFile.decode?)).toArray
        symbols := (← symbols.withDefault [] decodeSymbols?).toArray
        bindings := (← bindings.withDefault [] (Json.list? FileBindings.decode?)).toArray }
  | _ => none

/-- The program that a text describes. -/
def ofText? (text : String) : Option Program :=
  (Json.parse? text).bind decode?

end Program

end ApiDocs
