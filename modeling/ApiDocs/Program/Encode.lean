import ApiDocs.Json.Fields
import ApiDocs.Json.Printer
import ApiDocs.Program.Basic

/-!
# Writing snapshots

A program as a JSON document with all its fields.  Maps are written with their keys in ascending
order, an absent node as its index, an absent value as `null`.

## Main definitions

* `Program.encode` — the document of a program.
* `Program.toText` — the document as text without blanks.
-/

namespace ApiDocs

/-- The document of a kind. -/
def Kind.encode (kind : Kind) : Json := .string kind.name

/-- The document of a node index. -/
def NodeIndex.encode (index : NodeIndex) : Json := .word index.raw

/-- The document of a list of nodes. -/
def encodeNodes (nodes : NodeList) : Json :=
  .object [("nodes", .array (nodes.map NodeIndex.encode))]

/-- The document of an optional list of nodes. -/
def encodeNodes? (nodes : Option NodeList) : Json :=
  .ofOption encodeNodes nodes

/-- The fields of a class or interface declaration. -/
def ClassPayload.encode (data : ClassPayload) : Json :=
  .object [("modifiers", encodeNodes? data.modifiers), ("name", data.name.encode),
    ("type_parameters", encodeNodes? data.typeParameters),
    ("heritage_clauses", encodeNodes? data.heritage), ("members", encodeNodes data.members)]

namespace Payload

/-- The word and the fields of a payload; the empty payload has none. -/
def encodeTagged? : Payload → Option (String × Json)
  | .empty => none
  | .identifier text => some ("Identifier", .object [("text", .string text)])
  | .literal text => some ("Literal", .object [("text", .string text)])
  | .qualifiedName left right =>
    some ("QualifiedName", .object [("left", left.encode), ("right", right.encode)])
  | .access expression name =>
    some ("Access", .object [("expression", expression.encode), ("name", name.encode)])
  | .call data => some ("Call", .object [("expression", data.expression.encode),
      ("type_arguments", encodeNodes? data.typeArguments),
      ("arguments", encodeNodes? data.arguments)])
  | .classDecl data => some ("Class", data.encode)
  | .interfaceDecl data => some ("Interface", data.encode)
  | .enumDecl data => some ("Enum", .object [("modifiers", encodeNodes? data.modifiers),
      ("name", data.name.encode), ("members", encodeNodes data.members)])
  | .enumMember name initializer =>
    some ("EnumMember", .object [("name", name.encode), ("initializer", initializer.encode)])
  | .aliasDecl data => some ("TypeAlias", .object [("modifiers", encodeNodes? data.modifiers),
      ("name", data.name.encode), ("type_parameters", encodeNodes? data.typeParameters),
      ("type_node", data.value.encode)])
  | .functionDecl data => some ("Function", .object [("modifiers", encodeNodes? data.modifiers),
      ("name", data.name.encode), ("question_token", .bool data.optional),
      ("type_parameters", encodeNodes? data.typeParameters),
      ("parameters", encodeNodes data.parameters), ("type_annotation", data.typeNode.encode),
      ("body", data.body.encode)])
  | .variableStatement data =>
    some ("VariableStatement", .object [("modifiers", encodeNodes? data.modifiers),
      ("declarations", encodeNodes data.declarations)])
  | .declarator data => some ("VariableDeclaration", .object [("name", data.name.encode),
      ("type_annotation", data.typeNode.encode), ("initializer", data.initializer.encode)])
  | .namespaceDecl data => some ("Module", .object [("modifiers", encodeNodes? data.modifiers),
      ("name", data.name.encode), ("body", data.body.encode)])
  | .block statements => some ("ModuleBlock", .object [("statements", encodeNodes statements)])
  | .property data => some ("PropertyDecl", .object [("modifiers", encodeNodes? data.modifiers),
      ("name", data.name.encode), ("question_token", .bool data.optional),
      ("type_annotation", data.typeNode.encode), ("initializer", data.initializer.encode)])
  | .indexSignature data =>
    some ("IndexSignature", .object [("modifiers", encodeNodes? data.modifiers),
      ("parameters", encodeNodes data.parameters), ("type_annotation", data.typeNode.encode)])
  | .parameter data => some ("Parameter", .object [("modifiers", encodeNodes? data.modifiers),
      ("dot_dot_dot_token", .bool data.rest), ("name", data.name.encode),
      ("question_token", .bool data.optional), ("type_annotation", data.typeNode.encode),
      ("initializer", data.initializer.encode)])
  | .typeParameter data => some ("TypeParameter", .object [("name", data.name.encode),
      ("constraint", data.constraint.encode), ("default", data.default.encode)])
  | .heritage token types =>
    some ("Heritage", .object [("token", token.encode), ("types", encodeNodes types)])
  | .heritageEntry expression typeArguments =>
    some ("ExprWithTypeArgs", .object [("expression", expression.encode),
      ("type_arguments", encodeNodes? typeArguments)])
  | .typeReference name typeArguments =>
    some ("TypeRef", .object [("type_name", name.encode),
      ("type_arguments", encodeNodes? typeArguments)])
  | .composite types => some ("CompositeType", .object [("types", encodeNodes types)])
  | .typeLiteral members => some ("TypeLiteral", .object [("members", encodeNodes members)])
  | .arrayType element => some ("ArrayType", .object [("element_type", element.encode)])
  | .typeOperator operator operand =>
    some ("TypeOperator", .object [("operator", operator.encode), ("type_node", operand.encode)])
  | .wrapped inner => some ("WrappedType", .object [("type_node", inner.encode)])
  | .literalType inner => some ("LiteralType", .object [("literal", inner.encode)])

/-- The document of a payload. -/
def encode (payload : Payload) : Json :=
  match payload.encodeTagged? with
  | some tagged => .object [tagged]
  | none => .string "None"

end Payload

/-- The document of a node. -/
def Node.encode (node : Node) : Json :=
  .object [("kind", node.kind.encode), ("flags", .nat node.flags.toNat),
    ("pos", .word node.start), ("end", .word node.stop), ("data", node.payload.encode)]

/-- The document of an arena. -/
def Arena.encode (arena : Arena) : Json :=
  .object [("nodes", .array (arena.nodes.toList.map Node.encode)),
    ("parents", .array (arena.parents.toList.map NodeIndex.encode))]

/-- The document of an optional text. -/
def encodeText? (text : Option String) : Json :=
  .ofOption .string text

/-- The document of a tag. -/
def CommentTag.encode (tag : CommentTag) : Json :=
  .object [("tag_name", .string tag.word), ("comment", encodeText? tag.comment),
    ("name", encodeText? tag.name), ("type_expression", tag.type.encode)]

/-- The document of a comment. -/
def Comment.encode (comment : Comment) : Json :=
  .object [("comment", encodeText? comment.text),
    ("tags", .array (comment.tags.map CommentTag.encode))]

/-- The key of a map, in decimal digits. -/
def encodeKey (key : UInt32) : String :=
  String.ofList (Nat.toDigits 10 key.toNat)

/-- The document of a map. -/
def WordMap.encode {α : Type} (encodeValue : α → Json) (map : WordMap α) : Json :=
  .object (map.entries.map fun (key, value) => (encodeKey key, encodeValue value))

/-- The document of a source file. -/
def SourceFile.encode (file : SourceFile) : Json :=
  .object [("file_name", .string file.path), ("text", .string file.text),
    ("arena", file.arena.encode), ("statements", encodeNodes file.statements),
    ("jsdoc", file.commentMap.encode fun comments => .array (comments.map Comment.encode))]

/-- The document of a declaration site. -/
def DeclarationSite.encode (site : DeclarationSite) : Json :=
  .object [("file", .word site.file.raw), ("node", site.node.encode)]

/-- The document of a symbol number. -/
def SymbolId.encode (id : SymbolId) : Json := .word id.raw

/-- The document of a symbol. -/
def Symbol.encode (symbol : Symbol) : Json :=
  .object [("name", .string symbol.name), ("flags", .word symbol.flags),
    ("parent", .ofOption SymbolId.encode symbol.parent),
    ("declarations", .array (symbol.declarations.map DeclarationSite.encode)),
    ("module_specifier", encodeText? symbol.specifier)]

mutual

/-- The document of an inferred type. -/
def InferredType.encode : InferredType → Json
  | ⟨text, symbol, arguments⟩ =>
    .object [("text", .string text), ("symbol", .ofOption SymbolId.encode symbol),
      ("type_arguments", .array (InferredType.encodeList arguments))]

/-- The documents of a list of inferred types. -/
def InferredType.encodeList : List InferredType → List Json
  | [] => []
  | type :: types => type.encode :: InferredType.encodeList types

end

/-- The document of an inferred signature. -/
def InferredSignature.encode (signature : InferredSignature) : Json :=
  .object [("return_type", .ofOption InferredType.encode signature.returnType)]

/-- The document of the checker's answers for a file. -/
def FileBindings.encode (answers : FileBindings) : Json :=
  .object [("node_symbols", answers.symbols.encode SymbolId.encode),
    ("signatures", answers.signatures.encode InferredSignature.encode)]

namespace Program

/-- The document of a program. -/
def encode (program : Program) : Json :=
  .object [("files", .array (program.files.toList.map SourceFile.encode)),
    ("symbols", .object [("symbols", .array (program.symbols.toList.map Symbol.encode))]),
    ("bindings", .array (program.bindings.toList.map FileBindings.encode))]

/-- The document of a program, as text. -/
def toText (program : Program) : String :=
  program.encode.compact

end Program

end ApiDocs
