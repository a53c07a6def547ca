import ApiDocs.Json.Value
import ApiDocs.Model.Declaration

/-!
# Writing the model

The documents of types and declarations.  A tagged value has its `kind` first.  Fields without a
value are written as `null`, except those that are left out altogether: the position and link of a
location, the tags of a documentation block, the type arguments of a reference, the type
parameters of a function type, and the kind of a reference's target.
-/

namespace ApiDocs

namespace Json

/-- A text, or `null`. -/
def ofText? (text : Option String) : Json :=
  ofOption string text

/-- A field that is left out when its list is empty. -/
def listField (name : String) : List Json → List (String × Json)
  | [] => []
  | items => [(name, array items)]

end Json

/-- The document of a position. -/
def Text.Position.encode (position : Text.Position) : Json :=
  .object [("line", .nat position.line), ("col", .nat position.character)]

/-- The document of a location. -/
def Location.encode (location : Location) : Json :=
  .object
    ((location.position.toList.map fun position => ("pos", position.encode)) ++
      location.link.toList.map fun link => ("sourceFile", .string link))

/-- The word for a kind of declaration. -/
def DeclarationKind.word : DeclarationKind → String
  | .classType => "class"
  | .interface => "interface"
  | .enumType => "enum"
  | .typeAlias => "typeAlias"
  | .function => "function"
  | .constant => "constant"
  | .module => "module"

/-- The document of a reference. -/
def Reference.encode : Reference → Json
  | .declaration target =>
    .object
      ([("kind", .string "declaration"), ("name", .string target.name),
        ("path", .strings target.path), ("external", .bool target.external)] ++
        target.kind.toList.map fun kind => ("declaration", .string kind.word))
  | .builtin name => .object [("kind", .string "defaultApi"), ("name", .string name)]
  | .enumMember owner member =>
    .object [("kind", .string "enumMember"), ("target", owner.encode), ("member", .string member)]
  | .written name => .object [("kind", .string "stringified"), ("name", .string name)]

/-- The word for a keyword type. -/
def Keyword.word : Keyword → String
  | .number => "number"
  | .string => "string"
  | .boolean => "boolean"
  | .true => "true"
  | .false => "false"
  | .undefined => "undefined"
  | .null => "null"
  | .void => "void"
  | .any => "any"
  | .unknown => "unknown"
  | .never => "never"
  | .object => "object"
  | .symbol => "symbol"
  | .bigint => "bigint"

mutual

/-- The document of a type. -/
def Ty.encode : Ty → Json
  | .keyword word => .object [("kind", .string word.word)]
  | .numberLiteral value => .object [("kind", .string "numberLiteral"), ("value", .string value)]
  | .stringLiteral value => .object [("kind", .string "stringLiteral"), ("value", .string value)]
  | .reference target arguments =>
    .object
      ([("kind", .string "reference"), ("target", target.encode)] ++
        Json.listField "typeArguments" (Ty.encodeList arguments))
  | .arrow parameters result typeParameters =>
    .object
      ([("kind", .string "arrowFunction"), ("parameters", .array (Ty.encodeParameters parameters)),
        ("returnType", Ty.encodeOption result)] ++
        Json.listField "typeParameters" (Ty.encodeTypeParameters typeParameters))
  | .object members =>
    .object [("kind", .string "objectLiteral"), ("properties", .array (Ty.encodeMembers members))]
  | .union types => .object [("kind", .string "union"), ("types", .array (Ty.encodeList types))]
  | .intersection types =>
    .object [("kind", .string "intersection"), ("types", .array (Ty.encodeList types))]
  | .tuple types => .object [("kind", .string "tuple"), ("types", .array (Ty.encodeList types))]
  | .array element => .object [("kind", .string "array"), ("element", element.encode)]
  | .unique inner => .object [("kind", .string "unique"), ("inner", inner.encode)]
  | .keyof inner => .object [("kind", .string "keyof"), ("inner", inner.encode)]
  | .readonly inner => .object [("kind", .string "readonly"), ("inner", inner.encode)]
  | .written text => .object [("kind", .string "stringified"), ("value", .string text)]

/-- The documents of a list of types. -/
def Ty.encodeList : List Ty → List Json
  | [] => []
  | type :: types => type.encode :: Ty.encodeList types

/-- The document of an optional type. -/
def Ty.encodeOption : Option Ty → Json
  | none => .null
  | some type => type.encode

/-- The document of a parameter. -/
def Ty.encodeParameter : Parameter Ty → Json
  | ⟨name, type, default, rest, optional, comment⟩ =>
    .object [("name", .string name), ("type", Ty.encodeOption type),
      ("defaultValue", Ty.encodeOption default), ("rest", .bool rest), ("optional", .bool optional),
      ("comment", .ofText? comment)]

/-- The documents of a list of parameters. -/
def Ty.encodeParameters : List (Parameter Ty) → List Json
  | [] => []
  | parameter :: parameters => Ty.encodeParameter parameter :: Ty.encodeParameters parameters

/-- The document of a type parameter. -/
def Ty.encodeTypeParameter : TypeParameter Ty → Json
  | ⟨name, constraint, default⟩ =>
    .object [("name", .string name), ("constraint", Ty.encodeOption constraint),
      ("default", Ty.encodeOption default)]

/-- The documents of a list of type parameters. -/
def Ty.encodeTypeParameters : List (TypeParameter Ty) → List Json
  | [] => []
  | parameter :: parameters =>
    Ty.encodeTypeParameter parameter :: Ty.encodeTypeParameters parameters

/-- The document of a member. -/
def Ty.encodeMember : Member Ty → Json
  | .property signature => Ty.encodeProperty signature
  | .index signature => Ty.encodeIndex signature

/-- The document of a property of an object type. -/
def Ty.encodeProperty : PropertySignature Ty → Json
  | ⟨name, type, optional, fixed, location, doc⟩ =>
    .object [("kind", .string "property"), ("name", .string name), ("type", Ty.encodeOption type),
      ("optional", .bool optional), ("readonly", .bool fixed), ("loc", location.encode),
      ("jsdoc", Ty.encodeDoc? doc)]

/-- The document of an index signature. -/
def Ty.encodeIndex : IndexSignature Ty → Json
  | ⟨keyName, keyType, type, fixed⟩ =>
    .object [("kind", .string "indexSignature"), ("keyName", .string keyName),
      ("keyType", Ty.encodeOption keyType), ("type", Ty.encodeOption type),
      ("readonly", .bool fixed)]

/-- The documents of a list of members. -/
def Ty.encodeMembers : List (Member Ty) → List Json
  | [] => []
  | member :: members => Ty.encodeMember member :: Ty.encodeMembers members

/-- The document of an optional documentation block. -/
def Ty.encodeDoc? : Option (DocBlock Ty) → Json
  | none => .null
  | some doc => Ty.encodeDoc doc

/-- The document of a documentation block. -/
def Ty.encodeDoc : DocBlock Ty → Json
  | ⟨comment, tags⟩ => .object (("comment", .ofText? comment) :: Ty.tagsField tags)

/-- The field of a list of tags; it is left out in the absence of a list. -/
def Ty.tagsField : Option (List (DocTag Ty)) → List (String × Json)
  | none => []
  | some tags => [("tags", .array (Ty.encodeTags tags))]

/-- The documents of a list of tags. -/
def Ty.encodeTags : List (DocTag Ty) → List Json
  | [] => []
  | tag :: tags => Ty.encodeTag tag :: Ty.encodeTags tags

/-- The document of a tag. -/
def Ty.encodeTag : DocTag Ty → Json
  | ⟨word, comment, argument, type⟩ =>
    .object [("name", .string word), ("comment", .ofText? comment), ("arg", .ofText? argument),
      ("type", Ty.encodeOption type)]

end

/-- The document of a reference with type arguments. -/
def TypeReference.encode (reference : TypeReference) : Json :=
  .object
    (("target", reference.target.encode) ::
      Json.listField "typeArguments" (Ty.encodeList reference.arguments))

/-- The document of a signature. -/
def FunctionSignature.encode (signature : FunctionSignature) : Json :=
  .object [("parameters", .array (Ty.encodeParameters signature.parameters)),
    ("typeParameters", .array (Ty.encodeTypeParameters signature.typeParameters)),
    ("returnType", Ty.encodeOption signature.result), ("loc", signature.location.encode),
    ("jsdoc", Ty.encodeDoc? signature.doc)]

/-- The document of a function. -/
def FunctionRecord.encode (record : FunctionRecord) : Json :=
  .object [("name", .string record.name), ("loc", record.location.encode),
    ("jsdoc", Ty.encodeDoc? record.doc), ("isExported", .bool record.exported),
    ("signatures", .array (record.signatures.map FunctionSignature.encode))]

/-- The fields of access flags. -/
def MemberFlags.fields (flags : MemberFlags) : List (String × Json) :=
  [("isStatic", .bool flags.isStatic), ("isPrivate", .bool flags.isPrivate),
    ("isProtected", .bool flags.isProtected), ("isReadonly", .bool flags.isReadonly),
    ("isAbstract", .bool flags.isAbstract)]

/-- The document of a class property. -/
def ClassProperty.encode (property : ClassProperty) : Json :=
  .object
    ([("name", .string property.name), ("type", Ty.encodeOption property.type)] ++
      property.flags.fields ++
      [("optional", .bool property.optional), ("loc", property.location.encode),
        ("jsdoc", Ty.encodeDoc? property.doc)])

/-- The document of a method. -/
def ClassMethod.encode (method : ClassMethod) : Json :=
  .object
    (("name", .string method.name) :: method.flags.fields ++
      [("isGetter", .bool (method.role = .getter)), ("isSetter", .bool (method.role = .setter)),
        ("signatures", .array (method.signatures.map FunctionSignature.encode))])

/-- The document of a class. -/
def ClassRecord.encode (record : ClassRecord) : Json :=
  .object [("name", .string record.name),
    ("typeParameters", .array (Ty.encodeTypeParameters record.typeParameters)),
    ("properties", .array (record.body.properties.map ClassProperty.encode)),
    ("methods", .array (record.body.methods.values.map ClassMethod.encode)),
    ("constructor", .ofOption
      (fun parameters => .object [("parameters", .array (Ty.encodeParameters parameters))])
      record.body.constructorParameters),
    ("extends", .ofOption TypeReference.encode record.base),
    ("implements", .array (record.implemented.map TypeReference.encode)),
    ("loc", record.location.encode), ("jsdoc", Ty.encodeDoc? record.doc),
    ("isExported", .bool record.exported), ("isAbstract", .bool record.abstract)]

/-- The document of an interface. -/
def InterfaceRecord.encode (record : InterfaceRecord) : Json :=
  .object [("name", .string record.name),
    ("typeParameters", .array (Ty.encodeTypeParameters record.typeParameters)),
    ("properties", .array (Ty.encodeMembers record.members)),
    ("extends", .array (record.bases.map TypeReference.encode)),
    ("loc", .array (record.locations.map Location.encode)),
    ("jsdoc", .array (record.docs.map Ty.encodeDoc)), ("isExported", .bool record.exported)]

/-- The document of a member of an enum. -/
def EnumMember.encode (member : EnumMember) : Json :=
  .object [("name", .string member.name), ("initializer", .ofText? member.initializer),
    ("loc", member.location.encode), ("jsdoc", Ty.encodeDoc? member.doc)]

/-- The document of an enum. -/
def EnumRecord.encode (record : EnumRecord) : Json :=
  .object [("name", .string record.name),
    ("members", .array (record.members.map EnumMember.encode)),
    ("loc", .array (record.locations.map Location.encode)),
    ("jsdoc", .array (record.docs.map Ty.encodeDoc)), ("isExported", .bool record.exported),
    ("isConst", .bool record.isConst)]

/-- The document of a type alias. -/
def AliasRecord.encode (record : AliasRecord) : Json :=
  .object [("name", .string record.name),
    ("typeParameters", .array (Ty.encodeTypeParameters record.typeParameters)),
    ("value", Ty.encodeOption record.value), ("loc", record.location.encode),
    ("jsdoc", Ty.encodeDoc? record.doc), ("isExported", .bool record.exported)]

/-- The document of a constant. -/
def ConstantRecord.encode (record : ConstantRecord) : Json :=
  .object [("name", .string record.name), ("type", Ty.encodeOption record.type),
    ("content", .string record.content), ("loc", record.location.encode),
    ("jsdoc", Ty.encodeDoc? record.doc)]

end ApiDocs
