import ApiDocs.Model.Encode
import ApiDocs.Proofs.Json.Order

/-!
# Readers of types

The documents of types are made for other programs, and this module is one of them: it reads types,
references and members from documents, **by the names of fields only**.  A variant is told by the
word in the field `kind`, fields that may be left out or `null` are absent then, and other fields
have to be there.

## Main definitions

* `Reference.read?`, `Ty.read?`, `Ty.readMember?` — the readers.
* `Reference.Tag`, `Ty.Tag` — the variants of references and types, as documents tell them apart.

## Main statements

* `Reference.respectful_readWithin?`, `respectful_member`, `Ty.respectful_readWithin?` — the order
  of fields does not matter.

## Design notes

**Room instead of a recursion over types.**  The type `Ty` is nested in seven kinds of parts.
Reading goes down the document instead, with a number of levels that it may go; the levels of the
document itself are always enough.
-/

namespace ApiDocs

open Json

/-! ## Locations -/

/-- Reads a position. -/
def Text.Position.read? (document : Json) : Option Text.Position := do
  let line ← document.required? "line" nat?
  let character ← document.required? "col" nat?
  some { line, character }

/-- Reads a location. -/
def Location.read? (document : Json) : Option Location := do
  let position ← document.leftOut? "pos" Text.Position.read?
  let link ← document.leftOut? "sourceFile" text?
  some { position, link }

/-! ## References -/

/-- The kinds of declarations. -/
def DeclarationKind.all : List DeclarationKind :=
  [.classType, .interface, .enumType, .typeAlias, .function, .constant, .module]

/-- The variants of references. -/
inductive Reference.Tag where
  | declaration
  | builtin
  | enumMember
  | written
deriving DecidableEq

/-- The word for a variant of references. -/
def Reference.Tag.word : Reference.Tag → String
  | declaration => "declaration"
  | builtin => "defaultApi"
  | enumMember => "enumMember"
  | written => "stringified"

/-- The variants of references, in order. -/
def Reference.Tag.all : List Reference.Tag :=
  [declaration, builtin, enumMember, written]

/-- Reads a reference, given how to read the one inside. -/
def Reference.readStep? (read : Json → Option Reference) (document : Json) : Option Reference := do
  let tag ← document.required? "kind" (named? Tag.word Tag.all)
  match tag with
  | .declaration =>
    let name ← document.required? "name" text?
    let path ← document.required? "path" (list? text?)
    let external ← document.required? "external" bool?
    let kind ← document.leftOut? "declaration" (named? DeclarationKind.word DeclarationKind.all)
    some (.declaration { name, path, external, kind })
  | .builtin =>
    let name ← document.required? "name" text?
    some (.builtin name)
  | .enumMember =>
    let owner ← document.required? "target" read
    let member ← document.required? "member" text?
    some (.enumMember owner member)
  | .written =>
    let name ← document.required? "name" text?
    some (.written name)

/-- Reads a reference with a number of levels. -/
def Reference.readWithin? : Nat → Json → Option Reference
  | 0, _ => none
  | room + 1, document => readStep? (readWithin? room) document

/-- Reads a reference. -/
def Reference.read? (document : Json) : Option Reference :=
  readWithin? (document.depth + 1) document

/-! ## Types -/

/-- Reads a type parameter, given how to read types. -/
def TypeParameter.read? (read : Json → Option Ty) (document : Json) :
    Option (TypeParameter Ty) := do
  let name ← document.required? "name" text?
  let constraint ← document.nullable? "constraint" read
  let default ← document.nullable? "default" read
  some { name, constraint, default }

/-- Reads a parameter, given how to read types. -/
def Parameter.read? (read : Json → Option Ty) (document : Json) : Option (Parameter Ty) := do
  let name ← document.required? "name" text?
  let type ← document.nullable? "type" read
  let default ← document.nullable? "defaultValue" read
  let rest ← document.required? "rest" bool?
  let optional ← document.required? "optional" bool?
  let comment ← document.nullable? "comment" text?
  some { name, type, default, rest, optional, comment }

/-- Reads a tag, given how to read types. -/
def DocTag.read? (read : Json → Option Ty) (document : Json) : Option (DocTag Ty) := do
  let word ← document.required? "name" text?
  let comment ← document.nullable? "comment" text?
  let argument ← document.nullable? "arg" text?
  let type ← document.nullable? "type" read
  some { word, comment, argument, type }

/-- Reads a documentation block, given how to read types. -/
def DocBlock.read? (read : Json → Option Ty) (document : Json) : Option (DocBlock Ty) := do
  let comment ← document.nullable? "comment" text?
  let tags ← document.leftOut? "tags" (list? (DocTag.read? read))
  some { comment, tags }

/-- The word that tells properties from index signatures. -/
def memberWord (isIndex : Bool) : String :=
  if isIndex then "indexSignature" else "property"

/-- Reads a member, given how to read types. -/
def Member.read? (read : Json → Option Ty) (document : Json) : Option (Member Ty) := do
  let isIndex ← document.required? "kind" (named? memberWord [true, false])
  match isIndex with
  | false =>
    let name ← document.required? "name" text?
    let type ← document.nullable? "type" read
    let optional ← document.required? "optional" bool?
    let readonly ← document.required? "readonly" bool?
    let location ← document.required? "loc" Location.read?
    let doc ← document.nullable? "jsdoc" (DocBlock.read? read)
    some (.property { name, type, optional, readonly, location, doc })
  | true =>
    let keyName ← document.required? "keyName" text?
    let keyType ← document.nullable? "keyType" read
    let type ← document.nullable? "type" read
    let readonly ← document.required? "readonly" bool?
    some (.index { keyName, keyType, type, readonly })

namespace Ty

/-- The variants of types, as their documents tell them apart. -/
inductive Tag where
  | keyword (word : Keyword)
  | numberLiteral
  | stringLiteral
  | reference
  | arrow
  | object
  | union
  | intersection
  | tuple
  | array
  | unique
  | keyof
  | readonly
  | written
deriving DecidableEq

/-- The word for a variant of types. -/
def Tag.word : Tag → String
  | keyword word => word.word
  | numberLiteral => "numberLiteral"
  | stringLiteral => "stringLiteral"
  | reference => "reference"
  | arrow => "arrowFunction"
  | object => "objectLiteral"
  | union => "union"
  | intersection => "intersection"
  | tuple => "tuple"
  | array => "array"
  | unique => "unique"
  | keyof => "keyof"
  | readonly => "readonly"
  | written => "stringified"

/-- The variants of types, in order. -/
def Tag.all : List Tag :=
  [keyword .number, keyword .string, keyword .boolean, keyword .true, keyword .false,
    keyword .undefined, keyword .null, keyword .void, keyword .any, keyword .unknown,
    keyword .never, keyword .object, keyword .symbol, keyword .bigint, numberLiteral,
    stringLiteral, reference, arrow, object, union, intersection, tuple, array, unique, keyof,
    readonly, written]

/-- Reads a type, given how to read references and the types inside. -/
def readStep? (target : Json → Option Reference) (read : Json → Option Ty) (document : Json) :
    Option Ty := do
  let tag ← document.required? "kind" (named? Tag.word Tag.all)
  match tag with
  | .keyword word => some (.keyword word)
  | .numberLiteral => (document.required? "value" text?).map .numberLiteral
  | .stringLiteral => (document.required? "value" text?).map .stringLiteral
  | .reference =>
    let target ← document.required? "target" target
    let arguments ← document.listed? "typeArguments" read
    some (.reference target arguments)
  | .arrow =>
    let parameters ← document.required? "parameters" (list? (Parameter.read? read))
    let result ← document.nullable? "returnType" read
    let typeParameters ← document.listed? "typeParameters" (TypeParameter.read? read)
    some (.arrow parameters result typeParameters)
  | .object => (document.required? "properties" (list? (Member.read? read))).map .object
  | .union => (document.required? "types" (list? read)).map .union
  | .intersection => (document.required? "types" (list? read)).map .intersection
  | .tuple => (document.required? "types" (list? read)).map .tuple
  | .array => (document.required? "element" read).map .array
  | .unique => (document.required? "inner" read).map .unique
  | .keyof => (document.required? "inner" read).map .keyof
  | .readonly => (document.required? "inner" read).map .readonly
  | .written => (document.required? "value" text?).map .written

/-- Reads a type with a number of levels. -/
def readWithin? : Nat → Json → Option Ty
  | 0, _ => none
  | room + 1, document => readStep? (Reference.readWithin? room) (readWithin? room) document

/-- Reads a type. -/
def read? (document : Json) : Option Ty :=
  readWithin? (document.depth + 1) document

/-- Reads a member. -/
def readMember? (document : Json) : Option (Member Ty) :=
  Member.read? (readWithin? document.depth) document

end Ty

/-! ## The order of fields does not matter -/

theorem respectful_position : Respectful Text.Position.read? := by
  refine (respectful_nat?.required? "line").bind fun line => ?_
  refine (respectful_nat?.required? "col").bind fun character => ?_
  exact respectful_const _

theorem respectful_location : Respectful Location.read? := by
  refine (respectful_position.leftOut? "pos").bind fun position => ?_
  refine (respectful_text?.leftOut? "sourceFile").bind fun link => ?_
  exact respectful_const _

theorem Reference.respectful_readWithin? (room : Nat) : Respectful (readWithin? room) := by
  induction room with
  | zero => exact respectful_const none
  | succ room ih =>
      refine ((respectful_named? _ _).required? "kind").bind fun tag => ?_
      cases tag with
      | declaration =>
          refine (respectful_text?.required? "name").bind fun name => ?_
          refine ((respectful_list? respectful_text?).required? "path").bind fun path => ?_
          refine (respectful_bool?.required? "external").bind fun external => ?_
          refine ((respectful_named? _ _).leftOut? "declaration").bind fun kind => ?_
          exact respectful_const _
      | builtin => exact (respectful_text?.required? "name").bind fun name => respectful_const _
      | enumMember =>
          refine (ih.required? "target").bind fun owner => ?_
          refine (respectful_text?.required? "member").bind fun member => ?_
          exact respectful_const _
      | written => exact (respectful_text?.required? "name").bind fun name => respectful_const _

section

variable {read : Json → Option Ty} (respects : Respectful read)
include respects

theorem respectful_typeParameter : Respectful (TypeParameter.read? read) := by
  refine (respectful_text?.required? "name").bind fun name => ?_
  refine (respects.nullable? "constraint").bind fun constraint => ?_
  refine (respects.nullable? "default").bind fun default => ?_
  exact respectful_const _

theorem respectful_parameter : Respectful (Parameter.read? read) := by
  refine (respectful_text?.required? "name").bind fun name => ?_
  refine (respects.nullable? "type").bind fun type => ?_
  refine (respects.nullable? "defaultValue").bind fun default => ?_
  refine (respectful_bool?.required? "rest").bind fun rest => ?_
  refine (respectful_bool?.required? "optional").bind fun optional => ?_
  refine (respectful_text?.nullable? "comment").bind fun comment => ?_
  exact respectful_const _

theorem respectful_docTag : Respectful (DocTag.read? read) := by
  refine (respectful_text?.required? "name").bind fun word => ?_
  refine (respectful_text?.nullable? "comment").bind fun comment => ?_
  refine (respectful_text?.nullable? "arg").bind fun argument => ?_
  refine (respects.nullable? "type").bind fun type => ?_
  exact respectful_const _

theorem respectful_docBlock : Respectful (DocBlock.read? read) := by
  refine (respectful_text?.nullable? "comment").bind fun comment => ?_
  refine ((respectful_list? (respectful_docTag respects)).leftOut? "tags").bind fun tags => ?_
  exact respectful_const _

theorem respectful_member : Respectful (Member.read? read) := by
  refine ((respectful_named? _ _).required? "kind").bind fun isIndex => ?_
  cases isIndex with
  | false =>
      refine (respectful_text?.required? "name").bind fun name => ?_
      refine (respects.nullable? "type").bind fun type => ?_
      refine (respectful_bool?.required? "optional").bind fun optional => ?_
      refine (respectful_bool?.required? "readonly").bind fun fixed => ?_
      refine (respectful_location.required? "loc").bind fun location => ?_
      refine ((respectful_docBlock respects).nullable? "jsdoc").bind fun doc => ?_
      exact respectful_const _
  | true =>
      refine (respectful_text?.required? "keyName").bind fun keyName => ?_
      refine (respects.nullable? "keyType").bind fun keyType => ?_
      refine (respects.nullable? "type").bind fun type => ?_
      refine (respectful_bool?.required? "readonly").bind fun fixed => ?_
      exact respectful_const _

end

theorem Ty.respectful_readWithin? (room : Nat) : Respectful (readWithin? room) := by
  induction room with
  | zero => exact respectful_const none
  | succ room ih =>
      have target := Reference.respectful_readWithin? room
      have types : Respectful (list? (readWithin? room)) := respectful_list? ih
      refine ((respectful_named? _ _).required? "kind").bind fun tag => ?_
      cases tag with
      | keyword word => exact respectful_const _
      | numberLiteral => exact (respectful_text?.required? "value").map _
      | stringLiteral => exact (respectful_text?.required? "value").map _
      | reference =>
          refine (target.required? "target").bind fun target => ?_
          refine (ih.listed? "typeArguments").bind fun arguments => ?_
          exact respectful_const _
      | arrow =>
          have parameters := respectful_list? (respectful_parameter ih)
          have typeParameters := respectful_typeParameter ih
          refine (parameters.required? "parameters").bind fun parameters => ?_
          refine (ih.nullable? "returnType").bind fun result => ?_
          refine (typeParameters.listed? "typeParameters").bind fun typeParameters => ?_
          exact respectful_const _
      | object => exact ((respectful_list? (respectful_member ih)).required? "properties").map _
      | union => exact (types.required? "types").map _
      | intersection => exact (types.required? "types").map _
      | tuple => exact (types.required? "types").map _
      | array => exact (ih.required? "element").map _
      | unique => exact (ih.required? "inner").map _
      | keyof => exact (ih.required? "inner").map _
      | readonly => exact (ih.required? "inner").map _
      | written => exact (respectful_text?.required? "value").map _

end ApiDocs
