import ApiDocs.Program.Symbol
import ApiDocs.Text.Position

/-!
# The type model

Every type that the documentation shows is a value of the closed type `Ty`.  Syntax without a
structural counterpart is shown as it was written, by `Ty.written`.

## Main definitions

* `Reference` — what a name in a type points at.
* `Parameter`, `TypeParameter`, `Member`, `DocBlock` — the parts of types that contain types.
* `Ty` — a resolved type.

## Design notes

**The parts are generic in the type they contain.**  Object members contain documentation, which
contains tags, which contain types; as generic structures each of them keeps its field names, and
`Ty` is the only recursive type.
-/

namespace ApiDocs

/-- Where something is declared: its position and a link to its source line.  Both are absent for
a node without source text. -/
structure Location where
  position : Option Text.Position := none
  link : Option String := none
deriving DecidableEq

/-- Whether nothing is known about a place. -/
def Location.isEmpty (location : Location) : Bool :=
  location.position.isNone && location.link.isNone

/-- What a reference to a declaration says: its name, the path of the module that holds it, and
whether it lies outside the documented project. -/
structure ReferenceTarget where
  name : String
  path : List String
  external : Bool
  kind : Option DeclarationKind
deriving DecidableEq

/-- What a name points at. -/
inductive Reference where
  | declaration (target : ReferenceTarget)
  /-- A name of the platform that the project does not declare. -/
  | builtin (name : String)
  /-- A member of an enum, with the reference of the enum. -/
  | enumMember (owner : Reference) (member : String)
  /-- No target is known; the name as it was written. -/
  | written (name : String)
deriving DecidableEq

/-- The name that a reference displays. -/
def Reference.name : Reference → String
  | declaration target => target.name
  | builtin name => name
  | enumMember _ member => member
  | written name => name

/-- A type parameter. -/
structure TypeParameter (τ : Type) where
  name : String
  constraint : Option τ
  default : Option τ

/-- A parameter.  The comment is the text of the tag that documents it. -/
structure Parameter (τ : Type) where
  name : String
  type : Option τ
  default : Option τ
  rest : Bool
  optional : Bool
  comment : Option String

/-- A tag of a documentation block. -/
structure DocTag (τ : Type) where
  word : String
  comment : Option String
  /-- The parameter or property that the tag names. -/
  argument : Option String
  type : Option τ

/-- A documentation block. -/
structure DocBlock (τ : Type) where
  comment : Option String
  tags : Option (List (DocTag τ)) := none

/-- A property of an object type or interface. -/
structure PropertySignature (τ : Type) where
  name : String
  type : Option τ
  optional : Bool
  readonly : Bool
  location : Location
  doc : Option (DocBlock τ)

/-- An index signature of an object type or interface. -/
structure IndexSignature (τ : Type) where
  keyName : String
  keyType : Option τ
  type : Option τ
  readonly : Bool

/-- A member of an object type or interface. -/
inductive Member (τ : Type) where
  | property (signature : PropertySignature τ)
  | index (signature : IndexSignature τ)

/-- The name that a member displays. -/
def Member.name {τ : Type} : Member τ → String
  | property signature => signature.name
  | index signature => signature.keyName

/-- The types that a single word spells. -/
inductive Keyword where
  | number
  | string
  | boolean
  | true
  | false
  | undefined
  | null
  | void
  | any
  | unknown
  | never
  | object
  | symbol
  | bigint
deriving DecidableEq

/-- A resolved type. -/
inductive Ty where
  | keyword (word : Keyword)
  | numberLiteral (value : String)
  | stringLiteral (value : String)
  | reference (target : Reference) (arguments : List Ty)
  | arrow (parameters : List (Parameter Ty)) (result : Option Ty)
      (typeParameters : List (TypeParameter Ty))
  | object (members : List (Member Ty))
  | union (types : List Ty)
  | intersection (types : List Ty)
  | tuple (types : List Ty)
  | array (element : Ty)
  | unique (inner : Ty)
  | keyof (inner : Ty)
  | readonly (inner : Ty)
  /-- Syntax without a structural counterpart, as it was written. -/
  | written (text : String)

/-- Whether a type is shown as it was written. -/
def Ty.isWritten : Ty → Bool
  | written _ => true
  | _ => false

/-- A reference with type arguments, as in a list of base types. -/
structure TypeReference where
  target : Reference
  arguments : List Ty := []

/-- A reference as a type. -/
def TypeReference.toTy (reference : TypeReference) : Ty :=
  .reference reference.target reference.arguments

end ApiDocs
