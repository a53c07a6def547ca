import ApiDocs.Model.Type
import ApiDocs.Table

/-!
# Declaration records

What a module of the documentation holds about each declaration.  A class and a type alias are
described by one declaration; an interface and an enum accumulate over all declarations of their
name, and a function collects one signature from each.
-/

namespace ApiDocs

/-- The documentation of a declaration. -/
abbrev Doc := DocBlock Ty

/-- A signature of a function or method. -/
structure FunctionSignature where
  parameters : List (Parameter Ty)
  typeParameters : List (TypeParameter Ty)
  result : Option Ty
  location : Location
  doc : Option Doc

/-- A function with the signatures of all its declarations. -/
structure FunctionRecord where
  name : String
  location : Location
  doc : Option Doc
  exported : Bool
  signatures : List FunctionSignature

/-- The access flags of a class member. -/
structure MemberFlags where
  isStatic : Bool
  isPrivate : Bool
  isProtected : Bool
  isReadonly : Bool
  isAbstract : Bool
deriving DecidableEq

/-- A property of a class. -/
structure ClassProperty where
  name : String
  type : Option Ty
  flags : MemberFlags
  optional : Bool
  location : Location
  doc : Option Doc

/-- What kind of method an entry of a class is. -/
inductive MethodRole where
  | plain
  | getter
  | setter
deriving DecidableEq

/-- A method or accessor of a class. -/
structure ClassMethod where
  name : String
  flags : MemberFlags
  role : MethodRole
  signatures : List FunctionSignature

/-- The body of a class. -/
structure ClassBody where
  properties : List ClassProperty := []
  /-- Methods under their names, accessors under `get name` and `set name`. -/
  methods : Table String ClassMethod := {}
  /-- The parameters of the constructor. -/
  constructorParameters : Option (List (Parameter Ty)) := none

/-- A class. -/
structure ClassRecord where
  name : String
  typeParameters : List (TypeParameter Ty) := []
  body : ClassBody := {}
  base : Option TypeReference := none
  implemented : List TypeReference := []
  location : Location
  doc : Option Doc
  exported : Bool
  abstract : Bool

namespace ClassRecord

/-- The entry of a class under a key of its methods. -/
def method? (record : ClassRecord) (name : String) : Option ClassMethod :=
  record.body.methods.find? name

/-- The first property with a name. -/
def property? (record : ClassRecord) (name : String) : Option ClassProperty :=
  record.body.properties.find? (·.name = name)

end ClassRecord

/-- An interface, accumulated over its declarations. -/
structure InterfaceRecord where
  name : String
  typeParameters : List (TypeParameter Ty) := []
  members : List (Member Ty) := []
  bases : List TypeReference := []
  locations : List Location := []
  docs : List Doc := []
  exported : Bool := false

/-- A member of an enum, with its initializer as written. -/
structure EnumMember where
  name : String
  initializer : Option String
  location : Location
  doc : Option Doc

/-- An enum, accumulated over its declarations. -/
structure EnumRecord where
  name : String
  members : List EnumMember := []
  locations : List Location := []
  docs : List Doc := []
  exported : Bool := false
  isConst : Bool := false

/-- A type alias. -/
structure AliasRecord where
  name : String
  typeParameters : List (TypeParameter Ty) := []
  value : Option Ty := none
  location : Location
  doc : Option Doc
  exported : Bool

/-- An exported constant, with an excerpt of its initializer. -/
structure ConstantRecord where
  name : String
  type : Option Ty
  content : String
  location : Location
  doc : Option Doc

end ApiDocs
