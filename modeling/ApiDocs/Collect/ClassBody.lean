import ApiDocs.Resolve.Types

/-!
# Class bodies

The body of a class is collected member by member.  A `ClassPart` is what one member contributes,
and `ClassBody.add` says how contributions accumulate.

## Main definitions

* `Resolver.classPart?` — what a member contributes.
* `ClassBody.add` — adds a contribution to a body.
* `Resolver.classBody` — the body of a class.

## Design notes

**Methods, accessors and constructors.**  Declarations of a method add a signature to the entry of
its name.  A getter and a setter are entries of their own, under keys that begin with `get` and
`set`; a repeated one replaces the earlier.  The last constructor counts, and its parameters with
an access modifier are properties of the class.
-/

namespace ApiDocs

/-- What one member contributes to the body of a class. -/
inductive ClassPart where
  | property (property : ClassProperty)
  | method (name : String) (flags : MemberFlags) (signature : FunctionSignature)
  | getter (name : String) (flags : MemberFlags) (signature : FunctionSignature)
  | setter (name : String) (flags : MemberFlags) (signature : FunctionSignature)
  | constructor (properties : List ClassProperty) (parameters : List (Parameter Ty))

namespace ClassBody

/-- Adds a contribution to a body. -/
def add (body : ClassBody) : ClassPart → ClassBody
  | .property property => { body with properties := body.properties ++ [property] }
  | .method name flags signature =>
    { body with
      methods := body.methods.upsert name { name, flags, role := .plain, signatures := [] }
        fun method => { method with signatures := method.signatures ++ [signature] } }
  | .getter name flags signature =>
    { body with
      methods := body.methods.insert ("get " ++ name)
        { name, flags, role := .getter, signatures := [signature] } }
  | .setter name flags signature =>
    { body with
      methods := body.methods.insert ("set " ++ name)
        { name, flags, role := .setter, signatures := [signature] } }
  | .constructor properties parameters =>
    { body with
      properties := body.properties ++ properties
      constructorParameters := some parameters }

/-- The body that a list of contributions makes. -/
def ofParts (parts : List ClassPart) : ClassBody :=
  parts.foldl add {}

end ClassBody

/-- The access flags of a member; a name with `#` is private. -/
def memberFlags (arena : Arena) (modifiers : Option NodeList) (name : NodeIndex) :
    MemberFlags where
  isStatic := arena.hasModifier modifiers .staticKeyword
  isPrivate := arena.hasModifier modifiers .privateKeyword ||
    decide (arena.kind? name = some .privateIdentifier)
  isProtected := arena.hasModifier modifiers .protectedKeyword
  isReadonly := arena.hasModifier modifiers .readonlyKeyword
  isAbstract := arena.hasModifier modifiers .abstractKeyword

/-- The modifiers that make a property of a constructor's parameter. -/
def propertyModifiers : List Kind :=
  [.publicKeyword, .privateKeyword, .protectedKeyword, .readonlyKeyword]

namespace Resolver

variable {m : Type → Type} [Monad m]

/-- The property that a parameter of a constructor declares; `none` without an access modifier. -/
def parameterProperty? (resolver : Resolver m) (scope : Scope) (index : NodeIndex) :
    m (Option ClassProperty) :=
  let arena := scope.source.arena
  match arena.payload? index with
  | some (.parameter data) =>
    if propertyModifiers.any (arena.hasModifier data.modifiers) then do
      let type ← optionalType (resolver.type scope) data.typeNode
      pure (some
        { name := scope.source.declarationName data.name
          type
          flags := memberFlags arena data.modifiers data.name
          optional := data.optional
          location := scope.location index
          doc := (parameterCommentWithin? scope (resolver.depth scope.source) index).map
            fun comment => { comment := some comment } })
    else pure none
  | _ => pure none

/-- The type of a property: the annotated one, or else that of its initializer. -/
def propertyType? (resolver : Resolver m) (scope : Scope) (data : PropertyPayload) :
    m (Option Ty) :=
  match data.typeNode.toOption with
  | some typeNode => some <$> resolver.type scope typeNode
  | none => optionalType (resolver.expression (resolver.type scope) scope) data.initializer

/-- A contribution with a signature. -/
def signaturePart? (resolver : Resolver m) (scope : Scope) (index : NodeIndex)
    (data : FunctionPayload)
    (part : String → MemberFlags → FunctionSignature → ClassPart) : m (Option ClassPart) := do
  let signature ← resolver.signature? (resolver.type scope) scope index
  pure (signature.map
    (part (scope.source.declarationName data.name)
      (memberFlags scope.source.arena data.modifiers data.name)))

/-- What a member contributes; `none` for a member that is not documented. -/
def classPart? (resolver : Resolver m) (scope : Scope) (index : NodeIndex) :
    m (Option ClassPart) :=
  match scope.source.arena.get? index with
  | none => pure none
  | some node =>
    match node.kind, node.payload with
    | .propertyDeclaration, .property data => do
      let type ← resolver.propertyType? scope data
      let doc ← doc? (resolver.type scope) scope index
      pure (some (.property
        { name := scope.source.declarationName data.name
          type
          flags := memberFlags scope.source.arena data.modifiers data.name
          optional := data.optional
          location := scope.location index
          doc }))
    | .methodDeclaration, .functionDecl data => resolver.signaturePart? scope index data .method
    | .getAccessor, .functionDecl data => resolver.signaturePart? scope index data .getter
    | .setAccessor, .functionDecl data => resolver.signaturePart? scope index data .setter
    | .constructor, .functionDecl data => do
      let properties ← collectM (resolver.parameterProperty? scope) data.parameters
      let parameters ← resolver.parameters (resolver.type scope) scope data.parameters
      pure (some (.constructor properties parameters))
    | _, _ => pure none

/-- The body of a class with the given members. -/
def classBody (resolver : Resolver m) (scope : Scope) (members : NodeList) : m ClassBody := do
  let parts ← collectM (resolver.classPart? scope) members
  pure (.ofParts parts)

end Resolver

end ApiDocs
