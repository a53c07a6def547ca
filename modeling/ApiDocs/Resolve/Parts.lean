import ApiDocs.Model.Declaration
import ApiDocs.Resolve.Names
import ApiDocs.Text.Numeral

/-!
# Resolving the parts of types

Parameters, signatures, object members, base types, expressions and documentation all contain
types.  Each function here takes the resolution of a type node as its argument `type`, so that
none of them is recursive; `ApiDocs.Resolve.Types` ties the knot.

## Main definitions

* `Resolver.doc?`, `Resolver.docs` — the block that documents a node, and all its blocks.
* `parameterComment?` — the comment of the tag that documents a parameter.
* `Resolver.expression` — the type of an initializer or default value.
* `Resolver.parameter?`, `Resolver.typeParameter?`, `Resolver.signature?`, `Resolver.member?` —
  the parts of declarations; `none` where a node has the wrong layout.
* `Resolver.heritage` — an entry of a list of base types.
-/

namespace ApiDocs

/-- The answers that an effectful function gives on a list, in order. -/
def collectM {m : Type → Type} [Monad m] {α β : Type} (answer? : α → m (Option β)) :
    List α → m (List β)
  | [] => pure []
  | a :: rest => do
    let first ← answer? a
    let others ← collectM answer? rest
    pure (first.toList ++ others)

/-! ## Literals -/

/-- The value of a literal: the text it holds, or its source text. -/
def literalText (scope : Scope) (index : NodeIndex) : String :=
  scope.source.nameOf index

/-- A literal in the place of a type. -/
def literalType (scope : Scope) (index : NodeIndex) : Ty :=
  let text := scope.source.nodeText index
  match scope.source.arena.kind? index with
  | some .numericLiteral => .numberLiteral (literalText scope index)
  | some .stringLiteral => .stringLiteral (literalText scope index)
  | some .noSubstitutionTemplateLiteral => .stringLiteral (literalText scope index)
  | some .prefixUnaryExpression =>
    if Text.isSignedNumber text.toList then .numberLiteral text else .written text
  | some .trueKeyword => .keyword .true
  | some .falseKeyword => .keyword .false
  | some .nullKeyword => .keyword .null
  | some .undefinedKeyword => .keyword .undefined
  | _ => .written text

/-! ## Comments of parameters -/

/-- Whether the search for the comment of a parameter ends at a node of this kind. -/
def isDocBoundary : Kind → Bool
  | .classDeclaration => true
  | .interfaceDeclaration => true
  | .moduleDeclaration => true
  | .moduleBlock => true
  | _ => false

/-- Whether the comments of a node of this kind may document parameters. -/
def ownsParameters (kind : Kind) : Bool :=
  kind.isFunctionLike || kind = .variableStatement || kind = .variableDeclaration ||
    kind = .propertyDeclaration || kind = .propertySignature

/-- The comment of the first tag that documents a parameter with the given name. -/
def tagComment? (comments : List Comment) (name : String) : Option String :=
  ((comments.flatMap (·.tags)).find? fun tag =>
    tag.isParameterTag && tag.name = some name).bind (·.comment)

/-- The comment for a parameter with the given name, searched from a node upwards. -/
def commentAbove? (source : SourceFile) (name : String) : Nat → NodeIndex → Option String
  | 0, _ => none
  | bound + 1, index =>
    match source.arena.kind? index with
    | none => none
    | some kind =>
      if isDocBoundary kind then none
      else if ownsParameters kind && !(source.comments index).isEmpty then
        tagComment? (source.comments index) name
      else commentAbove? source name bound (source.arena.parent index)

/-- The comment of a parameter, searched up to the given height: that of its tag on the nearest
documented owner above it. -/
def parameterCommentWithin? (scope : Scope) (height : Nat) (index : NodeIndex) : Option String :=
  match scope.source.arena.payload? index with
  | some (.parameter data) =>
    commentAbove? scope.source (scope.source.nameOf data.name) height
      (scope.source.arena.parent index)
  | _ => none

/-- The comment of a parameter. -/
def parameterComment? (scope : Scope) (index : NodeIndex) : Option String :=
  parameterCommentWithin? scope scope.source.arena.depthBound index

namespace Resolver

variable {m : Type → Type} [Monad m]

/-! ## Types in places -/

/-- The type at an optional node. -/
def optionalType (type : NodeIndex → m Ty) (index : NodeIndex) : m (Option Ty) :=
  match index.toOption with
  | some index => some <$> type index
  | none => pure none

/-- The types of an optional list of nodes. -/
def typeList (type : NodeIndex → m Ty) (list : Option NodeList) : m (List Ty) :=
  (list.getD []).mapM type

/-! ## Documentation -/

/-- A tag with its type resolved. -/
def docTag (type : NodeIndex → m Ty) (tag : CommentTag) : m (DocTag Ty) := do
  let tagType ← optionalType type tag.type
  pure { word := tag.word, comment := tag.comment, argument := tag.name, type := tagType }

/-- A comment with its types resolved; a comment without tags has no list of them. -/
def docBlock (type : NodeIndex → m Ty) (comment : Comment) : m Doc := do
  let tags ← comment.tags.mapM (docTag type)
  pure { comment := comment.text, tags := if comment.tags.isEmpty then none else some tags }

/-- All comments attached to a node. -/
def docs (type : NodeIndex → m Ty) (scope : Scope) (index : NodeIndex) : m (List Doc) :=
  (scope.source.comments index).mapM (docBlock type)

/-- The comment closest to a node, which is the one that documents it. -/
def doc? (type : NodeIndex → m Ty) (scope : Scope) (index : NodeIndex) : m (Option Doc) :=
  match (scope.source.comments index).getLast? with
  | some comment => some <$> docBlock type comment
  | none => pure none

/-! ## Base types and expressions -/

/-- An entry of a list of base types. -/
def heritage (resolver : Resolver m) (type : NodeIndex → m Ty) (scope : Scope)
    (index : NodeIndex) : m TypeReference :=
  match scope.source.arena.payload? index with
  | some (.heritageEntry expression typeArguments) => do
    let target ← resolver.heritageName scope expression
    let arguments ← typeList type typeArguments
    pure { target, arguments }
  | _ => pure { target := .written (scope.source.nodeText index) }

/-- The type that an initializer or default value shows. -/
def expression (resolver : Resolver m) (type : NodeIndex → m Ty) (scope : Scope)
    (index : NodeIndex) : m Ty :=
  let text := scope.source.nodeText index
  match scope.source.arena.kind? index with
  | some .numericLiteral => pure (.numberLiteral text)
  | some .stringLiteral => pure (.stringLiteral (literalText scope index))
  | some .noSubstitutionTemplateLiteral => pure (.stringLiteral (literalText scope index))
  | some .trueKeyword => pure (.keyword .true)
  | some .falseKeyword => pure (.keyword .false)
  | some .nullKeyword => pure (.keyword .null)
  | some .undefinedKeyword => pure (.keyword .undefined)
  | some .identifier =>
    if scope.source.arena.nameText? index = some "undefined" then pure (.keyword .undefined)
    else pure (.written text)
  | some .prefixUnaryExpression =>
    if Text.isSignedNumber text.toList then pure (.numberLiteral text) else pure (.written text)
  | some .newExpression =>
    match scope.source.arena.payload? index with
    | some (.call data) => do
      let target ← resolver.valueName scope data.expression
      let arguments ← typeList type data.typeArguments
      pure (.reference target arguments)
    | _ => pure (.written text)
  | some .propertyAccessExpression => do
    let reference ← resolver.moduleAccess? scope index
    match reference with
    | some target => pure (.reference target [])
    | none => pure (.written text)
  | _ => pure (.written text)

/-! ## Parameters and signatures -/

/-- A parameter; `none` if the node is not one. -/
def parameter? (resolver : Resolver m) (type : NodeIndex → m Ty) (scope : Scope)
    (index : NodeIndex) : m (Option (Parameter Ty)) :=
  match scope.source.arena.payload? index with
  | some (.parameter data) => do
    let typeNode ← optionalType type data.typeNode
    let default ← optionalType (resolver.expression type scope) data.initializer
    pure (some
      { name := scope.source.nameOf data.name
        type := typeNode
        default
        rest := data.rest
        optional := data.optional || data.initializer.isPresent
        comment := parameterCommentWithin? scope (resolver.depth scope.source) index })
  | _ => pure none

/-- The parameters among the nodes of a list. -/
def parameters (resolver : Resolver m) (type : NodeIndex → m Ty) (scope : Scope)
    (list : NodeList) : m (List (Parameter Ty)) :=
  collectM (resolver.parameter? type scope) list

/-- A type parameter; `none` if the node is not one. -/
def typeParameter? (type : NodeIndex → m Ty) (scope : Scope) (index : NodeIndex) :
    m (Option (TypeParameter Ty)) :=
  match scope.source.arena.payload? index with
  | some (.typeParameter data) => do
    let constraint ← optionalType type data.constraint
    let default ← optionalType type data.default
    pure (some { name := scope.source.nameOf data.name, constraint, default })
  | _ => pure none

/-- The type parameters among the nodes of an optional list. -/
def typeParameters (type : NodeIndex → m Ty) (scope : Scope) (list : Option NodeList) :
    m (List (TypeParameter Ty)) :=
  collectM (typeParameter? type scope) (list.getD [])

mutual

/-- An inferred type: a reference if a symbol names it. -/
def inferredType? (resolver : Resolver m) : InferredType → m (Option Ty)
  | ⟨text, symbol, arguments⟩ =>
    match symbol with
    | none => pure none
    | some symbol => do
      let target ← resolver.symbolReference symbol text
      let arguments ← inferredArguments resolver arguments
      pure (some (.reference target arguments))

/-- Inferred type arguments; one that no symbol names is `any`. -/
def inferredArguments (resolver : Resolver m) : List InferredType → m (List Ty)
  | [] => pure []
  | argument :: arguments => do
    let first ← inferredType? resolver argument
    let others ← inferredArguments resolver arguments
    pure (first.getD (.keyword .any) :: others)

end

/-- The result type of a declaration: the annotated one, or else the inferred one. -/
def resultType? (resolver : Resolver m) (type : NodeIndex → m Ty) (scope : Scope)
    (declaration typeNode : NodeIndex) : m (Option Ty) :=
  match typeNode.toOption with
  | some typeNode => some <$> type typeNode
  | none =>
    match (resolver.program.signatureAt? scope.file declaration).bind (·.returnType) with
    | some inferred => resolver.inferredType? inferred
    | none => pure none

/-- The signature of a declaration with parameters; `none` if the node is not one. -/
def signature? (resolver : Resolver m) (type : NodeIndex → m Ty) (scope : Scope)
    (index : NodeIndex) : m (Option FunctionSignature) :=
  match scope.source.arena.payload? index with
  | some (.functionDecl data) => do
    let parameters ← resolver.parameters type scope data.parameters
    let typeParameters ← typeParameters type scope data.typeParameters
    let result ← resolver.resultType? type scope index data.typeNode
    let doc ← doc? type scope index
    pure (some { parameters, typeParameters, result, location := scope.location index, doc })
  | _ => pure none

/-! ## Members of object types -/

/-- A property of an object type. -/
def propertyMember (type : NodeIndex → m Ty) (scope : Scope) (index : NodeIndex)
    (data : PropertyPayload) : m (Member Ty) := do
  let typeNode ← optionalType type data.typeNode
  let doc ← doc? type scope index
  pure (.property
    { name := scope.source.nameOf data.name
      type := typeNode
      optional := data.optional
      readonly := scope.source.arena.hasModifier data.modifiers .readonlyKeyword
      location := scope.location index
      doc })

/-- A method of an object type, as a property with a function type. -/
def methodMember (resolver : Resolver m) (type : NodeIndex → m Ty) (scope : Scope)
    (index : NodeIndex) (data : FunctionPayload) : m (Member Ty) := do
  let parameters ← resolver.parameters type scope data.parameters
  let result ← resolver.resultType? type scope index data.typeNode
  let typeParameters ← typeParameters type scope data.typeParameters
  let doc ← doc? type scope index
  pure (.property
    { name := scope.source.nameOf data.name
      type := some (.arrow parameters result typeParameters)
      optional := data.optional
      readonly := false
      location := scope.location index
      doc })

/-- The key of an index signature: the first of its parameters. -/
def indexKey? (scope : Scope) (data : IndexSignaturePayload) : Option ParameterPayload :=
  match data.parameters.head?.bind scope.source.arena.payload? with
  | some (.parameter key) => some key
  | _ => none

/-- An index signature of an object type. -/
def indexMember (type : NodeIndex → m Ty) (scope : Scope) (data : IndexSignaturePayload) :
    m (Member Ty) := do
  let key := indexKey? scope data
  let keyType ← optionalType type ((key.map (·.typeNode)).getD .absent)
  let value ← optionalType type data.typeNode
  pure (.index
    { keyName := (key.map fun key => scope.source.nameOf key.name).getD ""
      keyType
      type := value
      readonly := scope.source.arena.hasModifier data.modifiers .readonlyKeyword })

/-- A member of an object type; `none` for a node without such a form. -/
def member? (resolver : Resolver m) (type : NodeIndex → m Ty) (scope : Scope)
    (index : NodeIndex) : m (Option (Member Ty)) :=
  match scope.source.arena.get? index with
  | none => pure none
  | some node =>
    match node.kind, node.payload with
    | .propertySignature, .property data => some <$> propertyMember type scope index data
    | .propertyDeclaration, .property data => some <$> propertyMember type scope index data
    | .methodSignature, .functionDecl data => some <$> resolver.methodMember type scope index data
    | .indexSignature, .indexSignature data => some <$> indexMember type scope data
    | _, _ => pure none

/-- The members among the nodes of a list. -/
def members (resolver : Resolver m) (type : NodeIndex → m Ty) (scope : Scope)
    (list : NodeList) : m (List (Member Ty)) :=
  collectM (resolver.member? type scope) list

end Resolver

end ApiDocs
