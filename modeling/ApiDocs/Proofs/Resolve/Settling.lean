import ApiDocs.Proofs.Settling
import ApiDocs.Resolve.Types

/-!
# The resolver settles on acyclic files

The nodes of a file hold indexes, and so do the tags of the comments attached to them.  Resolving a
type follows these indexes through members, parameters, expressions, base types and tags; spelling a
dotted name follows them through the segments; and the comment of a parameter is searched along the
parents of nodes.  This module shows that **every recursive call follows a link of the file**, at
least one, so that all three settle on a file whose links are acyclic.

## Main definitions

* `SourceFile.Acyclic` — nothing in a file leads back to where it started.
* `SourceFile.Agree` — two functions give the same answers below a node.
* `Resolver.Alike` — two resolvers that differ at most in how far they go.

## Main statements

* `follows_typeStep`, `follows_entityNameStep`, `follows_commentStep` — what the steps ask for.
* `settles_type`, `settles_entityName`, `settles_commentAbove?` — the recursions settle.
* `Alike.of_acyclic`, `Alike.type_eq` — going deeper than the size of the file changes nothing.

## Design notes

**Absent indexes are links too.**  An absent index may stand in a list of nodes, and resolution asks
for its type as for any other.  It has no links of its own, so it adds no cycle.
-/

namespace ApiDocs

open Relation (TransGen ReflTransGen)

theorem NodeIndex.eq_of_toOption {index present : NodeIndex}
    (isPresent : index.toOption = some present) : index = present := by
  rw [toOption] at isPresent
  split at isPresent
  · exact Option.some.inj isPresent
  · cases isPresent

theorem Arena.toNat_lt_of_get? {arena : Arena} {index : NodeIndex} {node : Node}
    (found : arena.get? index = some node) : index.toNat < arena.nodes.size := by
  rw [get?] at found
  split at found
  · exact (Array.getElem?_eq_some_iff.1 found).1
  · cases found

theorem Arena.isPresent_of_get? {arena : Arena} {index : NodeIndex} {node : Node}
    (found : arena.get? index = some node) : index.isPresent = true := by
  rw [get?] at found
  split at found
  · assumption
  · cases found

/-! ## Links of a file -/

namespace SourceFile

/-- A node refers to another one: to a child of its own, or to the type of a tag in a comment that
is attached to it. -/
def Refers (source : SourceFile) (index next : NodeIndex) : Prop :=
  ∃ node, source.arena.get? index = some node ∧
    (next ∈ node.payload.children ∨
      next.isPresent = true ∧
        ∃ comment ∈ source.comments index, ∃ tag ∈ comment.tags, tag.type = next)

/-- Nothing in a file leads back to where it started, neither downwards nor upwards. -/
structure Acyclic (source : SourceFile) : Prop where
  references : ∀ index, ¬TransGen source.Refers index index
  parents : ∀ index node, source.arena.get? index = some node →
    ∃ n, source.arena.parent^[n] index = .absent

/-- A node holds an index, present or absent, in its data or in a tag of a comment. -/
def Links (source : SourceFile) (index next : NodeIndex) : Prop :=
  ∃ node, source.arena.get? index = some node ∧
    (next ∈ node.payload.indexes ∨
      ∃ comment ∈ source.comments index, ∃ tag ∈ comment.tags, tag.type = next)

/-- A node has its parent above it. -/
def Upward (source : SourceFile) : NodeIndex → NodeIndex → Prop :=
  AcyclicLinks.walk source.arena.parent fun index => (source.arena.get? index).isSome = true

variable {source : SourceFile}

theorem links_of_payload {index next : NodeIndex} {payload : Payload}
    (found : source.arena.payload? index = some payload) (holds : next ∈ payload.indexes) :
    source.Links index next := by
  obtain ⟨node, foundNode, rfl⟩ := Option.map_eq_some_iff.1 found
  exact ⟨node, foundNode, .inl holds⟩

/-- What links lead to is also referred to, if it exists. -/
theorem refers_of_links {index next : NodeIndex} (leads : TransGen source.Links index next)
    {node : Node} (found : source.arena.get? next = some node) :
    TransGen source.Refers index next := by
  have one : ∀ {first second}, source.Links first second → second.isPresent = true →
      source.Refers first second := by
    rintro first second ⟨holder, foundHolder, inData | inTag⟩ isPresent
    · exact ⟨holder, foundHolder, .inl (List.mem_filter.2 ⟨inData, isPresent⟩)⟩
    · exact ⟨holder, foundHolder, .inr ⟨isPresent, inTag⟩⟩
  induction leads generalizing node with
  | single link => exact .single (one link (Arena.isPresent_of_get? found))
  | tail _ link ih =>
      have ⟨_, foundBefore, _⟩ := link
      exact (ih foundBefore).tail (one link (Arena.isPresent_of_get? found))

theorem Acyclic.links (acyclic : source.Acyclic) :
    AcyclicLinks source.Links NodeIndex.toNat source.arena.nodes.size where
  acyclic index cycle := by
    obtain ⟨_, ⟨node, found, _⟩, -⟩ := TransGen.head'_iff.1 cycle
    exact acyclic.references index (refers_of_links cycle found)
  inside := fun ⟨_, found, _⟩ => Arena.toNat_lt_of_get? found
  distinct _ _ same := NodeIndex.toNat_injective same

theorem Acyclic.upward (acyclic : source.Acyclic) :
    AcyclicLinks source.Upward NodeIndex.toNat source.arena.nodes.size := by
  have fixed : source.arena.parent .absent = .absent := rfl
  refine .of_walk fixed (by simp [Arena.get?, NodeIndex.isPresent]) ?_ ?_ ?_
  · intro index isNode
    obtain ⟨node, found⟩ := Option.isSome_iff_exists.1 isNode
    exact acyclic.parents index node found
  · intro index isNode
    obtain ⟨node, found⟩ := Option.isSome_iff_exists.1 isNode
    exact Arena.toNat_lt_of_get? found
  · exact fun _ _ same => NodeIndex.toNat_injective same

/-- Two functions give the same answers at all nodes below a node. -/
def Agree {α : Type} (source : SourceFile) (first second : NodeIndex → α) (index : NodeIndex) :
    Prop :=
  ∀ next, TransGen source.Links index next → first next = second next

namespace Agree

variable {α : Type} {first second : NodeIndex → α} {index next : NodeIndex} {payload : Payload}

protected theorem refl (first : NodeIndex → α) (index : NodeIndex) :
    source.Agree first first index :=
  fun _ _ => rfl

theorem answer (agree : source.Agree first second index) (link : source.Links index next) :
    first next = second next :=
  agree next (.single link)

theorem below (agree : source.Agree first second index) (link : source.Links index next) :
    source.Agree first second next :=
  fun later leads => agree later (.head link leads)

theorem child (agree : source.Agree first second index)
    (found : source.arena.payload? index = some payload) (holds : next ∈ payload.indexes) :
    first next = second next :=
  agree.answer (links_of_payload found holds)

theorem belowChild (agree : source.Agree first second index)
    (found : source.arena.payload? index = some payload) (holds : next ∈ payload.indexes) :
    source.Agree first second next :=
  agree.below (links_of_payload found holds)

end Agree

end SourceFile

theorem mapM_congr {m : Type → Type} [Monad m] {α β : Type} {first second : α → m β}
    {list : List α} (same : ∀ element ∈ list, first element = second element) :
    list.mapM first = list.mapM second := by
  have loop : ∀ (rest : List α) (done : List β),
      (∀ element ∈ rest, first element = second element) →
      List.mapM.loop first rest done = List.mapM.loop second rest done := by
    intro rest
    induction rest with
    | nil => intro done _; rfl
    | cons element rest ih =>
        intro done same
        rw [List.forall_mem_cons] at same
        simp only [List.mapM.loop, same.1, ih _ same.2]
  exact loop list [] same

theorem collectM_congr {m : Type → Type} [Monad m] {α β : Type} {first second : α → m (Option β)}
    {list : List α} (same : ∀ element ∈ list, first element = second element) :
    collectM first list = collectM second list := by
  induction list with
  | nil => rfl
  | cons element rest ih =>
      rw [List.forall_mem_cons] at same
      simp only [collectM, same.1, ih same.2]

namespace Resolver

variable {m : Type → Type} [Monad m]

/-! ## Names -/

/-- Two resolvers that differ at most in how far they go, and in a scope this makes no difference to
the spelling of names and to the comments of parameters. -/
structure Alike (scope : Scope) (one other : Resolver m) : Prop where
  program : one.program = other.program
  index : one.index = other.index
  entityName : one.entityName scope = other.entityName scope
  comment : parameterCommentWithin? scope (one.depth scope.source) =
    parameterCommentWithin? scope (other.depth scope.source)

section

variable {scope : Scope} {one other : Resolver m} (alike : Alike scope one other)
include alike

theorem symbolReference_congr : one.symbolReference = other.symbolReference := by
  funext id fallback
  simp only [symbolReference, alike.program, alike.index]

omit [Monad m] in
theorem symbolAt?_congr : one.symbolAt? scope = other.symbolAt? scope := by
  funext index
  simp only [symbolAt?, alike.program]

omit [Monad m] in
theorem isInternal_congr : one.isInternal = other.isInternal := by
  funext id
  simp only [isInternal, alike.program]

omit [Monad m] in
theorem unresolved_congr : one.unresolved = other.unresolved := by
  funext name
  simp only [unresolved, alike.index]

theorem qualifiedName?_congr : one.qualifiedName? = other.qualifiedName? := by
  funext dotted
  simp only [qualifiedName?, alike.index]

theorem typeName_congr : one.typeName scope = other.typeName scope := by
  funext index
  simp only [typeName, alike.entityName, symbolAt?_congr alike, isInternal_congr alike,
    unresolved_congr alike, qualifiedName?_congr alike, symbolReference_congr alike]

theorem valueName_congr : one.valueName scope = other.valueName scope := by
  funext index
  simp only [valueName, alike.entityName, symbolAt?_congr alike, unresolved_congr alike,
    symbolReference_congr alike]

theorem heritageName_congr : one.heritageName scope = other.heritageName scope := by
  funext index
  simp only [heritageName, dottedHeritageName, valueName_congr alike, alike.entityName,
    symbolAt?_congr alike, isInternal_congr alike, qualifiedName?_congr alike,
    symbolReference_congr alike]

omit [Monad m] in
theorem accessesModule_congr : one.accessesModule scope = other.accessesModule scope := by
  funext expression
  simp only [accessesModule, alike.program]

theorem moduleAccess?_congr : one.moduleAccess? scope = other.moduleAccess? scope := by
  funext index
  simp only [moduleAccess?, accessesModule_congr alike, alike.entityName,
    symbolAt?_congr alike, qualifiedName?_congr alike, symbolReference_congr alike]

end

/-! ## Parts of types -/

section

variable {scope : Scope} {first second : NodeIndex → m Ty} {index : NodeIndex}

theorem optionalType_congr (same : first index = second index) :
    optionalType first index = optionalType second index := by
  simp only [optionalType]
  split
  · rename_i isPresent
    rw [← NodeIndex.eq_of_toOption isPresent, same]
  · rfl

theorem typeList_congr {list : Option NodeList}
    (same : ∀ next ∈ list.getD [], first next = second next) :
    typeList first list = typeList second list :=
  mapM_congr same

/-- The comment of a node asks for the types of its tags. -/
theorem doc?_congr {node : Node} (found : scope.source.arena.get? index = some node)
    (agree : scope.source.Agree first second index) :
    doc? first scope index = doc? second scope index := by
  simp only [doc?]
  split
  · rename_i comment isLast
    have attached : comment ∈ scope.source.comments index := List.mem_of_getLast? isLast
    have tags : comment.tags.mapM (docTag first) = comment.tags.mapM (docTag second) := by
      refine mapM_congr fun tag inComment => ?_
      have same := agree.answer ⟨node, found, .inr ⟨comment, attached, tag, inComment, rfl⟩⟩
      simp only [docTag, optionalType_congr same]
    simp only [docBlock, tags]
  · rfl

theorem typeParameters_congr {list : Option NodeList}
    (agree : ∀ next ∈ list.getD [], scope.source.Agree first second next) :
    typeParameters first scope list = typeParameters second scope list := by
  refine collectM_congr fun index inList => ?_
  simp only [typeParameter?]
  split
  · rename_i data found
    rw [optionalType_congr ((agree index inList).child found (by simp [Payload.indexes])),
      optionalType_congr ((agree index inList).child found (by simp [Payload.indexes]))]
  · rfl

variable {one other : Resolver m} (alike : Alike scope one other)

include alike in
/-- A base type asks for its type arguments. -/
theorem heritage_congr (agree : scope.source.Agree first second index) :
    one.heritage first scope index = other.heritage second scope index := by
  simp only [heritage, heritageName_congr alike]
  split
  · rename_i expression typeArguments found
    rw [typeList_congr fun next inList => agree.child found (by simp [Payload.indexes, inList])]
  · rfl

include alike in
/-- A `new` expression asks for its type arguments. -/
theorem expression_congr (agree : scope.source.Agree first second index) :
    one.expression first scope index = other.expression second scope index := by
  have arguments : ∀ data, scope.source.arena.payload? index = some (.call data) →
      typeList first data.typeArguments = typeList second data.typeArguments :=
    fun data found => typeList_congr fun next inList =>
      agree.child found (by simp [Payload.indexes, inList])
  simp only [expression, valueName_congr alike, moduleAccess?_congr alike]
  split
  case h_10 =>
    split
    · rename_i data found
      rw [arguments data found]
    · rfl
  all_goals rfl

include alike in
/-- A parameter asks for its type, and for the types in its default value. -/
theorem parameter?_congr (agree : scope.source.Agree first second index) :
    one.parameter? first scope index = other.parameter? second scope index := by
  simp only [parameter?, alike.comment]
  split
  · rename_i data found
    have default : one.expression first scope data.initializer =
        other.expression second scope data.initializer :=
      expression_congr alike (agree.belowChild found (by simp [Payload.indexes]))
    have optional : optionalType (one.expression first scope) data.initializer =
        optionalType (other.expression second scope) data.initializer :=
      optionalType_congr default
    rw [optionalType_congr (agree.child found (by simp [Payload.indexes])), optional]
  · rfl

include alike in
theorem parameters_congr {list : NodeList}
    (agree : ∀ next ∈ list, scope.source.Agree first second next) :
    one.parameters first scope list = other.parameters second scope list :=
  collectM_congr fun next inList => parameter?_congr alike (agree next inList)

end

mutual

theorem inferredType?_congr {scope : Scope} {one other : Resolver m}
    (alike : Alike scope one other) : ∀ inferred : InferredType,
      one.inferredType? inferred = other.inferredType? inferred
  | ⟨text, none, arguments⟩ => by simp only [inferredType?]
  | ⟨text, some symbol, arguments⟩ => by
      simp only [inferredType?, symbolReference_congr alike,
        inferredArguments_congr alike arguments]

theorem inferredArguments_congr {scope : Scope} {one other : Resolver m}
    (alike : Alike scope one other) : ∀ arguments : List InferredType,
      one.inferredArguments arguments = other.inferredArguments arguments
  | [] => by simp only [inferredArguments]
  | argument :: arguments => by
      simp only [inferredArguments, inferredType?_congr alike argument,
        inferredArguments_congr alike arguments]

end

section

variable {scope : Scope} {first second : NodeIndex → m Ty} {index : NodeIndex}
variable {one other : Resolver m} (alike : Alike scope one other)
include alike

theorem resultType?_congr {typeNode : NodeIndex} (same : first typeNode = second typeNode) :
    one.resultType? first scope index typeNode = other.resultType? second scope index typeNode := by
  simp only [resultType?, alike.program, inferredType?_congr alike]
  split
  · rename_i isPresent
    rw [← NodeIndex.eq_of_toOption isPresent, same]
  · rfl

/-- What takes parameters asks for these, for its type parameters and for its result. -/
theorem functionParts_congr {data : FunctionPayload}
    (found : scope.source.arena.payload? index = some (.functionDecl data))
    (agree : scope.source.Agree first second index) :
    one.parameters first scope data.parameters = other.parameters second scope data.parameters ∧
      typeParameters first scope data.typeParameters =
        typeParameters second scope data.typeParameters ∧
      first data.typeNode = second data.typeNode := by
  refine ⟨parameters_congr alike fun next inList => ?_, typeParameters_congr fun next inList => ?_,
    agree.child found (by simp [Payload.indexes])⟩
  · exact agree.belowChild found (by simp [Payload.indexes, inList])
  · exact agree.belowChild found (by simp [Payload.indexes, inList])

theorem signature?_congr (agree : scope.source.Agree first second index) :
    one.signature? first scope index = other.signature? second scope index := by
  simp only [signature?]
  split
  · rename_i data found
    obtain ⟨node, foundNode, -⟩ := Option.map_eq_some_iff.1 found
    obtain ⟨parameters, typeParameters, result⟩ := functionParts_congr alike found agree
    rw [parameters, typeParameters, resultType?_congr alike result, doc?_congr foundNode agree]
  · rfl

omit alike in
/-- An index signature asks for the type of its first parameter, two links below it. -/
theorem indexKey_congr {data : IndexSignaturePayload}
    (found : scope.source.arena.payload? index = some (.indexSignature data))
    (agree : scope.source.Agree first second index) :
    optionalType first (((indexKey? scope data).map (·.typeNode)).getD .absent) =
      optionalType second (((indexKey? scope data).map (·.typeNode)).getD .absent) := by
  cases isKey : indexKey? scope data with
  | none => rfl
  | some key =>
      rw [indexKey?] at isKey
      split at isKey
      · rename_i parameter isParameter
        obtain rfl := Option.some.inj isKey
        obtain ⟨holder, isFirst, foundKey⟩ := Option.bind_eq_some_iff.1 isParameter
        have inList : holder ∈ data.parameters := List.mem_of_head? isFirst
        have below : scope.source.Agree first second holder :=
          agree.belowChild found (by simp [Payload.indexes, inList])
        exact optionalType_congr (below.child foundKey (by simp [Payload.indexes]))
      · cases isKey

/-- A member of an object type asks for its types and its comment. -/
theorem member?_congr (agree : scope.source.Agree first second index) :
    one.member? first scope index = other.member? second scope index := by
  simp only [member?]
  split
  · rfl
  · rename_i node found
    have payload : scope.source.arena.payload? index = some node.payload := by
      rw [Arena.payload?, found, Option.map_some]
    have doc := doc?_congr found agree
    have property : ∀ {data}, node.payload = .property data →
        propertyMember first scope index data = propertyMember second scope index data := by
      intro data isProperty
      rw [isProperty] at payload
      rw [propertyMember, propertyMember, doc,
        optionalType_congr (agree.child payload (by simp [Payload.indexes]))]
    split
    · rename_i isProperty
      rw [property isProperty]
    · rename_i isProperty
      rw [property isProperty]
    · rename_i data _ isFunction
      rw [isFunction] at payload
      obtain ⟨parameters, typeParameters, result⟩ := functionParts_congr alike payload agree
      rw [methodMember, methodMember, doc, parameters, typeParameters,
        resultType?_congr alike result]
    · rename_i data _ isIndex
      rw [isIndex] at payload
      rw [indexMember, indexMember, indexKey_congr payload agree,
        optionalType_congr (agree.child payload (by simp [Payload.indexes]))]
    · rfl

/-! ## Types -/

theorem members_congr {list : NodeList}
    (agree : ∀ next ∈ list, scope.source.Agree first second next) :
    one.members first scope list = other.members second scope list :=
  collectM_congr fun next inList => member?_congr alike (agree next inList)

/-- **Every kind of type asks for types below it.** -/
theorem structuralType_congr {node : Node} (found : scope.source.arena.get? index = some node)
    (agree : scope.source.Agree first second index) :
    one.structuralType scope first index node = other.structuralType scope second index node := by
  have payload : scope.source.arena.payload? index = some node.payload := by
    rw [Arena.payload?, found, Option.map_some]
  have this : ∀ raw, structuralType.thisType one scope index raw =
      structuralType.thisType other scope index raw := by
    intro raw
    simp only [structuralType.thisType, alike.program, symbolReference_congr alike]
  have function : ∀ raw, structuralType.functionType one scope first node raw =
      structuralType.functionType other scope second node raw := by
    intro raw
    simp only [structuralType.functionType]
    split
    · rename_i data isFunction
      rw [isFunction] at payload
      obtain ⟨parameters, typeParameters, result⟩ := functionParts_congr alike payload agree
      rw [parameters, typeParameters, optionalType_congr result]
    · rfl
  have composite : ∀ raw (combine : List Ty → Ty), structuralType.composite first node raw combine =
      structuralType.composite second node raw combine := by
    intro raw combine
    simp only [structuralType.composite]
    split
    · rename_i types isComposite
      rw [isComposite] at payload
      rw [typeList_congr fun next inList => agree.child payload inList]
    · rfl
  simp only [structuralType, typeName_congr alike, heritage_congr alike agree, this, function,
    composite]
  split
  case h_1 =>
    split
    · rename_i name typeArguments isReference
      rw [isReference] at payload
      rw [typeList_congr fun next inList =>
        agree.child payload (by simp [Payload.indexes, inList])]
    · rfl
  case h_9 =>
    split
    · rename_i list isLiteral
      rw [isLiteral] at payload
      have members : one.members first scope list = other.members second scope list :=
        members_congr alike fun next inList => agree.belowChild payload inList
      rw [members]
    · rfl
  case h_13 =>
    split
    · rename_i element isArray
      rw [isArray] at payload
      rw [agree.child payload (List.mem_singleton_self element)]
    · rfl
  case h_14 =>
    split
    · rename_i operator operand isOperator
      rw [isOperator] at payload
      rw [agree.child payload (List.mem_singleton_self operand)]
    · rfl
  case h_15 =>
    split
    · rename_i inner isWrapped
      rw [isWrapped] at payload
      exact agree.child payload (List.mem_singleton_self inner)
    · rfl
  all_goals rfl

/-- One step of resolution asks for types below a node. -/
theorem typeStep_congr (agree : scope.source.Agree first second index) :
    one.typeStep scope first index = other.typeStep scope second index := by
  simp only [typeStep]
  split
  · rfl
  · rename_i node found
    rw [structuralType_congr alike found agree]

end

/-! ## The recursions settle -/

theorem follows_typeStep (resolver : Resolver m) (scope : Scope) :
    Follows (resolver.typeStep scope) scope.source.Links :=
  fun agree => typeStep_congr ⟨rfl, rfl, rfl, rfl⟩ agree

/-- **Resolving a type settles** within the size of an acyclic file. -/
theorem settles_type {resolver : Resolver m} {scope : Scope} (acyclic : scope.source.Acyclic)
    (deep : scope.source.arena.depthBound ≤ resolver.depth scope.source) (index : NodeIndex) :
    Settles (resolver.typeStep scope) scope.source.arena.depthBound index
      (resolver.type scope index) :=
  acyclic.links.settles (resolver.follows_typeStep scope) (resolver.typeWithin scope) (fun _ => rfl)
    (Nat.lt_succ_of_le (AcyclicLinks.height_le index)) deep

end Resolver

namespace Scope

/-- A dotted name is spelled segment by segment. -/
theorem follows_entityNameStep (scope : Scope) :
    Follows scope.entityNameStep scope.source.Links := by
  intro first second index agree
  have child : ∀ {payload next}, scope.source.arena.payload? index = some payload →
      next ∈ payload.indexes → first next = second next :=
    fun found holds => SourceFile.Agree.child agree found holds
  simp only [entityNameStep]
  split
  · rfl
  · rfl
  · rename_i left right found
    rw [child found (by simp [Payload.indexes]), child found (by simp [Payload.indexes])]
  · rename_i expression name found
    rw [child found (by simp [Payload.indexes]), child found (by simp [Payload.indexes])]
  · rfl

theorem settles_entityName {scope : Scope} (acyclic : scope.source.Acyclic) {depth : Nat}
    (deep : scope.source.arena.depthBound ≤ depth) (index : NodeIndex) :
    Settles scope.entityNameStep scope.source.arena.depthBound index
      (scope.entityNameWithin depth index) :=
  acyclic.links.settles scope.follows_entityNameStep scope.entityNameWithin (fun _ => rfl)
    (Nat.lt_succ_of_le (AcyclicLinks.height_le index)) deep

end Scope

namespace SourceFile

/-- One step of the search for the comment of a parameter, given what is found further up. -/
def commentStep (source : SourceFile) (name : String) (above : NodeIndex → Option String)
    (index : NodeIndex) : Option String :=
  match source.arena.kind? index with
  | none => none
  | some kind =>
    if isDocBoundary kind then none
    else if ownsParameters kind && !(source.comments index).isEmpty then
      tagComment? (source.comments index) name
    else above (source.arena.parent index)

theorem follows_commentStep (source : SourceFile) (name : String) :
    Follows (source.commentStep name) source.Upward := by
  intro first second index agree
  simp only [commentStep]
  split
  · rfl
  · rename_i kind isKind
    obtain ⟨node, found, -⟩ := Option.map_eq_some_iff.1 isKind
    have isNode : (source.arena.get? index).isSome = true := by rw [found, Option.isSome_some]
    rw [agree (source.arena.parent index) (.single ⟨isNode, rfl⟩)]

theorem settles_commentAbove? {source : SourceFile} (acyclic : source.Acyclic) (name : String)
    {height : Nat} (enough : source.arena.depthBound ≤ height) (index : NodeIndex) :
    Settles (source.commentStep name) source.arena.depthBound index
      (commentAbove? source name height index) :=
  acyclic.upward.settles (source.follows_commentStep name) (commentAbove? source name)
    (fun _ => rfl)
    (Nat.lt_succ_of_le (AcyclicLinks.height_le index)) enough

end SourceFile

namespace Resolver

variable {m : Type → Type} [Monad m]

omit [Monad m] in
/-- Resolvers that go at least as far as an acyclic file needs are alike. -/
theorem Alike.of_acyclic {scope : Scope} (acyclic : scope.source.Acyclic) {one other : Resolver m}
    (program : one.program = other.program) (index : one.index = other.index)
    (deep : scope.source.arena.depthBound ≤ one.depth scope.source)
    (otherDeep : scope.source.arena.depthBound ≤ other.depth scope.source) :
    Alike scope one other where
  program
  index
  entityName := by
    funext node
    exact (Scope.settles_entityName acyclic deep node).unique
      (Scope.settles_entityName acyclic otherDeep node)
  comment := by
    funext node
    simp only [parameterCommentWithin?]
    split
    · exact (SourceFile.settles_commentAbove? acyclic _ deep _).unique
        (SourceFile.settles_commentAbove? acyclic _ otherDeep _)
    · rfl

theorem Alike.type_eq {scope : Scope} (acyclic : scope.source.Acyclic) {one other : Resolver m}
    (alike : Alike scope one other)
    (deep : scope.source.arena.depthBound ≤ one.depth scope.source)
    (otherDeep : scope.source.arena.depthBound ≤ other.depth scope.source) :
    one.type scope = other.type scope := by
  have sameStep : one.typeStep scope = other.typeStep scope := by
    funext answers index
    exact typeStep_congr alike (.refl answers index)
  funext index
  have settles := settles_type acyclic deep index
  rw [sameStep] at settles
  exact settles.unique (settles_type acyclic otherDeep index)

end Resolver

end ApiDocs
