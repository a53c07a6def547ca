import ApiDocs.Proofs.Extract.Overloads
import ApiDocs.Proofs.Resolve.Settling

/-!
# Where the comment of a parameter comes from

The comment of a parameter stands in a tag of a comment on something above it.  The search goes up
along parent links until it meets a class, an interface or a namespace, and **the nearest documented
owner decides**: a function, variable or property with a comment ends the search, with or without a
tag for the parameter.

A node may have several comments.  The one closest to it documents it, but the tags of all of them
are searched, the farthest first.  So the comment of a parameter and the documentation of its
signature disagree exactly if an older comment has a tag for the parameter with another text.

## Main definitions

* `Arena.Ancestors` — the nodes above a node, nearest first.
* `SourceFile.DocumentsParameters` — an owner of parameters with a comment.
* `SourceFile.beforeEnclosing` — the nodes that the search gets to see.
* `IsFirst` — the first element of a list with a property.

## Main statements

* `Ancestors.length_le`, `exists_ancestors` — parent links that end lead through as many nodes as
  the file has, or fewer.
* `commentAbove?_eq` — the search along the nodes above a node.
* `parameter_comment_from_nearest_owner` — the comment of a parameter.
* `signature_comments_follow_doc_iff` — when it is that of the documentation of the signature.
-/

namespace ApiDocs

/-- The first element of a list with a property. -/
def IsFirst {α : Type} (holds : α → Prop) (list : List α) (first : α) : Prop :=
  ∃ before after, list = before ++ first :: after ∧ holds first ∧ ∀ other ∈ before, ¬holds other

theorem find?_eq_some_iff_isFirst {α : Type} {holds : α → Prop} [DecidablePred holds]
    {list : List α} {first : α} :
    list.find? (fun element => decide (holds element)) = some first ↔ IsFirst holds list first := by
  rw [List.find?_eq_some_iff_append]
  constructor
  · rintro ⟨isHeld, before, after, split, none⟩
    exact ⟨before, after, split, of_decide_eq_true isHeld, by simpa using none⟩
  · rintro ⟨before, after, split, isHeld, none⟩
    exact ⟨decide_eq_true isHeld, before, after, split, by simpa using none⟩

/-! ## Ancestors -/

namespace Arena

/-- The nodes above a node, nearest first, up to the first parent link that leads to no node. -/
inductive Ancestors (arena : Arena) : NodeIndex → List NodeIndex → Prop
  | root {index : NodeIndex} (top : arena.get? (arena.parent index) = none) :
      Ancestors arena index []
  | parent {index : NodeIndex} {node : Node} {above : List NodeIndex}
      (found : arena.get? (arena.parent index) = some node)
      (further : Ancestors arena (arena.parent index) above) :
      Ancestors arena index (arena.parent index :: above)

variable {arena : Arena} {index : NodeIndex} {above : List NodeIndex}

theorem Ancestors.unique (ancestors : arena.Ancestors index above) :
    ∀ {others : List NodeIndex}, arena.Ancestors index others → above = others := by
  induction ancestors with
  | root top =>
      intro others other
      cases other with
      | root _ => rfl
      | parent found _ =>
          rw [top] at found
          cases found
  | parent found _ ih =>
      intro others other
      cases other with
      | root top =>
          rw [top] at found
          cases found
      | parent _ further => rw [ih further]

/-- The nodes above a node are distinct.  Each of them has fewer nodes above it, so none is above
itself. -/
theorem Ancestors.nodup (ancestors : arena.Ancestors index above) :
    above.Nodup ∧ ∀ ancestor ∈ above, ancestor.toNat < arena.nodes.size ∧
      ∃ rest, arena.Ancestors ancestor rest ∧ rest.length < above.length := by
  induction ancestors with
  | root top => exact ⟨.nil, by simp⟩
  | @parent index node above found further ih =>
      obtain ⟨nodup, each⟩ := ih
      have new : arena.parent index ∉ above := by
        intro again
        obtain ⟨-, rest, fewer, shorter⟩ := each _ again
        rw [further.unique fewer] at shorter
        exact Nat.lt_irrefl _ shorter
      refine ⟨List.nodup_cons.2 ⟨new, nodup⟩, fun ancestor member => ?_⟩
      rcases List.mem_cons.1 member with rfl | higher
      · exact ⟨toNat_lt_of_get? found, above, further, Nat.lt_succ_self _⟩
      · obtain ⟨inside, rest, fewer, shorter⟩ := each ancestor higher
        exact ⟨inside, rest, fewer, Nat.lt_succ_of_lt shorter⟩

theorem Ancestors.length_le (ancestors : arena.Ancestors index above) :
    above.length ≤ arena.nodes.size := by
  obtain ⟨nodup, each⟩ := ancestors.nodup
  exact length_le_of_nodup NodeIndex.toNat_injective nodup
    fun ancestor isAbove => (each ancestor isAbove).1

/-- Parent links that end lead through the ancestors of a node. -/
theorem exists_ancestors (ends : ∃ n, arena.get? (arena.parent^[n + 1] index) = none) :
    ∃ above, arena.Ancestors index above := by
  obtain ⟨n, ends⟩ := ends
  induction n generalizing index with
  | zero => exact ⟨[], .root ends⟩
  | succ n ih =>
      cases found : arena.get? (arena.parent index) with
      | none => exact ⟨[], .root found⟩
      | some node =>
          obtain ⟨above, further⟩ := ih ends
          exact ⟨_, .parent found further⟩

end Arena

/-! ## Owners of parameters -/

/-- The declarations that the search for the comment of a parameter does not leave.  A class
expression is not among them. -/
def Kind.enclosing : List Kind :=
  [.classDeclaration, .interfaceDeclaration, .moduleDeclaration, .moduleBlock]

/-- The kinds of nodes whose comments may document parameters. -/
def Kind.documenting : List Kind :=
  functionLike ++ [.variableStatement, .variableDeclaration, .propertyDeclaration,
    .propertySignature]

theorem isDocBoundary_iff {kind : Kind} : isDocBoundary kind = true ↔ kind ∈ Kind.enclosing := by
  unfold isDocBoundary
  split <;> simp_all [Kind.enclosing]

theorem ownsParameters_iff {kind : Kind} :
    ownsParameters kind = true ↔ kind ∈ Kind.documenting := by
  simp [ownsParameters, Kind.isFunctionLike, Kind.documenting, or_assoc]

/-- Nothing that takes parameters is a class, an interface or a namespace. -/
theorem Kind.not_mem_enclosing_of_isFunctionLike {kind : Kind}
    (functionLike : kind.isFunctionLike = true) : kind ∉ enclosing := by
  intro member
  simp only [enclosing, List.mem_cons, List.not_mem_nil, or_false] at member
  rcases member with rfl | rfl | rfl | rfl <;> cases functionLike

/-- A tag is one of `@param`, `@arg` and `@argument`, and names the given parameter. -/
def CommentTag.Documents (tag : CommentTag) (name : String) : Prop :=
  tag.word ∈ ["param", "arg", "argument"] ∧ tag.name = some name

instance (name : String) : DecidablePred fun tag : CommentTag => tag.Documents name :=
  fun tag => inferInstanceAs (Decidable (tag.word ∈ _ ∧ tag.name = some name))

theorem tagComment?_eq (comments : List Comment) (name : String) :
    tagComment? comments name =
      ((comments.flatMap (·.tags)).find? fun tag => decide (tag.Documents name)).bind
        (·.comment) := by
  have same : (fun tag : CommentTag => tag.isParameterTag && decide (tag.name = some name)) =
      fun tag => decide (tag.Documents name) := by
    funext tag
    rw [Bool.eq_iff_iff]
    simp [CommentTag.isParameterTag, CommentTag.Documents, or_assoc]
  rw [tagComment?, same]

namespace SourceFile

variable (source : SourceFile)

/-- A node is a class, an interface, a namespace or the body of one. -/
def Encloses (index : NodeIndex) : Prop :=
  ∃ kind ∈ Kind.enclosing, source.arena.kind? index = some kind

/-- A node may document parameters, and it has a comment. -/
def DocumentsParameters (index : NodeIndex) : Prop :=
  (∃ kind ∈ Kind.documenting, source.arena.kind? index = some kind) ∧ source.comments index ≠ []

instance : DecidablePred source.Encloses :=
  fun index => inferInstanceAs (Decidable (∃ kind ∈ _, source.arena.kind? index = some kind))

instance : DecidablePred source.DocumentsParameters :=
  fun index => inferInstanceAs
    (Decidable ((∃ kind ∈ _, source.arena.kind? index = some kind) ∧ source.comments index ≠ []))

/-- The nodes of a list before the first class, interface or namespace. -/
def beforeEnclosing (above : List NodeIndex) : List NodeIndex :=
  above.takeWhile fun ancestor => !decide (source.Encloses ancestor)

/-- The comment for a parameter with the given name, on the first documented owner in a list. -/
def nearestComment? (name : String) (nodes : List NodeIndex) : Option String :=
  (nodes.find? fun index => decide (source.DocumentsParameters index)).bind fun owner =>
    tagComment? (source.comments owner) name

variable {source}

theorem encloses_iff {index : NodeIndex} {kind : Kind}
    (isKind : source.arena.kind? index = some kind) :
    source.Encloses index ↔ isDocBoundary kind = true := by
  simp [Encloses, isKind, isDocBoundary_iff]

theorem documentsParameters_iff {index : NodeIndex} {kind : Kind}
    (isKind : source.arena.kind? index = some kind) :
    source.DocumentsParameters index ↔
      (ownsParameters kind && !(source.comments index).isEmpty) = true := by
  simp [DocumentsParameters, isKind, ownsParameters_iff]

/-- **The search for the comment of a parameter** looks at the nodes above it one by one. -/
theorem commentAbove?_eq (name : String) {index : NodeIndex} {above : List NodeIndex}
    (ancestors : source.arena.Ancestors index above) :
    ∀ {height : Nat}, above.length ≤ height →
      commentAbove? source name height (source.arena.parent index) =
        source.nearestComment? name (source.beforeEnclosing above) := by
  induction ancestors with
  | root top =>
      intro height enough
      cases height with
      | zero => rfl
      | succ height =>
          simp only [commentAbove?, Arena.kind?, top, Option.map_none]
          rfl
  | @parent index node above found further ih =>
      intro height enough
      cases height with
      | zero => cases enough
      | succ height =>
          have isKind : source.arena.kind? (source.arena.parent index) = some node.kind := by
            rw [Arena.kind?, found, Option.map_some]
          simp only [commentAbove?, isKind, beforeEnclosing, List.takeWhile_cons,
            ← encloses_iff isKind, ← documentsParameters_iff isKind]
          by_cases encloses : source.Encloses (source.arena.parent index)
          · simp [encloses, nearestComment?]
          · by_cases documents : source.DocumentsParameters (source.arena.parent index)
            · simp [encloses, documents, nearestComment?]
            · rw [ih (Nat.le_of_succ_le_succ enough)]
              simp [encloses, documents, nearestComment?, beforeEnclosing]

theorem nearestComment?_eq_some_iff {name comment : String} {nodes : List NodeIndex} :
    source.nearestComment? name nodes = some comment ↔
      ∃ owner tag, IsFirst source.DocumentsParameters nodes owner ∧
        IsFirst (·.Documents name) ((source.comments owner).flatMap (·.tags)) tag ∧
        tag.comment = some comment := by
  simp only [nearestComment?, tagComment?_eq, Option.bind_eq_some_iff, find?_eq_some_iff_isFirst,
    exists_and_left]

/-- Comments on other nodes do not matter. -/
theorem nearestComment?_congr (name : String) {commentMap : WordMap (List Comment)}
    {nodes : List NodeIndex}
    (agree : ∀ index ∈ nodes,
      ({ source with commentMap } : SourceFile).comments index = source.comments index) :
    ({ source with commentMap } : SourceFile).nearestComment? name nodes =
      source.nearestComment? name nodes := by
  induction nodes with
  | nil => rfl
  | cons index nodes ih =>
      have here := agree index (List.mem_cons_self ..)
      have same : ({ source with commentMap } : SourceFile).DocumentsParameters index ↔
          source.DocumentsParameters index := by
        rw [DocumentsParameters, DocumentsParameters, here]
      have rest := ih fun next member => agree next (List.mem_cons_of_mem _ member)
      by_cases documents : source.DocumentsParameters index
      · simp [nearestComment?, same, documents, here]
      · simpa [nearestComment?, same, documents] using rest

end SourceFile

/-! ## The comment of a parameter -/

theorem parameterComment?_eq (scope : Scope) {index : NodeIndex} {data : ParameterPayload}
    (isParameter : scope.source.arena.payload? index = some (.parameter data))
    {above : List NodeIndex} (ancestors : scope.source.arena.Ancestors index above) :
    parameterComment? scope index =
      scope.source.nearestComment? (scope.source.nameOf data.name)
        (scope.source.beforeEnclosing above) := by
  simp only [parameterComment?, parameterCommentWithin?, isParameter]
  exact SourceFile.commentAbove?_eq _ ancestors (Nat.le_succ_of_le ancestors.length_le)

/-- **Parameter comments come from the nearest documented owner.**  If the parent links of a
parameter end, then it has a comment exactly if there is a documented owner above it, before any
class, interface or namespace, and the first tag for the parameter on the nearest of them has that
comment for its text.  What is attached to other nodes has no effect. -/
theorem parameter_comment_from_nearest_owner (scope : Scope) (index : NodeIndex)
    (data : ParameterPayload)
    (isParameter : scope.source.arena.payload? index = some (.parameter data))
    (ends : ∃ n, scope.source.arena.get? (scope.source.arena.parent^[n + 1] index) = none) :
    ∃ above, scope.source.arena.Ancestors index above ∧
      let inside := scope.source.beforeEnclosing above
      (∀ comment, parameterComment? scope index = some comment ↔
        ∃ owner tag, IsFirst scope.source.DocumentsParameters inside owner ∧
          IsFirst (·.Documents (scope.source.nameOf data.name))
            ((scope.source.comments owner).flatMap (·.tags)) tag ∧
          tag.comment = some comment) ∧
      ∀ commentMap,
        (∀ ancestor ∈ inside, ({ scope.source with commentMap } : SourceFile).comments ancestor =
          scope.source.comments ancestor) →
        parameterComment? { scope with source := { scope.source with commentMap } } index =
          parameterComment? scope index := by
  obtain ⟨above, ancestors⟩ := Arena.exists_ancestors ends
  refine ⟨above, ancestors, fun comment => ?_, fun commentMap agree => ?_⟩
  · rw [parameterComment?_eq scope isParameter ancestors, SourceFile.nearestComment?_eq_some_iff]
  · let changed : Scope := { scope with source := { scope.source with commentMap } }
    rw [parameterComment?_eq scope isParameter ancestors,
      ← SourceFile.nearestComment?_congr _ agree]
    exact parameterComment?_eq changed isParameter ancestors

/-- A documented class with a property whose type is a function.  The property has two comments,
and so does the constructor. -/
def documentedClass : SourceFile where
  path := "/project/box.ts"
  text := "class Box { done: (a) => void; constructor(a) {} }"
  arena.nodes :=
    #[{ kind := .identifier, start := 19, stop := 20, payload := .identifier "a" },
      { kind := .parameter, start := 19, stop := 20
        payload := .parameter
          { modifiers := none, rest := false, name := ⟨0⟩, optional := false
            typeNode := .absent, initializer := .absent } },
      { kind := .functionType, start := 18, stop := 29
        payload := .functionDecl
          { modifiers := none, name := .absent, optional := false, typeParameters := none
            parameters := [⟨1⟩], typeNode := .absent, body := .absent } },
      { kind := .identifier, start := 12, stop := 16, payload := .identifier "done" },
      { kind := .propertyDeclaration, start := 12, stop := 30
        payload := .property
          { modifiers := none, name := ⟨3⟩, optional := false, typeNode := ⟨2⟩
            initializer := .absent } },
      { kind := .identifier, start := 43, stop := 44, payload := .identifier "a" },
      { kind := .parameter, start := 43, stop := 44
        payload := .parameter
          { modifiers := none, rest := false, name := ⟨5⟩, optional := false
            typeNode := .absent, initializer := .absent } },
      { kind := .constructor, start := 31, stop := 48
        payload := .functionDecl
          { modifiers := none, name := .absent, optional := false, typeParameters := none
            parameters := [⟨6⟩], typeNode := .absent, body := .absent } },
      { kind := .identifier, start := 6, stop := 9, payload := .identifier "Box" },
      { kind := .classDeclaration, start := 0, stop := 50
        payload := .classDecl
          { modifiers := none, name := ⟨8⟩, typeParameters := none, heritage := none
            members := [⟨4⟩, ⟨7⟩] } }]
  arena.parents := #[⟨1⟩, ⟨2⟩, ⟨4⟩, ⟨4⟩, ⟨9⟩, ⟨6⟩, ⟨7⟩, ⟨9⟩, ⟨9⟩, .absent]
  statements := [⟨9⟩]
  commentMap := .ofList
    [(4, [{ text := some "When it is done." },
        { tags := [{ word := "arg", name := some "b" },
          { word := "argument", name := some "a", comment := some "the result" }] }]),
      (7, [{ tags := [{ word := "param", name := some "a", comment := some "old" }] },
        { tags := [{ word := "param", name := some "a", comment := some "new" }] }]),
      (9, [{ tags := [{ word := "param", name := some "a", comment := some "of a box" }] }])]

/-- The function type has no comment, and the property around it decides. -/
theorem parameter_comment_from_nearest_owner_property :
    let scope : Scope := { file := ⟨0⟩, source := documentedClass }
    ∃ above, scope.source.arena.Ancestors ⟨1⟩ above ∧
      scope.source.beforeEnclosing above = [⟨2⟩, ⟨4⟩] ∧
      parameterComment? scope ⟨1⟩ = some "the result" ∧
      ∀ commentMap : WordMap (List Comment),
        commentMap.find? 2 = none → commentMap.find? 4 = documentedClass.commentMap.find? 4 →
        parameterComment? { scope with source := { documentedClass with commentMap } } ⟨1⟩ =
          some "the result" := by
  intro scope
  have path : scope.source.arena.Ancestors ⟨1⟩ [⟨2⟩, ⟨4⟩, ⟨9⟩] :=
    .parent rfl (.parent rfl (.parent rfl (.root rfl)))
  obtain ⟨above, ancestors, isComment, others⟩ :=
    parameter_comment_from_nearest_owner scope ⟨1⟩ _ rfl ⟨3, rfl⟩
  obtain rfl := path.unique ancestors
  have seen : scope.source.beforeEnclosing [⟨2⟩, ⟨4⟩, ⟨9⟩] = [⟨2⟩, ⟨4⟩] := by decide +kernel
  rw [seen] at isComment others
  have comment := (isComment "the result").2
    ⟨⟨4⟩, { word := "argument", name := some "a", comment := some "the result" },
      ⟨[⟨2⟩], [], rfl, by decide +kernel, by decide +kernel⟩,
      ⟨[{ word := "arg", name := some "b" }], [], rfl, by decide +kernel, by decide +kernel⟩, rfl⟩
  refine ⟨_, path, seen, comment, fun commentMap noComment same => ?_⟩
  rw [← comment]
  refine others commentMap fun ancestor member => ?_
  simp only [List.mem_cons, List.not_mem_nil, or_false] at member
  rcases member with rfl | rfl
  · exact congrArg (Option.getD · []) noComment
  · exact congrArg (Option.getD · []) same

/-! ## Signatures -/

namespace Resolver

open ReferenceIndex (Reached Memory)

variable {program : Program} {base : String} {builtins : List String}

/-- The search ends where it starts if the parameter belongs to a documented function. -/
theorem parameterCommentWithin?_of_parent {scope : Scope} {function parameter : NodeIndex}
    {kind : Kind} {own : ParameterPayload} {height : Nat}
    (isKind : scope.source.arena.kind? function = some kind)
    (functionLike : kind.isFunctionLike = true)
    (isParameter : scope.source.arena.payload? parameter = some (.parameter own))
    (below : scope.source.arena.parent parameter = function)
    (documented : scope.source.comments function ≠ []) (positive : 0 < height) :
    parameterCommentWithin? scope height parameter =
      tagComment? (scope.source.comments function) (scope.source.nameOf own.name) := by
  obtain ⟨height, rfl⟩ := Nat.exists_eq_succ_of_ne_zero (Nat.ne_of_gt positive)
  have inside : isDocBoundary kind = false := by
    rw [← Bool.not_eq_true, isDocBoundary_iff]
    exact Kind.not_mem_enclosing_of_isFunctionLike functionLike
  simp [parameterCommentWithin?, isParameter, below, commentAbove?, isKind, inside, ownsParameters,
    functionLike, documented]

/-- The signature of a documented function, read off its data. -/
theorem signature?_documented {scope : Scope} {function : NodeIndex} {data : FunctionPayload}
    {earlier : List Comment} {selected : Comment} (resolver : Resolver Id)
    (isFunction : scope.source.arena.payload? function = some (.functionDecl data))
    (blocks : scope.source.comments function = earlier ++ [selected]) :
    ∃ signature,
      (resolver.signature? (resolver.type scope) scope function).run = some signature ∧
      signature.doc = some (docBlock (resolver.type scope) selected).run ∧
      signature.parameters = data.parameters.filterMap fun parameter =>
        (resolver.parameter? (resolver.type scope) scope parameter).run := by
  obtain ⟨signature, isSignature, -, doc⟩ :=
    resolver.signature?_eq_some scope function (resolver.type scope) isFunction
  refine ⟨signature, isSignature, ?_, ?_⟩
  · rw [doc, doc?, blocks, List.getLast?_concat]
    rfl
  · rw [signature?, isFunction] at isSignature
    obtain rfl := Option.some.inj isSignature
    exact collectM_run _ _

/-- The tag for a parameter over all blocks, if the last block has one: that of the last block has
its text exactly if no earlier block has a tag with another text. -/
theorem tagComment?_concat {earlier : List Comment} {selected : Comment} {tag : CommentTag}
    {name : String} (documents : IsFirst (·.Documents name) selected.tags tag) :
    (∃ first, IsFirst (·.Documents name) ((earlier ++ [selected]).flatMap (·.tags)) first ∧
        tagComment? (earlier ++ [selected]) name = first.comment) ∧
      (tagComment? (earlier ++ [selected]) name = tag.comment ↔
        ∀ old, IsFirst (·.Documents name) (earlier.flatMap (·.tags)) old →
          old.comment = tag.comment) := by
  have last : selected.tags.find? (fun tag => decide (tag.Documents name)) = some tag :=
    find?_eq_some_iff_isFirst.2 documents
  rw [tagComment?_eq]
  simp only [← find?_eq_some_iff_isFirst, List.flatMap_append, List.flatMap_singleton,
    List.find?_append, last]
  cases (earlier.flatMap (·.tags)).find? fun tag => decide (tag.Documents name) <;> simp

/-- **The comment of a parameter beside the documentation of its signature.**  A signature is
documented by the last of the comments on its declaration.  If a tag there names a parameter of the
declaration, then the parameter has the text of the first such tag in all comments, which is the
text of that tag exactly if no earlier comment has a tag for the parameter with another one. -/
theorem signature_comments_follow_doc_iff {memory : Memory}
    (reached : Reached program base builtins memory) (scope : Scope)
    {function parameter : NodeIndex} {kind : Kind} {data : FunctionPayload}
    {own : ParameterPayload} {earlier : List Comment} {selected : Comment} {tag : CommentTag}
    (isKind : scope.source.arena.kind? function = some kind)
    (functionLike : kind.isFunctionLike = true)
    (isFunction : scope.source.arena.payload? function = some (.functionDecl data))
    (listed : parameter ∈ data.parameters)
    (isParameter : scope.source.arena.payload? parameter = some (.parameter own))
    (below : scope.source.arena.parent parameter = function)
    (blocks : scope.source.comments function = earlier ++ [selected])
    (documents : IsFirst (·.Documents (scope.source.nameOf own.name)) selected.tags tag) :
    let resolver := Resolver.remembering program base builtins
    let direct := Resolver.direct program base builtins
    let recordOf? := fun parameter => (direct.parameter? (direct.type scope) scope parameter).run
    ∃ signature record,
      (resolver.signature? (resolver.type scope) scope function memory).1 = some signature ∧
      signature.doc = some (docBlock (direct.type scope) selected).run ∧
      signature.parameters = data.parameters.filterMap recordOf? ∧
      record ∈ signature.parameters ∧ recordOf? parameter = some record ∧
      (∃ first, IsFirst (·.Documents (scope.source.nameOf own.name))
          ((earlier ++ [selected]).flatMap (·.tags)) first ∧
        record.comment = first.comment) ∧
      (record.comment = tag.comment ↔
        ∀ old, IsFirst (·.Documents (scope.source.nameOf own.name))
          (earlier.flatMap (·.tags)) old → old.comment = tag.comment) := by
  intro resolver direct recordOf?
  obtain ⟨signature, isSignature, doc, parameters⟩ := direct.signature?_documented isFunction blocks
  have answer : (resolver.signature? (resolver.type scope) scope function memory).1 =
      some signature :=
    (agrees_signature? (agrees_type program base builtins scope) scope function memory
      reached.recalls).1.trans isSignature
  obtain ⟨record, isRecord, comment⟩ : ∃ record, recordOf? parameter = some record ∧
      record.comment = parameterCommentWithin? scope (direct.depth scope.source) parameter := by
    simp only [recordOf?, parameter?, isParameter]
    exact ⟨_, rfl, rfl⟩
  have recorded : record ∈ signature.parameters := by
    rw [parameters]
    exact List.mem_filterMap.2 ⟨parameter, listed, isRecord⟩
  have documented : scope.source.comments function ≠ [] := by simp [blocks]
  have positive : 0 < direct.depth scope.source := Nat.succ_pos _
  rw [parameterCommentWithin?_of_parent isKind functionLike isParameter below documented positive,
    blocks] at comment
  obtain ⟨first, follows⟩ := tagComment?_concat documents
  rw [← comment] at first follows
  exact ⟨signature, record, answer, doc, parameters, recorded, isRecord, first, follows⟩

/-- The older comment on the constructor has a tag with another text, and the parameter does not
have the text that documents it. -/
theorem signature_comments_follow_doc_iff_constructor :
    let scope : Scope := { file := ⟨0⟩, source := documentedClass }
    let resolver := Resolver.remembering {} "/project" []
    ∃ signature record,
      (resolver.signature? (resolver.type scope) scope ⟨7⟩ {}).1 = some signature ∧
      record ∈ signature.parameters ∧ record.comment ≠ some "new" := by
  intro scope resolver
  let old : CommentTag := { word := "param", name := some "a", comment := some "old" }
  let new : CommentTag := { word := "param", name := some "a", comment := some "new" }
  have below : scope.source.arena.parent ⟨6⟩ = ⟨7⟩ := rfl
  have blocks : scope.source.comments ⟨7⟩ = [{ tags := [old] }] ++ [{ tags := [new] }] := rfl
  have isFirst : ∀ tag, tag = old ∨ tag = new →
      IsFirst (·.Documents (scope.source.nameOf ⟨5⟩)) [tag] tag := by
    rintro tag (rfl | rfl) <;> exact ⟨[], [], rfl, by decide +kernel, by simp⟩
  obtain ⟨signature, record, answer, -, -, recorded, -, -, follows⟩ :=
    signature_comments_follow_doc_iff .empty scope rfl rfl rfl (List.mem_singleton.2 rfl) rfl below
      blocks (isFirst new (.inr rfl))
  have differ : old.comment ≠ new.comment := by decide
  exact ⟨signature, record, answer, recorded,
    fun isNew => differ (follows.1 isNew old (isFirst old (.inl rfl)))⟩

/-- The constructor is documented by a comment whose tag for the parameter says `new`, and the
parameter beside it says `old`. -/
theorem stale_comment_shown :
    let scope : Scope := { file := ⟨0⟩, source := documentedClass }
    let resolver := Resolver.remembering {} "/project" []
    ∃ signature doc record,
      (resolver.signature? (resolver.type scope) scope ⟨7⟩ {}).1 = some signature ∧
      signature.doc = some doc ∧
      doc.tags.map (·.map fun tag => (tag.word, tag.argument, tag.comment)) =
        some [("param", some "a", some "new")] ∧
      signature.parameters = [record] ∧ record.name = "a" ∧ record.comment = some "old" :=
  ⟨_, _, _, rfl, rfl, rfl, rfl, rfl, rfl⟩

end Resolver

end ApiDocs
