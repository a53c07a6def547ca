import ApiDocs.Proofs.Resolve.Settling

/-!
# What is shown as it was written

Resolution never fails, because syntax without a structural counterpart is shown as it was written.
Here it is said **exactly when this happens, and with which text**.  Parentheses around a type are
passed over, and so is the node that makes a literal a type; what decides is the node behind them.

## Main definitions

* `Place` — the two places at which a node is looked at, with the kinds that have a counterpart
  there.
* `SourceFile.Unwraps` — the node behind the parentheses around a type.
* `Scope.FallsBack` — the nodes that are shown as they were written.

## Main statements

* `exists_unwraps_of_settles` — where resolution ends, there is a node behind the parentheses.
* `Unwraps.length_lt` — there are fewer parentheses than the depth that a file allows.
* `typeStep_written`, `literalType_written` — what is shown of a node at its place.
* `fallback_exact` — what is shown of a type.

## Design notes

**A node decides alone.**  Whether a type is shown as it was written depends on the kind and the
layout of one node, on the operator or the digits that it spells, and for `this` on the checker; the
types inside it play no part, and neither does the index.
-/

namespace ApiDocs

/-! ## Parentheses -/

/-- The type inside a parenthesized one. -/
def Node.wrapped? (node : Node) : Option NodeIndex :=
  match node.kind, node.payload with
  | .parenthesizedType, .wrapped inner => some inner
  | _, _ => none

/-- The literal of a literal type. -/
def Node.literal? (node : Node) : Option NodeIndex :=
  match node.kind, node.payload with
  | .literalType, .literalType literal => some literal
  | _, _ => none

/-- Where a node is looked at: in the place of a type, or as the literal of a literal type. -/
inductive Place where
  | type
  | literal

/-- The kinds of nodes that have a structural counterpart at a place. -/
def Place.kinds : Place → List Kind
  | type =>
    [.numberKeyword, .stringKeyword, .booleanKeyword, .trueKeyword, .falseKeyword,
      .undefinedKeyword, .nullKeyword, .voidKeyword, .anyKeyword, .unknownKeyword, .neverKeyword,
      .objectKeyword, .symbolKeyword, .bigIntKeyword,
      .identifier, .qualifiedName, .expressionWithTypeArguments, .thisType, .thisKeyword,
      .typeReference, .functionType, .constructorType, .typeLiteral, .unionType,
      .intersectionType, .tupleType, .arrayType, .typeOperator, .parenthesizedType, .literalType,
      .numericLiteral, .stringLiteral, .noSubstitutionTemplateLiteral, .prefixUnaryExpression]
  | literal =>
    [.numericLiteral, .stringLiteral, .noSubstitutionTemplateLiteral, .trueKeyword, .falseKeyword,
      .nullKeyword, .undefinedKeyword, .prefixUnaryExpression]

/-- The node behind the parentheses around a type, with the parenthesized types that are passed over
on the way to it.  A literal type is passed over as well, and its literal is looked at as such. -/
inductive SourceFile.Unwraps (source : SourceFile) :
    NodeIndex → List NodeIndex → Place → NodeIndex → Prop
  | here {index : NodeIndex}
      (bare : ∀ node, source.arena.get? index = some node →
        node.wrapped? = none ∧ node.literal? = none) :
      Unwraps source index [] .type index
  | literal {index literal : NodeIndex} {node : Node}
      (found : source.arena.get? index = some node) (holds : node.literal? = some literal) :
      Unwraps source index [] .literal literal
  | parenthesized {index inner last : NodeIndex} {node : Node} {passed : List NodeIndex}
      {place : Place} (found : source.arena.get? index = some node)
      (wraps : node.wrapped? = some inner) (behind : Unwraps source inner passed place last) :
      Unwraps source index (index :: passed) place last

theorem Node.wrapped?_eq_some_iff {node : Node} {inner : NodeIndex} :
    node.wrapped? = some inner ↔
      node.kind = .parenthesizedType ∧ node.payload = .wrapped inner := by
  unfold wrapped?
  split <;> simp_all

theorem Node.literal?_eq_some_iff {node : Node} {literal : NodeIndex} :
    node.literal? = some literal ↔
      node.kind = .literalType ∧ node.payload = .literalType literal := by
  unfold literal?
  split <;> simp_all

/-- No node is both a parenthesized type and a literal type. -/
theorem Node.literal?_of_wrapped? {node : Node} {inner : NodeIndex}
    (wraps : node.wrapped? = some inner) : node.literal? = none := by
  rw [Option.eq_none_iff_forall_ne_some]
  intro literal holds
  have isKind := (wrapped?_eq_some_iff.1 wraps).1
  rw [(literal?_eq_some_iff.1 holds).1] at isKind
  cases isKind

/-- A type is parenthesized, or it is looked at as it is. -/
theorem SourceFile.wrapped_or_unwraps (source : SourceFile) (index : NodeIndex) :
    (∃ node inner, source.arena.get? index = some node ∧ node.wrapped? = some inner) ∨
      ∃ place last, source.Unwraps index [] place last := by
  cases found : source.arena.get? index with
  | none => exact .inr ⟨.type, index, .here (by simp [found])⟩
  | some node =>
      cases wraps : node.wrapped? with
      | some inner => exact .inl ⟨node, inner, rfl, wraps⟩
      | none =>
          cases holds : node.literal? with
          | some literal => exact .inr ⟨.literal, literal, .literal found holds⟩
          | none => exact .inr ⟨.type, index, .here (by simp [found, wraps, holds])⟩

namespace SourceFile.Unwraps

variable {source : SourceFile} {index last : NodeIndex} {passed : List NodeIndex} {place : Place}

theorem passed_unique (unwraps : source.Unwraps index passed place last) :
    ∀ {otherPassed otherPlace otherLast},
      source.Unwraps index otherPassed otherPlace otherLast → passed = otherPassed := by
  induction unwraps with
  | here bare =>
      intro otherPassed otherPlace otherLast other
      cases other with
      | here _ => rfl
      | literal _ _ => rfl
      | parenthesized found wraps _ =>
          rw [(bare _ found).1] at wraps
          cases wraps
  | literal found holds =>
      intro otherPassed otherPlace otherLast other
      cases other with
      | here _ => rfl
      | literal _ _ => rfl
      | parenthesized foundToo wraps _ =>
          obtain rfl := Option.some.inj (found.symm.trans foundToo)
          rw [Node.literal?_of_wrapped? wraps] at holds
          cases holds
  | parenthesized found wraps behind ih =>
      intro otherPassed otherPlace otherLast other
      cases other with
      | here bare =>
          rw [(bare _ found).1] at wraps
          cases wraps
      | literal foundToo holds =>
          obtain rfl := Option.some.inj (found.symm.trans foundToo)
          rw [Node.literal?_of_wrapped? wraps] at holds
          cases holds
      | parenthesized foundToo wrapsToo behindToo =>
          obtain rfl := Option.some.inj (found.symm.trans foundToo)
          obtain rfl := Option.some.inj (wraps.symm.trans wrapsToo)
          rw [ih behindToo]

/-- Parenthesized types are nodes of the file, and none is met twice: a type met again would have
more parentheses around it than itself. -/
theorem nodup (unwraps : source.Unwraps index passed place last) :
    passed.Nodup ∧ ∀ wrapper ∈ passed, wrapper.toNat < source.arena.nodes.size ∧
      ∃ rest, source.Unwraps wrapper rest place last ∧ rest.length ≤ passed.length := by
  induction unwraps with
  | here bare => exact ⟨.nil, by simp⟩
  | literal found holds => exact ⟨.nil, by simp⟩
  | @parenthesized index inner last node passed place found wraps behind ih =>
      obtain ⟨nodup, each⟩ := ih
      have whole := Unwraps.parenthesized found wraps behind
      have new : index ∉ passed := by
        intro again
        obtain ⟨-, rest, unwraps, short⟩ := each index again
        rw [← whole.passed_unique unwraps, List.length_cons] at short
        omega
      refine ⟨List.nodup_cons.2 ⟨new, nodup⟩, fun wrapper member => ?_⟩
      rcases List.mem_cons.1 member with rfl | further
      · exact ⟨Arena.toNat_lt_of_get? found, _, whole, Nat.le_refl _⟩
      · obtain ⟨inside, rest, unwraps, short⟩ := each wrapper further
        exact ⟨inside, rest, unwraps, Nat.le_succ_of_le short⟩

/-- There are fewer parentheses than the depth that a file allows. -/
theorem length_lt (unwraps : source.Unwraps index passed place last) :
    passed.length < source.arena.depthBound := by
  obtain ⟨nodup, each⟩ := unwraps.nodup
  exact Nat.lt_succ_of_le (length_le_of_nodup NodeIndex.toNat_injective nodup
    fun wrapper member => (each wrapper member).1)

end SourceFile.Unwraps

/-! ## Nodes that are shown as they were written -/

/-- Whether a node has data of the layout that its kind asks for. -/
def Node.fitsKind (node : Node) : Bool :=
  match node.kind with
  | .typeReference => (node.payload matches .typeReference _ _)
  | .functionType => (node.payload matches .functionDecl _)
  | .constructorType => (node.payload matches .functionDecl _)
  | .typeLiteral => (node.payload matches .typeLiteral _)
  | .unionType => (node.payload matches .composite _)
  | .intersectionType => (node.payload matches .composite _)
  | .tupleType => (node.payload matches .composite _)
  | .arrayType => (node.payload matches .arrayType _)
  | .typeOperator => (node.payload matches .typeOperator _ _)
  | .parenthesizedType => (node.payload matches .wrapped _)
  | .literalType => (node.payload matches .literalType _)
  | _ => true

/-- Whether a node is a type operator other than `unique`, `keyof` and `readonly`. -/
def Node.OtherOperator (node : Node) : Prop :=
  ∃ operator operand, node.kind = .typeOperator ∧ node.payload = .typeOperator operator operand ∧
    operator ∉ [.uniqueKeyword, .keyOfKeyword, .readonlyKeyword]

/-- The nodes that are shown as they were written when they are looked at in a place: an absent
node, a node of a kind without a counterpart there, a node with data of another layout, an unknown
type operator, a `this` without a symbol, and a prefix expression that is no number with a sign. -/
def Scope.FallsBack (scope : Scope) (program : Program) (place : Place) (index : NodeIndex) :
    Prop :=
  ∀ node, scope.source.arena.get? index = some node →
    node.kind ∉ place.kinds ∨ node.fitsKind = false ∨ node.OtherOperator ∨
    (node.kind = .thisType ∨ node.kind = .thisKeyword) ∧
      program.symbolAt? scope.file index = none ∨
    node.kind = .prefixUnaryExpression ∧
      Text.isSignedNumber (scope.source.nodeText index).toList = false

/-- A type that is shown of a node: its text if the node falls back, and something else if not. -/
inductive Ty.Falls (falls : Prop) (text : String) : Ty → Prop
  | written (fallsBack : falls) : Falls falls text (.written text)
  | structural {type : Ty} (maps : ¬falls) (isStructural : type.isWritten = false) :
      Falls falls text type

theorem Scope.fallsBack_iff {scope : Scope} {program : Program} {place : Place} {index : NodeIndex}
    {node : Node} (found : scope.source.arena.get? index = some node) :
    scope.FallsBack program place index ↔
      node.kind ∉ place.kinds ∨ node.fitsKind = false ∨ node.OtherOperator ∨
      (node.kind = .thisType ∨ node.kind = .thisKeyword) ∧
        program.symbolAt? scope.file index = none ∨
      node.kind = .prefixUnaryExpression ∧
        Text.isSignedNumber (scope.source.nodeText index).toList = false := by
  simp [FallsBack, found]

theorem Scope.fallsBack_of_absent {scope : Scope} {program : Program} {place : Place}
    {index : NodeIndex} (absent : scope.source.arena.get? index = none) :
    scope.FallsBack program place index := by
  simp [FallsBack, absent]

/-- **What is shown of a literal**, looked at as the literal of a literal type. -/
theorem literalType_written (scope : Scope) (program : Program) (index : NodeIndex) :
    Ty.Falls (scope.FallsBack program .literal index) (scope.source.nodeText index)
      (literalType scope index) := by
  cases found : scope.source.arena.get? index with
  | none =>
      simp only [literalType, Arena.kind?, found, Option.map_none]
      exact .written (Scope.fallsBack_of_absent found)
  | some node =>
      obtain ⟨kind, flags, start, stop, payload⟩ := node
      rw [Scope.fallsBack_iff found]
      simp only [literalType, Arena.kind?, found, Option.map_some]
      split
      case h_4 isPrefix =>
        cases Option.some.inj isPrefix
        split
        · rename_i signed
          refine .structural ?_ rfl
          simp [Place.kinds, Node.fitsKind, Node.OtherOperator, signed]
        · rename_i unsigned
          exact .written (by simp [unsigned])
      case h_9 =>
        refine .written (.inl ?_)
        simp_all [Place.kinds]
      all_goals
        rename_i isKind
        cases Option.some.inj isKind
        refine .structural ?_ rfl
        simp [Place.kinds, Node.fitsKind, Node.OtherOperator]

/-- Four kinds of nodes are literals in both places. -/
theorem Scope.fallsBack_type_iff_literal {scope : Scope} {program : Program} {index : NodeIndex}
    {node : Node} (found : scope.source.arena.get? index = some node)
    (both : node.kind ∈ Place.type.kinds) (literal : node.kind ∈ Place.literal.kinds) :
    scope.FallsBack program .type index ↔ scope.FallsBack program .literal index := by
  simp only [fallsBack_iff found, both, literal]

/-- A keyword falls back nowhere in the place of a type. -/
theorem Scope.not_fallsBack_of_keyword {scope : Scope} {program : Program} {index : NodeIndex}
    {node : Node} {word : Keyword} (found : scope.source.arena.get? index = some node)
    (isKeyword : Keyword.ofKind? node.kind = some word) :
    ¬scope.FallsBack program .type index := by
  rw [fallsBack_iff found]
  obtain ⟨kind, flags, start, stop, payload⟩ := node
  dsimp only at isKeyword ⊢
  cases kind <;>
    first
    | simp [Place.kinds, Node.fitsKind, Node.OtherOperator]; done
    | cases isKeyword

/-- What an operator makes of a type has a structure. -/
theorem isWritten_of_operatorType? {operator : Kind} {operate : Ty → Ty}
    (operates : operatorType? operator = some operate) (type : Ty) :
    operator ∈ [.uniqueKeyword, .keyOfKeyword, .readonlyKeyword] ∧
      (operate type).isWritten = false := by
  unfold operatorType? at operates
  split at operates <;> cases operates <;> exact ⟨by simp, rfl⟩

theorem not_mem_of_operatorType? {operator : Kind} (unknown : operatorType? operator = none) :
    operator ∉ [.uniqueKeyword, .keyOfKeyword, .readonlyKeyword] := by
  intro member
  simp only [List.mem_cons, List.not_mem_nil, or_false] at member
  rcases member with rfl | rfl | rfl <;> cases unknown

namespace Resolver

variable {σ : Type}

/-- **What is shown of a node in the place of a type**, behind all parentheses. -/
theorem typeStep_written (resolver : Resolver (StateM σ)) (scope : Scope)
    (type : NodeIndex → StateM σ Ty) {index : NodeIndex}
    (bare : ∀ node, scope.source.arena.get? index = some node →
      node.wrapped? = none ∧ node.literal? = none) (state : σ) :
    Ty.Falls (scope.FallsBack resolver.program .type index) (scope.source.nodeText index)
      (resolver.typeStep scope type index state).1 := by
  cases found : scope.source.arena.get? index with
  | none =>
      simp only [typeStep, found]
      exact .written (Scope.fallsBack_of_absent found)
  | some node =>
      obtain ⟨noWrapper, noLiteral⟩ := bare node found
      have falls : scope.FallsBack resolver.program .type index ↔ _ := Scope.fallsBack_iff found
      simp only [typeStep, found]
      cases isKeyword : Keyword.ofKind? node.kind with
      | some word => exact .structural (Scope.not_fallsBack_of_keyword found isKeyword) rfl
      | none =>
          obtain ⟨kind, flags, start, stop, payload⟩ := node
          simp only [structuralType]
          split
          -- Names and base types are references, whatever the index knows about them.
          case h_2 | h_3 | h_4 =>
            refine .structural ?_ rfl
            simp [falls, Place.kinds, Node.fitsKind, Node.OtherOperator]
          case h_5 | h_6 =>
            rw [structuralType.thisType]
            cases bound : resolver.program.symbolAt? scope.file index with
            | some symbol =>
                refine .structural ?_ rfl
                simp [falls, bound, Place.kinds, Node.fitsKind, Node.OtherOperator]
            | none => exact .written (by simp [falls, bound])
          case h_14 =>
            cases payload
            case typeOperator operator operand =>
              cases operates : operatorType? operator with
              | some operate =>
                  have known := isWritten_of_operatorType? operates
                  simp only [operates]
                  refine .structural ?_ (known _).2
                  have listed := (known (type operand state).1).1
                  simp only [List.mem_cons, List.not_mem_nil, or_false] at listed
                  rcases listed with rfl | rfl | rfl <;>
                    simp [falls, Place.kinds, Node.fitsKind, Node.OtherOperator]
              | none =>
                  have other := not_mem_of_operatorType? operates
                  simp only [operates]
                  exact .written (falls.2 (.inr (.inr (.inl ⟨operator, operand, rfl, rfl, other⟩))))
            all_goals exact .written (falls.2 (.inr (.inl rfl)))
          case h_15 =>
            cases payload
            case wrapped inner => cases noWrapper
            all_goals exact .written (falls.2 (.inr (.inl rfl)))
          case h_16 =>
            cases payload
            case literalType literal => cases noLiteral
            all_goals exact .written (falls.2 (.inr (.inl rfl)))
          -- Literals are the same in both places.
          case h_17 | h_18 | h_19 | h_20 =>
            rw [Scope.fallsBack_type_iff_literal found (by simp [Place.kinds])
              (by simp [Place.kinds])]
            exact literalType_written scope resolver.program index
          case h_21 =>
            refine .written (falls.2 (.inl ?_))
            show kind ∉ Place.type.kinds
            cases kind <;> first | contradiction | decide
          -- The other kinds have a counterpart exactly if the layout is theirs.
          all_goals
            cases payload <;>
              first
              | exact .written (falls.2 (.inr (.inl rfl)))
              | exact .structural
                  (by simp [falls, Place.kinds, Node.fitsKind, Node.OtherOperator]) rfl

/-! ## Types -/

/-- One step passes over a pair of parentheses. -/
theorem typeStep_parenthesized (resolver : Resolver (StateM σ)) (scope : Scope)
    (type : NodeIndex → StateM σ Ty) {index inner : NodeIndex} {node : Node}
    (found : scope.source.arena.get? index = some node) (wraps : node.wrapped? = some inner) :
    resolver.typeStep scope type index = type inner := by
  obtain ⟨isKind, isWrapped⟩ := Node.wrapped?_eq_some_iff.1 wraps
  simp [typeStep, structuralType, found, isKind, isWrapped, Keyword.ofKind?]

theorem typeStep_literal (resolver : Resolver (StateM σ)) (scope : Scope)
    (type : NodeIndex → StateM σ Ty) {index literal : NodeIndex} {node : Node}
    (found : scope.source.arena.get? index = some node) (holds : node.literal? = some literal) :
    resolver.typeStep scope type index = pure (literalType scope literal) := by
  obtain ⟨isKind, isLiteral⟩ := Node.literal?_eq_some_iff.1 holds
  simp [typeStep, structuralType, found, isKind, isLiteral, Keyword.ofKind?]

/-- **What is shown of a type** is what is shown of the node behind its parentheses. -/
theorem typeWithin_written (resolver : Resolver (StateM σ)) {scope : Scope}
    {index last : NodeIndex} {passed : List NodeIndex} {place : Place}
    (unwraps : scope.source.Unwraps index passed place last) (state : σ) :
    ∀ {depth : Nat}, passed.length < depth →
      Ty.Falls (scope.FallsBack resolver.program place last) (scope.source.nodeText last)
        (resolver.typeWithin scope depth index state).1 := by
  induction unwraps with
  | here bare =>
      intro depth deep
      obtain ⟨depth, rfl⟩ := Nat.exists_eq_succ_of_ne_zero (Nat.ne_of_gt deep)
      exact resolver.typeStep_written scope (resolver.typeWithin scope depth) bare state
  | @literal index literal node found holds =>
      intro depth deep
      obtain ⟨depth, rfl⟩ := Nat.exists_eq_succ_of_ne_zero (Nat.ne_of_gt deep)
      rw [typeWithin, resolver.typeStep_literal scope _ found holds]
      exact literalType_written scope resolver.program literal
  | parenthesized found wraps behind ih =>
      intro depth deep
      cases depth with
      | zero => cases deep
      | succ depth =>
          rw [typeWithin, resolver.typeStep_parenthesized scope _ found wraps]
          exact ih (Nat.lt_of_succ_lt_succ deep)

/-- Where resolution ends, there is a node behind the parentheses: parentheses without an end would
hand on whatever is answered at the deepest level. -/
theorem exists_unwraps_of_settles (resolver : Resolver (StateM σ)) {scope : Scope}
    {index : NodeIndex} {bound : Nat} {value : StateM σ Ty}
    (settles : Settles (resolver.typeStep scope) bound index value) (state : σ) :
    ∃ passed place last, scope.source.Unwraps index passed place last := by
  by_contra endless
  have handsOn : ∀ (deeper : StateM σ Ty) (n : Nat) (index : NodeIndex),
      (¬∃ passed place last, scope.source.Unwraps index passed place last) →
      (resolver.typeStep scope)^[n] (fun _ => deeper) index = deeper := by
    intro deeper n
    induction n with
    | zero =>
        intro index _
        rfl
    | succ n ih =>
        intro index endless
        obtain ⟨node, inner, found, wraps⟩ :=
          (scope.source.wrapped_or_unwraps index).resolve_right fun unwraps => endless ⟨[], unwraps⟩
        rw [Function.iterate_succ_apply', resolver.typeStep_parenthesized scope _ found wraps]
        refine ih inner fun ⟨passed, place, last, behind⟩ => endless ?_
        exact ⟨_, place, last, .parenthesized found wraps behind⟩
  have one := settles (fun _ => pure (.keyword .any)) bound (Nat.le_refl _)
  have other := settles (fun _ => pure (.keyword .never)) bound (Nat.le_refl _)
  rw [handsOn _ _ _ endless] at one other
  have same := congrArg (fun value => (value state).1) (one.trans other.symm)
  cases same

/-- **A type is shown as it was written exactly if the node behind its parentheses falls back, and
then with the text of that node.**  This holds of every type at which resolution ends, whatever the
checker and the index answer. -/
theorem fallback_exact (resolver : Resolver (StateM σ)) (scope : Scope) (index : NodeIndex)
    (deep : scope.source.arena.depthBound ≤ resolver.depth scope.source)
    (ends : ∃ bound value, Settles (resolver.typeStep scope) bound index value) (state : σ) :
    ∃ passed place last, scope.source.Unwraps index passed place last ∧
      ((resolver.type scope index state).1.isWritten = true ↔
        scope.FallsBack resolver.program place last) ∧
      (scope.FallsBack resolver.program place last →
        (resolver.type scope index state).1 = .written (scope.source.nodeText last)) := by
  obtain ⟨bound, value, settles⟩ := ends
  obtain ⟨passed, place, last, unwraps⟩ := resolver.exists_unwraps_of_settles settles state
  have shown : Ty.Falls _ _ (resolver.type scope index state).1 :=
    resolver.typeWithin_written unwraps state (Nat.lt_of_lt_of_le unwraps.length_lt deep)
  refine ⟨passed, place, last, unwraps, ?_⟩
  generalize (resolver.type scope index state).1 = type at shown ⊢
  cases shown with
  | written fallsBack => exact ⟨⟨fun _ => fallsBack, fun _ => rfl⟩, fun _ => rfl⟩
  | structural maps isStructural =>
      exact ⟨by simp [maps, isStructural], fun fallsBack => (maps fallsBack).elim⟩

/-- A file with a query in parentheses, which has no structural counterpart. -/
def queryFile : SourceFile where
  path := "/project/query.ts"
  text := "type Query = (typeof x)"
  arena :=
    { nodes := #[
        { kind := .typeQuery, start := 14, stop := 22 },
        { kind := .parenthesizedType, start := 13, stop := 23, payload := .wrapped ⟨0⟩ }]
      parents := #[⟨1⟩, .absent] }
  commentMap := .empty

/-- The query is shown without its parentheses. -/
theorem fallback_exact_query :
    let scope : Scope := { file := ⟨0⟩, source := queryFile }
    let resolver : Resolver (StateM ReferenceIndex.Memory) :=
      { program := {}, index := .remembering {} "/project" [] }
    (resolver.type scope ⟨1⟩ {}).1 = .written "typeof x" ∧
      ∃ passed place last, queryFile.Unwraps ⟨1⟩ passed place last ∧
        ((resolver.type scope ⟨1⟩ {}).1.isWritten = true ↔ scope.FallsBack {} place last) ∧
        (scope.FallsBack {} place last →
          (resolver.type scope ⟨1⟩ {}).1 = .written (queryFile.nodeText last)) := by
  intro scope resolver
  have settles : Settles (resolver.typeStep scope) 2 ⟨1⟩
      (pure (.written (queryFile.nodeText ⟨0⟩))) := by
    intro deeper n enough
    obtain ⟨k, rfl⟩ := Nat.exists_eq_add_of_le' enough
    rw [Function.iterate_succ_apply', Function.iterate_succ_apply']
    rfl
  have text : queryFile.nodeText ⟨0⟩ = "typeof x" := by decide +kernel
  refine ⟨text ▸ rfl, ?_⟩
  exact resolver.fallback_exact scope ⟨1⟩ (Nat.le_refl _) ⟨2, _, settles⟩ {}

end Resolver

end ApiDocs
