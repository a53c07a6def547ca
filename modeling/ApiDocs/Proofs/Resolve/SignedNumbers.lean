import ApiDocs.Proofs.Resolve.Fallback
import ApiDocs.Proofs.Resolve.Memory
import ApiDocs.Proofs.Text.Numerals

/-!
# Number literals with a sign

A prefix expression is looked at in the place of a type, as the literal of a literal type and as an
initializer or default value.  All three ask the same question about its text, and **the text alone
decides** whether it is a number literal or is shown as it was written.  A sign before a numeral is
a number literal, and a sign before an identifier or before another sign should not be.  It is one
exactly if what follows the sign is a pseudonumeral, such as `Infinity` or `-1`.

## Main definitions

* `signedType` — what is shown of a prefix expression with a given text.

## Main statements

* `type_signed`, `expression_signed` — the places at which a prefix expression is looked at.
* `number_literals_signed_iff` — the prefix expressions that are number literals.
* `pseudonumerals_shown` — prefix expressions that should be shown as they were written.
-/

namespace ApiDocs

open Text (SignedNumeral Misread Signed Numeral Pseudonumeral isSignedNumber isBlank)

/-- What is shown of a prefix expression with the given text. -/
def signedType (text : String) : Ty :=
  if isSignedNumber text.toList then .numberLiteral text else .written text

theorem signedType_eq_numberLiteral_iff {text : String} :
    signedType text = .numberLiteral text ↔ SignedNumeral text.toList ∨ Misread text.toList := by
  rw [← Text.isSignedNumber_iff, signedType]
  split <;> simp_all

theorem signedType_eq_written_iff {text : String} :
    signedType text = .written text ↔ ¬(SignedNumeral text.toList ∨ Misread text.toList) := by
  rw [← Text.isSignedNumber_iff, signedType]
  split <;> simp_all

variable {σ : Type} {scope : Scope} {last : NodeIndex}

theorem literalType_signed (isKind : scope.source.arena.kind? last = some .prefixUnaryExpression) :
    literalType scope last = signedType (scope.source.nodeText last) := by
  simp only [literalType, isKind]
  rfl

namespace Resolver

/-- An initializer or default value. -/
theorem expression_signed (resolver : Resolver (StateM σ)) (type : NodeIndex → StateM σ Ty)
    (isKind : scope.source.arena.kind? last = some .prefixUnaryExpression) (state : σ) :
    (resolver.expression type scope last state).1 = signedType (scope.source.nodeText last) := by
  simp only [expression, isKind, signedType]
  split <;> rfl

theorem typeWithin_signed (resolver : Resolver (StateM σ))
    (isKind : scope.source.arena.kind? last = some .prefixUnaryExpression) {index : NodeIndex}
    {passed : List NodeIndex} {place : Place}
    (unwraps : scope.source.Unwraps index passed place last) :
    ∀ {depth : Nat}, passed.length < depth →
      resolver.typeWithin scope depth index = pure (signedType (scope.source.nodeText last)) := by
  induction unwraps with
  | @here index bare =>
      intro depth deep
      obtain ⟨depth, rfl⟩ := Nat.exists_eq_succ_of_ne_zero (Nat.ne_of_gt deep)
      obtain ⟨node, found, kindIs⟩ := Option.map_eq_some_iff.1 isKind
      rw [← literalType_signed isKind]
      simp [typeWithin, typeStep, structuralType, found, kindIs, Keyword.ofKind?]
  | literal found holds =>
      intro depth deep
      obtain ⟨depth, rfl⟩ := Nat.exists_eq_succ_of_ne_zero (Nat.ne_of_gt deep)
      rw [typeWithin, resolver.typeStep_literal scope _ found holds, literalType_signed isKind]
  | parenthesized found wraps behind ih =>
      intro depth deep
      cases depth with
      | zero => cases deep
      | succ depth =>
          rw [typeWithin, resolver.typeStep_parenthesized scope _ found wraps]
          exact ih isKind (Nat.lt_of_succ_lt_succ deep)

/-- A type, behind any parentheses and in a literal type or by itself. -/
theorem type_signed (resolver : Resolver (StateM σ))
    (isKind : scope.source.arena.kind? last = some .prefixUnaryExpression)
    (deep : scope.source.arena.depthBound ≤ resolver.depth scope.source) {index : NodeIndex}
    {passed : List NodeIndex} {place : Place}
    (unwraps : scope.source.Unwraps index passed place last) (state : σ) :
    (resolver.type scope index state).1 = signedType (scope.source.nodeText last) := by
  have enough := Nat.lt_of_lt_of_le unwraps.length_lt deep
  rw [Resolver.type, resolver.typeWithin_signed isKind unwraps enough]
  rfl

/-- **Which prefix expressions are number literals.**  The texts that pass for signed numbers are
those of a sign and a numeral, and the misread ones; no text is both.  A prefix expression with such
a text is a number literal and any other is shown as it was written, behind any parentheses, in a
literal type and as an initializer or default value.  If what follows its sign starts neither with a
digit nor with a point, as an identifier does and another sign, then it is shown as it was written
unless that is a pseudonumeral. -/
theorem number_literals_signed_iff (resolver : Resolver (StateM σ)) (scope : Scope)
    (last : NodeIndex) (isKind : scope.source.arena.kind? last = some .prefixUnaryExpression)
    (deep : scope.source.arena.depthBound ≤ resolver.depth scope.source)
    (type : NodeIndex → StateM σ Ty) (state : σ) :
    (∀ text : List Char,
        (isSignedNumber text = true ↔ SignedNumeral text ∨ Misread text) ∧
          ¬(SignedNumeral text ∧ Misread text)) ∧
      let text := scope.source.nodeText last
      ∃ shown : Ty,
        (∀ index passed place, scope.source.Unwraps index passed place last →
          (resolver.type scope index state).1 = shown) ∧
        (resolver.expression type scope last state).1 = shown ∧
        (shown = .numberLiteral text ↔ SignedNumeral text.toList ∨ Misread text.toList) ∧
        (shown = .written text ↔ ¬(SignedNumeral text.toList ∨ Misread text.toList)) ∧
        ∀ operand, Signed text.toList operand →
          (∀ c ∈ operand.head?, isBlank c = false ∧ c.isDigit = false ∧ c ≠ '.') →
          (shown = .written text ↔ ¬Pseudonumeral operand) := by
  refine ⟨fun text => ⟨Text.isSignedNumber_iff text, ?_⟩,
    signedType (scope.source.nodeText last), ?_, ?_, signedType_eq_numberLiteral_iff,
    signedType_eq_written_iff, ?_⟩
  · rintro ⟨signedNumeral, misread⟩
    exact misread.not_signedNumeral signedNumeral
  · exact fun index passed place unwraps => resolver.type_signed isKind deep unwraps state
  · exact resolver.expression_signed type isKind state
  · intro operand signed first
    have solid : ∀ c ∈ operand.head?, isBlank c = false := fun c isFirst => (first c isFirst).1
    have noNumeral : ¬Numeral operand := by
      intro numeral
      obtain ⟨c, rest, rfl, start⟩ := numeral.first
      obtain ⟨-, noDigit, noPoint⟩ := first c rfl
      rcases start with digit | point
      · rw [noDigit] at digit
        cases digit
      · exact noPoint point
    rw [signedType_eq_written_iff, signed.signedNumeral_iff solid, signed.misread_iff solid,
      or_iff_right noNumeral]

/-- A file with two prefix expressions as initializers, both of which also stand for types. -/
def signedFile : SourceFile where
  path := "/project/signed.ts"
  text := "let v = -Infinity, w = - -1;"
  arena.nodes :=
    #[{ kind := .prefixUnaryExpression, start := 8, stop := 17 },
      { kind := .prefixUnaryExpression, start := 23, stop := 27 },
      { kind := .literalType, start := 8, stop := 17, payload := .literalType ⟨0⟩ },
      { kind := .parenthesizedType, start := 23, stop := 27, payload := .wrapped ⟨1⟩ }]
  commentMap := .empty

/-- The identifier after the sign is a pseudonumeral, and the prefix expression is a number literal
as an initializer and in a literal type. -/
theorem number_literals_signed_iff_infinity :
    let scope : Scope := { file := ⟨0⟩, source := signedFile }
    let resolver := Resolver.remembering {} "/project" []
    scope.source.nodeText ⟨0⟩ = "-Infinity" ∧
      Misread "-Infinity".toList ∧ ¬SignedNumeral "-Infinity".toList ∧
      (resolver.type scope ⟨2⟩ {}).1 = .numberLiteral "-Infinity" ∧
      (resolver.expression (resolver.type scope) scope ⟨0⟩ {}).1 = .numberLiteral "-Infinity" := by
  intro scope resolver
  have text : scope.source.nodeText ⟨0⟩ = "-Infinity" := by decide +kernel
  obtain ⟨texts, shown, inTypes, asValue, isNumber, -, -⟩ :=
    resolver.number_literals_signed_iff scope ⟨0⟩ (by decide +kernel) (Nat.le_refl _)
      (resolver.type scope) {}
  have misread : Misread "-Infinity".toList :=
    ⟨"Infinity".toList, ⟨'-', [], .inr rfl, by simp, by decide +kernel⟩, .inl (by decide +kernel)⟩
  rw [text] at isNumber
  have literal := isNumber.2 (.inr misread)
  refine ⟨text, misread, fun numeral => (texts _).2 ⟨numeral, misread⟩, ?_, ?_⟩
  · rw [← literal]
    exact inTypes ⟨2⟩ [] .literal (.literal rfl rfl)
  · rw [← literal]
    exact asValue

/-- A sign before an identifier, and a sign before another sign, are number literals in the place of
a type and as an initializer, though neither is a sign before a numeral. -/
theorem pseudonumerals_shown :
    let scope : Scope := { file := ⟨0⟩, source := signedFile }
    let resolver := Resolver.remembering {} "/project" []
    (¬SignedNumeral "-Infinity".toList ∧ isSignedNumber "-Infinity".toList = true ∧
        (resolver.type scope ⟨2⟩ {}).1 = .numberLiteral "-Infinity" ∧
        (resolver.expression (resolver.type scope) scope ⟨0⟩ {}).1 =
          .numberLiteral "-Infinity") ∧
      ¬SignedNumeral "- -1".toList ∧ isSignedNumber "- -1".toList = true ∧
        (resolver.type scope ⟨3⟩ {}).1 = .numberLiteral "- -1" ∧
        (resolver.expression (resolver.type scope) scope ⟨1⟩ {}).1 = .numberLiteral "- -1" := by
  intro scope resolver
  have infinity : Signed "-Infinity".toList "Infinity".toList :=
    ⟨'-', [], .inr rfl, by simp, by decide +kernel⟩
  have negative : Signed "- -1".toList "-1".toList :=
    ⟨'-', [' '], .inr rfl, List.forall_mem_singleton.2 rfl, by decide +kernel⟩
  have infinityType : signedType (scope.source.nodeText ⟨0⟩) = .numberLiteral "-Infinity" := by
    have text : scope.source.nodeText ⟨0⟩ = "-Infinity" := by decide +kernel
    rw [text, signedType, if_pos (by decide +kernel)]
  have negativeType : signedType (scope.source.nodeText ⟨1⟩) = .numberLiteral "- -1" := by
    have text : scope.source.nodeText ⟨1⟩ = "- -1" := by decide +kernel
    rw [text, signedType, if_pos (by decide +kernel)]
  have firstIs : scope.source.arena.kind? ⟨0⟩ = some .prefixUnaryExpression := rfl
  have secondIs : scope.source.arena.kind? ⟨1⟩ = some .prefixUnaryExpression := rfl
  have bare : scope.source.Unwraps ⟨1⟩ [] .type ⟨1⟩ := by
    refine .here fun node found => ?_
    cases found
    exact ⟨rfl, rfl⟩
  refine ⟨⟨?_, by decide +kernel, ?_, ?_⟩, ?_, by decide +kernel, ?_, ?_⟩
  · rw [infinity.signedNumeral_iff (Text.isNumber_solid (by decide +kernel))]
    decide +kernel
  · exact (resolver.type_signed firstIs (Nat.le_refl _) (.literal rfl rfl) {}).trans infinityType
  · exact (resolver.expression_signed _ firstIs {}).trans infinityType
  · rw [negative.signedNumeral_iff (Text.isNumber_solid (by decide +kernel))]
    decide +kernel
  · exact (resolver.type_signed secondIs (Nat.le_refl _) (.parenthesized rfl rfl bare) {}).trans
      negativeType
  · exact (resolver.expression_signed _ secondIs {}).trans negativeType

end Resolver

end ApiDocs
