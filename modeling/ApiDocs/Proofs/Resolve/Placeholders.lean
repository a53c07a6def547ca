import ApiDocs.Proofs.Resolve.Soundness

/-!
# Placeholders of the checker

Where the checker cannot resolve a name, it may bind the name to a **placeholder**: a symbol that is
no declaration, with a name of its own such as `unknown`.  A reference should then follow the
writing.  Either the index knows the name with its qualifier, or the reference shows the name as it
stands in the source.

A name becomes a reference in four positions, and they do not treat placeholders alike.  In a type
and in a dotted base name, a placeholder is passed over.  After `new`, in the access to a member of
a module and in a plain base name, it is followed like any other symbol, and its own name shows.

## Main definitions

* `NamePosition`, `Resolver.nameIn` — the four positions, and the reference of a name in each.
* `Resolver.FollowsWriting` — a reference that follows the writing of a name.
* `NamePosition.PassesOver` — the positions that pass a placeholder over.
* `Symbol.Traceless` — a symbol that does not show even where it is followed.

## Main statements

* `nameIn_passesOver`, `nameIn_followed` — what each position makes of a placeholder.
* `followsWriting_symbolReference_iff` — when a placeholder that is followed does not show.
* `placeholders_follow_writing_iff` — the references of placeholders that follow the writing.
-/

namespace ApiDocs

/-! ## Positions -/

/-- A position in which a name becomes a reference. -/
inductive NamePosition where
  /-- The name of a type. -/
  | typeName
  /-- The name of a base type. -/
  | baseName
  /-- The name of the class after `new`. -/
  | construction
  /-- A name that stands for a member of a module or namespace. -/
  | moduleMember

/-- Whether a node is a dotted name. -/
def Scope.IsDotted (scope : Scope) (index : NodeIndex) : Prop :=
  scope.source.arena.kind? index = some .propertyAccessExpression ∨
    scope.source.arena.kind? index = some .qualifiedName

/-- Whether a node is a name, plain or dotted. -/
def Scope.IsName (scope : Scope) (index : NodeIndex) : Prop :=
  scope.source.arena.kind? index = some .identifier ∨ scope.IsDotted index

/-- Whether a position passes placeholders over. -/
def NamePosition.PassesOver (scope : Scope) (index : NodeIndex) : NamePosition → Prop
  | typeName => True
  | baseName => scope.IsDotted index
  | construction => False
  | moduleMember => False

/-- Whether a name can stand in a position: what stands for a member of a module is an access to a
module. -/
def NamePosition.Admits (program : Program) (scope : Scope) (index : NodeIndex) :
    NamePosition → Prop
  | moduleMember => ∃ expression name left symbol,
      scope.source.arena.payload? index = some (.access expression name) ∧
        program.symbolAt? scope.file expression = some left ∧
        program.symbol? left = some symbol ∧ symbol.hasAny Flag.module = true
  | _ => True

/-- A symbol that does not show in the reference of a name, even if it is followed.  What poses as a
member of an enum must not be in a listed one; any other symbol must have no name, or the name as it
was written. -/
def Symbol.Traceless (symbol : Symbol) (program : Program) (base text : String) : Prop :=
  if symbol.hasAny Flag.enumMember && !symbol.hasAny Flag.typeParameter then
    symbol.parent.bind (program.locate? base ·) = none
  else symbol.name = "" ∨ symbol.name = text

namespace Resolver

/-- The reference of a name in a position; none for what is no access to a module. -/
def nameIn {m : Type → Type} [Monad m] (resolver : Resolver m) (scope : Scope)
    (index : NodeIndex) : NamePosition → m (Option Reference)
  | .typeName => some <$> resolver.typeName scope index
  | .baseName => some <$> resolver.heritageName scope index
  | .construction => some <$> resolver.valueName scope index
  | .moduleMember => resolver.moduleAccess? scope index

/-- A reference follows the writing of a name: it is what the index knows about the name with its
qualifier, or it shows the name as it was written. -/
def FollowsWriting (resolver : Resolver Id) (text : String) (reference : Reference) : Prop :=
  (resolver.qualifiedName? text).run = some reference ∨ reference = .builtin text ∨
    reference = .written text

variable (program : Program) (base : String) (builtins : List String)

theorem agrees_nameIn (scope : Scope) (index : NodeIndex) (position : NamePosition) :
    ReferenceIndex.Agrees program base
      ((remembering program base builtins).nameIn scope index position)
      ((direct program base builtins).nameIn scope index position) := by
  cases position with
  | typeName => exact (agrees_typeName program base builtins scope index).map some
  | baseName => exact (agrees_heritageName program base builtins scope index).map some
  | construction => exact (agrees_valueName program base builtins scope index).map some
  | moduleMember => exact agrees_moduleAccess? program base builtins scope index

/-! ## What follows the writing -/

variable {program base builtins}

/-- What the index knows about a name is a declaration. -/
theorem declaration_of_qualifiedName? {dotted : String} {reference : Reference}
    (known : ((direct program base builtins).qualifiedName? dotted).run = some reference) :
    ∃ target, reference = .declaration target := by
  rw [qualifiedName?] at known
  split at known
  · obtain ⟨id, -, located⟩ := Option.bind_eq_some_iff.1 known
    obtain ⟨symbol, target, -, isDeclaration, -⟩ := Program.locate?_describes located
    exact ⟨target, isDeclaration⟩
  · cases known

/-- A name that is shown follows the writing only if it is the written one. -/
theorem followsWriting_written_iff {text name : String} :
    (direct program base builtins).FollowsWriting text (.written name) ↔ name = text := by
  constructor
  · rintro (known | isBuiltin | isWritten)
    · obtain ⟨target, isDeclaration⟩ := declaration_of_qualifiedName? known
      cases isDeclaration
    · cases isBuiltin
    · exact Reference.written.inj isWritten
  · rintro rfl
    exact .inr (.inr rfl)

/-- A member of an enum does not follow the writing. -/
theorem not_followsWriting_enumMember {text member : String} {owner : Reference} :
    ¬ (direct program base builtins).FollowsWriting text (.enumMember owner member) := by
  rintro (known | isBuiltin | isWritten)
  · obtain ⟨target, isDeclaration⟩ := declaration_of_qualifiedName? known
    cases isDeclaration
  · cases isBuiltin
  · cases isWritten

theorem followsWriting_unresolved (text : String) :
    (direct program base builtins).FollowsWriting text
      ((direct program base builtins).unresolved text) := by
  rw [unresolved]
  split
  · exact .inr (.inl rfl)
  · exact .inr (.inr rfl)

/-- To ask the index for the written name and to show something that follows the writing otherwise
is to follow the writing. -/
theorem followsWriting_getD {text : String} {otherwise : Reference}
    (follows : (direct program base builtins).FollowsWriting text otherwise) :
    (direct program base builtins).FollowsWriting text
      (((direct program base builtins).qualifiedName? text).run.getD otherwise) := by
  cases known : ((direct program base builtins).qualifiedName? text).run with
  | none => exact follows
  | some reference => exact .inl known

/-! ## Placeholders -/

/-- The index lists no placeholder. -/
theorem locate?_placeholder {id : SymbolId} {symbol : Symbol}
    (found : program.symbol? id = some symbol)
    (placeholder : symbol.hasAny Flag.internal = true) : program.locate? base id = none := by
  rw [Option.eq_none_iff_forall_ne_some]
  intro reference located
  obtain ⟨other, target, isOther, -, describes⟩ := Program.locate?_describes located
  obtain rfl : symbol = other := Option.some.inj (found.symm.trans isOther)
  cases placeholder.symm.trans describes.noPlaceholder

/-- What is shown for a placeholder that is followed: the index does not list it, so its own name
shows, if it has one.  Only what poses as a member of an enum is still looked up, by its enum. -/
theorem symbolReference_placeholder {id : SymbolId} {symbol : Symbol} {text : String}
    (found : program.symbol? id = some symbol)
    (placeholder : symbol.hasAny Flag.internal = true) :
    ((direct program base builtins).symbolReference id text).run =
      let name := if symbol.name = "" then text else symbol.name
      if symbol.hasAny Flag.enumMember && !symbol.hasAny Flag.typeParameter then
        ((symbol.parent.bind (program.locate? base ·)).map (.enumMember · name)).getD
          (.written text)
      else .written name := by
  have found' : (direct program base builtins).program.symbol? id = some symbol := found
  have unlisted : ((direct program base builtins).index.bySymbol id).run = none :=
    locate?_placeholder found placeholder
  simp only [symbolReference, found']
  cases symbol.hasAny Flag.typeParameter with
  | true => simp
  | false =>
      cases symbol.hasAny Flag.enumMember with
      | false => simp [unlisted]
      | true =>
          cases symbol.parent with
          | none => rfl
          | some parent =>
              have asked : ((direct program base builtins).index.bySymbol parent).run =
                  program.locate? base parent := rfl
              cases owner : program.locate? base parent <;> simp [asked, owner]

/-- A placeholder that is followed does not show exactly if it is traceless. -/
theorem followsWriting_symbolReference_iff {id : SymbolId} {symbol : Symbol} {text : String}
    (found : program.symbol? id = some symbol)
    (placeholder : symbol.hasAny Flag.internal = true) :
    (direct program base builtins).FollowsWriting text
        ((direct program base builtins).symbolReference id text).run ↔
      symbol.Traceless program base text := by
  rw [symbolReference_placeholder found placeholder, Symbol.Traceless]
  by_cases poses : (symbol.hasAny Flag.enumMember && !symbol.hasAny Flag.typeParameter) = true
  · simp only [if_pos poses]
    cases symbol.parent.bind (program.locate? base ·) with
    | none => exact iff_of_true (followsWriting_written_iff.2 rfl) rfl
    | some owner => exact iff_of_false not_followsWriting_enumMember (Option.some_ne_none owner)
  · simp only [if_neg poses]
    refine followsWriting_written_iff.trans ?_
    by_cases unnamed : symbol.name = ""
    · simp [unnamed]
    · simp [unnamed]

/-- In a position that passes placeholders over, the name of one follows the writing. -/
theorem nameIn_passesOver {scope : Scope} {index : NodeIndex} {position : NamePosition}
    {id : SymbolId} (bound : (direct program base builtins).symbolAt? scope index = some id)
    (placeholder : (direct program base builtins).isInternal id = true)
    (passes : position.PassesOver scope index) :
    ∃ reference, ((direct program base builtins).nameIn scope index position).run =
        some reference ∧
      (direct program base builtins).FollowsWriting
        ((direct program base builtins).entityName scope index) reference := by
  cases position with
  | typeName =>
      refine ⟨_, rfl, ?_⟩
      rw [typeName]
      simp only [bound, placeholder, if_true]
      exact followsWriting_getD (followsWriting_unresolved _)
  | baseName =>
      have dotted : (direct program base builtins).heritageName scope index =
          (direct program base builtins).dottedHeritageName scope index := by
        rcases passes with access | qualified
        · simp only [heritageName, access]
        · simp only [heritageName, qualified]
      have passed : ((direct program base builtins).symbolAt? scope index).filter
          (!(direct program base builtins).isInternal ·) = none := by
        simp [bound, placeholder]
      refine ⟨_, rfl, ?_⟩
      rw [dotted, dottedHeritageName, passed]
      exact followsWriting_getD (followsWriting_written_iff.2 rfl)
  | construction => exact passes.elim
  | moduleMember => exact passes.elim

/-- In any other position, the symbol of a name is followed. -/
theorem nameIn_followed {scope : Scope} {index : NodeIndex} {position : NamePosition}
    {id : SymbolId} (bound : (direct program base builtins).symbolAt? scope index = some id)
    (isName : scope.IsName index) (admits : position.Admits program scope index)
    (follows : ¬ position.PassesOver scope index) :
    ((direct program base builtins).nameIn scope index position).run =
      some ((direct program base builtins).symbolReference id
        ((direct program base builtins).entityName scope index)).run := by
  have value : (direct program base builtins).valueName scope index =
      (direct program base builtins).symbolReference id
        ((direct program base builtins).entityName scope index) := by
    simp only [valueName, bound]
  cases position with
  | typeName => exact (follows trivial).elim
  | baseName =>
      have plain : scope.source.arena.kind? index = some .identifier :=
        isName.resolve_right follows
      have same : (direct program base builtins).heritageName scope index =
          (direct program base builtins).valueName scope index := by
        simp only [heritageName, plain]
      show some ((direct program base builtins).heritageName scope index).run = _
      rw [same, value]
  | construction =>
      show some ((direct program base builtins).valueName scope index).run = _
      rw [value]
  | moduleMember =>
      obtain ⟨expression, name, left, module, payload, leftBound, isModule, flagged⟩ := admits
      have leftBound' :
          (direct program base builtins).program.symbolAt? scope.file expression = some left :=
        leftBound
      have isModule' : (direct program base builtins).program.symbol? left = some module := isModule
      have accesses : (direct program base builtins).accessesModule scope expression = true := by
        simp only [accessesModule, leftBound', isModule', Option.any_some, flagged]
      show ((direct program base builtins).moduleAccess? scope index).run = _
      simp only [moduleAccess?, payload, accesses, bound, if_true]
      rfl

end Resolver

/-- **Which references of placeholders follow the writing.**  Let a name be bound to a placeholder,
and let the memory of the index be any that look-ups lead to.  In each of the four positions the
name gets a reference.  It follows the writing if the position passes placeholders over; in any
other position it follows the writing exactly if the placeholder is traceless. -/
theorem placeholders_follow_writing_iff (program : Program) (base : String)
    (builtins : List String) {memory : ReferenceIndex.Memory}
    (reached : ReferenceIndex.Reached program base builtins memory) {scope : Scope}
    {index : NodeIndex} {id : SymbolId} {symbol : Symbol}
    (bound : (Resolver.direct program base builtins).symbolAt? scope index = some id)
    (found : program.symbol? id = some symbol)
    (placeholder : symbol.hasAny Flag.internal = true) (isName : scope.IsName index)
    (position : NamePosition) (admits : position.Admits program scope index) :
    let resolver := Resolver.remembering program base builtins
    let text := resolver.entityName scope index
    ∃ reference, (resolver.nameIn scope index position memory).1 = some reference ∧
      ((Resolver.direct program base builtins).FollowsWriting text reference ↔
        position.PassesOver scope index ∨ symbol.Traceless program base text) := by
  intro resolver text
  rw [(Resolver.agrees_nameIn program base builtins scope index position memory
    reached.recalls).1]
  by_cases passes : position.PassesOver scope index
  · have internal : (Resolver.direct program base builtins).isInternal id = true := by
      simp only [Resolver.isInternal, Resolver.direct, found, Option.any_some, placeholder]
    obtain ⟨reference, answers, follows⟩ := Resolver.nameIn_passesOver bound internal passes
    exact ⟨reference, answers, iff_of_true follows (.inl passes)⟩
  · refine ⟨_, Resolver.nameIn_followed bound isName admits passes, ?_⟩
    exact (Resolver.followsWriting_symbolReference_iff found placeholder).trans
      (or_iff_right passes).symm

/-- A file in which `N.Base` is the type of a variable, stands after `new` and stands alone, and
`Base` is extended. -/
def placeholderFile : SourceFile where
  path := "/project/a.ts"
  text := "let v: N.Base = new N.Base(), w = N.Base; class A extends Base { }"
  arena.nodes :=
    #[{ kind := .identifier, start := 7, stop := 8, payload := .identifier "N" },
      { kind := .identifier, start := 9, stop := 13, payload := .identifier "Base" },
      { kind := .qualifiedName, start := 7, stop := 13, payload := .qualifiedName ⟨0⟩ ⟨1⟩ },
      { kind := .typeReference, start := 7, stop := 13, payload := .typeReference ⟨2⟩ none },
      { kind := .identifier, start := 20, stop := 21, payload := .identifier "N" },
      { kind := .identifier, start := 22, stop := 26, payload := .identifier "Base" },
      { kind := .propertyAccessExpression, start := 20, stop := 26, payload := .access ⟨4⟩ ⟨5⟩ },
      { kind := .newExpression, start := 16, stop := 28, payload := .call ⟨⟨6⟩, none, some []⟩ },
      { kind := .identifier, start := 34, stop := 35, payload := .identifier "N" },
      { kind := .identifier, start := 36, stop := 40, payload := .identifier "Base" },
      { kind := .propertyAccessExpression, start := 34, stop := 40, payload := .access ⟨8⟩ ⟨9⟩ },
      { kind := .identifier, start := 58, stop := 62, payload := .identifier "Base" },
      { kind := .expressionWithTypeArguments, start := 58, stop := 62
        payload := .heritageEntry ⟨11⟩ none }]
  commentMap := .empty

/-- The program with that file.  The class `Base` of the namespace `N` comes from another package,
and the checker has bound every name of the class to a placeholder. -/
def placeholderProgram : Program where
  files := #[placeholderFile]
  symbols := #[
    { name := "N", flags := Flag.module, specifier := some "shapes" },
    { name := "Base", flags := Flag.classType, parent := some ⟨0⟩, specifier := some "shapes" },
    { name := "unknown", flags := Flag.internal }]
  bindings := #[
    { symbols := .ofList
        [(0, ⟨0⟩), (2, ⟨2⟩), (4, ⟨0⟩), (6, ⟨2⟩), (8, ⟨0⟩), (10, ⟨2⟩), (11, ⟨2⟩)]
      signatures := .empty }]

/-- The type follows the writing, to the class in its namespace.  The name after `new` does not,
because the name of the placeholder is another one. -/
theorem placeholders_follow_writing_iff_new :
    let resolver := Resolver.remembering placeholderProgram "/project" []
    let scope : Scope := { file := ⟨0⟩, source := placeholderFile }
    let follows := (Resolver.direct placeholderProgram "/project" []).FollowsWriting "N.Base"
    (∃ reference, (resolver.nameIn scope ⟨2⟩ .typeName {}).1 = some reference ∧
        follows reference) ∧
      ∃ reference, (resolver.nameIn scope ⟨6⟩ .construction {}).1 = some reference ∧
        ¬ follows reference := by
  intro resolver scope follows
  let unknown : Symbol := { name := "unknown", flags := Flag.internal }
  have text : resolver.entityName scope ⟨6⟩ = "N.Base" := by decide +kernel
  have shows : ¬ unknown.Traceless placeholderProgram "/project"
      (resolver.entityName scope ⟨6⟩) := by
    have noMember : unknown.hasAny Flag.enumMember = false := by decide
    simp [Symbol.Traceless, noMember, text, unknown]
  have inType : (Resolver.direct placeholderProgram "/project" []).symbolAt? scope ⟨2⟩ =
      some ⟨2⟩ := by decide +kernel
  have afterNew : (Resolver.direct placeholderProgram "/project" []).symbolAt? scope ⟨6⟩ =
      some ⟨2⟩ := by decide +kernel
  obtain ⟨typed, isTyped, typedIff⟩ := placeholders_follow_writing_iff placeholderProgram "/project"
    [] .empty inType (show _ = some unknown from rfl) (by decide) (.inr (.inr rfl)) .typeName
    trivial
  obtain ⟨made, isMade, madeIff⟩ := placeholders_follow_writing_iff placeholderProgram "/project"
    [] .empty afterNew (show _ = some unknown from rfl) (by decide) (.inr (.inl rfl)) .construction
    trivial
  refine ⟨⟨typed, isTyped, typedIff.2 (.inl trivial)⟩, made, isMade, fun followed => ?_⟩
  exact (madeIff.1 (text ▸ followed)).elim id shows

/-- The name of a placeholder shows: after `new`, in an access to a module and in a plain base name,
though the type with the same name leads to the class. -/
theorem placeholder_shown :
    let resolver := Resolver.remembering placeholderProgram "/project" []
    let scope : Scope := { file := ⟨0⟩, source := placeholderFile }
    [⟨2⟩, ⟨6⟩, ⟨10⟩, ⟨11⟩].map (resolver.symbolAt? scope) = List.replicate 4 (some ⟨2⟩) ∧
      resolver.isInternal ⟨2⟩ = true ∧
      (resolver.type scope ⟨3⟩ {}).1.target? =
        some (.declaration ⟨"Base", ["shapes"], true, some .classType⟩) ∧
      (resolver.expression (resolver.type scope) scope ⟨7⟩ {}).1.target? =
        some (.written "unknown") ∧
      (resolver.expression (resolver.type scope) scope ⟨10⟩ {}).1.target? =
        some (.written "unknown") ∧
      (resolver.heritage (resolver.type scope) scope ⟨12⟩ {}).1.target = .written "unknown" ∧
      ¬ (Resolver.direct placeholderProgram "/project" []).FollowsWriting "N.Base"
        (.written "unknown") ∧
      ¬ (Resolver.direct placeholderProgram "/project" []).FollowsWriting "Base"
        (.written "unknown") := by
  intro resolver scope
  refine ⟨by decide +kernel, by decide +kernel, by decide +kernel, by decide +kernel,
    by decide +kernel, by decide +kernel, ?_, ?_⟩
  · rw [Resolver.followsWriting_written_iff]
    decide
  · rw [Resolver.followsWriting_written_iff]
    decide

end ApiDocs
