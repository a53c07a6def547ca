import ApiDocs.Proofs.Resolve.Memory

/-!
# One memory behind all questions

A resolver is asked many questions, and the index behind it keeps what it derived for any of them in
one memory.  Later questions find the traces of earlier ones there.  This module shows that they
cannot tell: in a **session** of any questions, each is answered as if it were the only one.

## Main definitions

* `Question` — what a resolver and its index can be asked.
* `Resolver.ask` — the answer to a question, of a type that the question decides.
* `Resolver.askAll` — a session: questions that share the memory of one index.

## Main statements

* `agrees_ask` — one question: the answer is the derived one, and the memory still recalls.
* `agrees_askAll` — a session, by induction on its questions.
* `memory_invisible` — sessions and extractions do not depend on the memory.

## Design notes

**Look-ups are questions too.**  The two look-ups of the index are the only steps that write to the
memory.  As each of them is a question of its own, and a session may end after any question, what is
said about the memory at the end of every session is said about it at any time.
-/

namespace ApiDocs

open ReferenceIndex (Agrees Recalls recalls_empty agrees_bySymbol agrees_byName)

/-- A question that a resolver or its index can be asked. -/
inductive Question where
  /-- A look-up of the index by symbol. -/
  | bySymbol (id : SymbolId)
  /-- A look-up of the index by name, with the qualifier that was written, if any. -/
  | byName (name : String) (qualifier : Option String)
  /-- The reference of a symbol; the name as it was written is the fallback. -/
  | symbol (id : SymbolId) (written : String)
  | typeName (scope : Scope) (index : NodeIndex)
  | heritage (scope : Scope) (index : NodeIndex)
  | type (scope : Scope) (index : NodeIndex)
  | optionalType (scope : Scope) (index : NodeIndex)
  | typeList (scope : Scope) (list : Option NodeList)
  | expression (scope : Scope) (index : NodeIndex)
  | parameter (scope : Scope) (index : NodeIndex)
  | parameters (scope : Scope) (list : NodeList)
  | typeParameters (scope : Scope) (list : Option NodeList)
  | result (scope : Scope) (declaration typeNode : NodeIndex)
  | signature (scope : Scope) (index : NodeIndex)
  | member (scope : Scope) (index : NodeIndex)
  | members (scope : Scope) (list : NodeList)
  | doc (scope : Scope) (index : NodeIndex)
  | docs (scope : Scope) (index : NodeIndex)
  /-- What the first pass learns from a statement. -/
  | skeleton (scope : Scope) (statement : NodeIndex)
  /-- What the second pass learns from a statement. -/
  | contribution (scope : Scope) (statement : NodeIndex)

/-- What a question is answered with. -/
def Question.Answer : Question → Type
  | .bySymbol .. => Option Reference
  | .byName .. => Option Reference
  | .symbol .. => Reference
  | .typeName .. => Reference
  | .heritage .. => TypeReference
  | .type .. => Ty
  | .optionalType .. => Option Ty
  | .typeList .. => List Ty
  | .expression .. => Ty
  | .parameter .. => Option (Parameter Ty)
  | .parameters .. => List (Parameter Ty)
  | .typeParameters .. => List (TypeParameter Ty)
  | .result .. => Option Ty
  | .signature .. => Option FunctionSignature
  | .member .. => Option (Member Ty)
  | .members .. => List (Member Ty)
  | .doc .. => Option Doc
  | .docs .. => List Doc
  | .skeleton .. => Option Skeleton
  | .contribution .. => Option Contribution

/-- A question together with its answer. -/
abbrev Question.Answered := Sigma Question.Answer

namespace Resolver

section

variable {m : Type → Type} [Monad m]

/-- The answer to a question. -/
def ask (resolver : Resolver m) : (question : Question) → m question.Answer
  | .bySymbol id => resolver.index.bySymbol id
  | .byName name qualifier => resolver.index.byName name qualifier
  | .symbol id written => resolver.symbolReference id written
  | .typeName scope index => resolver.typeName scope index
  | .heritage scope index => resolver.heritage (resolver.type scope) scope index
  | .type scope index => resolver.type scope index
  | .optionalType scope index => Resolver.optionalType (resolver.type scope) index
  | .typeList scope list => Resolver.typeList (resolver.type scope) list
  | .expression scope index => resolver.expression (resolver.type scope) scope index
  | .parameter scope index => resolver.parameter? (resolver.type scope) scope index
  | .parameters scope list => resolver.parameters (resolver.type scope) scope list
  | .typeParameters scope list => Resolver.typeParameters (resolver.type scope) scope list
  | .result scope declaration typeNode =>
    resolver.resultType? (resolver.type scope) scope declaration typeNode
  | .signature scope index => resolver.signature? (resolver.type scope) scope index
  | .member scope index => resolver.member? (resolver.type scope) scope index
  | .members scope list => resolver.members (resolver.type scope) scope list
  | .doc scope index => Resolver.doc? (resolver.type scope) scope index
  | .docs scope index => Resolver.docs (resolver.type scope) scope index
  | .skeleton scope statement => resolver.skeleton? scope statement
  | .contribution scope statement => resolver.contribution? scope statement

/-- A session: the answers to a list of questions, each asked after those before it. -/
def askAll (resolver : Resolver m) : List Question → m (List Question.Answered)
  | [] => pure []
  | question :: questions => do
    let answer ← resolver.ask question
    let others ← resolver.askAll questions
    pure (⟨question, answer⟩ :: others)

end

variable (program : Program) (base : String) (builtins : List String)

/-! ## Questions -/

theorem agrees_docs (scope : Scope) (index : NodeIndex) :
    Agrees program base
      (docs ((remembering program base builtins).type scope) scope index)
      (docs ((direct program base builtins).type scope) scope index) :=
  .mapM (agrees_docBlock (agrees_type program base builtins scope)) (scope.source.comments index)

/-- One question: from a memory of derived answers, the answer is the derived one, and the memory
that is left behind holds derived answers only. -/
theorem agrees_ask (question : Question) :
    Agrees program base ((remembering program base builtins).ask question)
      ((direct program base builtins).ask question) := by
  have type := agrees_type program base builtins
  cases question with
  | bySymbol id => exact agrees_bySymbol program base builtins id
  | byName name qualifier => exact agrees_byName program base builtins name qualifier
  | symbol id written => exact agrees_symbolReference program base builtins id written
  | typeName scope index => exact agrees_typeName program base builtins scope index
  | heritage scope index => exact agrees_heritage (type scope) scope index
  | type scope index => exact type scope index
  | optionalType scope index => exact agrees_optionalType (type scope) index
  | typeList scope list => exact agrees_typeList (type scope) list
  | expression scope index => exact agrees_expression (type scope) scope index
  | parameter scope index => exact agrees_parameter? (type scope) scope index
  | parameters scope list => exact agrees_parameters (type scope) scope list
  | typeParameters scope list => exact agrees_typeParameters (type scope) scope list
  | result scope declaration typeNode =>
      exact agrees_resultType? (type scope) scope declaration typeNode
  | signature scope index => exact agrees_signature? (type scope) scope index
  | member scope index => exact agrees_member? (type scope) scope index
  | members scope list => exact agrees_members (type scope) scope list
  | doc scope index => exact agrees_doc? (type scope) scope index
  | docs scope index => exact agrees_docs program base builtins scope index
  | skeleton scope statement => exact agrees_skeleton? program base builtins scope statement
  | contribution scope statement =>
      exact agrees_contribution? program base builtins scope statement

/-! ## Sessions -/

/-- A session: what one question leaves behind is what the next one may start from. -/
theorem agrees_askAll (questions : List Question) :
    Agrees program base ((remembering program base builtins).askAll questions)
      ((direct program base builtins).askAll questions) := by
  induction questions with
  | nil => exact .pure []
  | cons question questions ih =>
      refine (agrees_ask program base builtins question).bind fun answer => ?_
      exact ih.bind fun others => .pure _

/-- Without a memory, the questions of a session have nothing to do with each other. -/
theorem askAll_direct (questions : List Question) :
    ((direct program base builtins).askAll questions).run =
      questions.map fun question =>
        ⟨question, ((direct program base builtins).ask question).run⟩ := by
  induction questions with
  | nil => rfl
  | cons question questions ih =>
      rw [List.map_cons, ← ih]
      rfl

/-- An answer from an empty memory is the derived one. -/
theorem ask_fresh (question : Question) :
    ((remembering program base builtins).ask question {}).1 =
      ((direct program base builtins).ask question).run :=
  (agrees_ask program base builtins question {} (recalls_empty program base)).1

end Resolver

/-- **The memory of the index is invisible.**  In a session of any questions over one memory, each
question is answered as with a fresh and empty memory, and as with no memory at all; the memory maps
a symbol only to what is derived for it.  The documentation of any files, and of a whole program, is
that of an extraction which derives every answer. -/
theorem memory_invisible (program : Program) (settings : Settings) :
    let base := settings.baseDirectory
    let resolver := Resolver.remembering program base settings.builtins
    (∀ questions : List Question,
      (resolver.askAll questions {}).1 =
          (questions.map fun question => ⟨question, (resolver.ask question {}).1⟩) ∧
        (resolver.askAll questions {}).1 =
          ((Resolver.direct program base settings.builtins).askAll questions).run ∧
        ∀ id answer, (resolver.askAll questions {}).2.find? id = some answer →
          answer = program.locate? base id) ∧
      (∀ files : List FileId,
        extractFiles program settings files =
          ((Extraction.direct program settings).run files).run) ∧
      extract program settings =
        ((Extraction.direct program settings).run program.fileIds).run := by
  intro base resolver
  refine ⟨fun questions => ?_, extractFiles_eq_direct program settings,
    extractFiles_eq_direct program settings program.fileIds⟩
  obtain ⟨answers, recalls⟩ := Resolver.agrees_askAll program base settings.builtins questions {}
    (recalls_empty program base)
  refine ⟨?_, answers, recalls⟩
  calc (resolver.askAll questions {}).1
    _ = ((Resolver.direct program base settings.builtins).askAll questions).run := answers
    _ = _ := Resolver.askAll_direct program base settings.builtins questions
    _ = _ := List.map_congr_left fun question _ => by
      rw [Resolver.ask_fresh]

/-- A program with a class from outside and a type parameter. -/
def libraryProgram : Program where
  files := #[]
  symbols := #[
    { name := "Shape", flags := Flag.classType, specifier := some "shapes" },
    { name := "T", flags := Flag.typeParameter }]

/-- The class is looked up by name and then found in the memory, the type parameter is remembered as
not listed, and the last question is answered as if it had been the first. -/
theorem memory_invisible_library :
    let resolver := Resolver.remembering libraryProgram "" []
    let shape := Reference.declaration ⟨"Shape", ["shapes"], true, some .classType⟩
    let session := resolver.askAll
      [.byName "Shape" none, .bySymbol ⟨1⟩, .bySymbol ⟨1⟩, .symbol ⟨0⟩ "S"] {}
    session.1 = [⟨.byName "Shape" none, some shape⟩, ⟨.bySymbol ⟨1⟩, none⟩,
        ⟨.bySymbol ⟨1⟩, none⟩, ⟨.symbol ⟨0⟩ "S", shape⟩] ∧
      session.2.find? ⟨0⟩ = some (some shape) ∧ session.2.find? ⟨1⟩ = some none ∧
      libraryProgram.locate? "" ⟨0⟩ = some shape := by
  intro resolver shape session
  obtain ⟨sessions, -⟩ := memory_invisible libraryProgram { baseDirectory := "", builtins := [] }
  obtain ⟨answers, -, recalls⟩ := sessions
    [.byName "Shape" none, .bySymbol ⟨1⟩, .bySymbol ⟨1⟩, .symbol ⟨0⟩ "S"]
  have remembered : session.2.find? ⟨0⟩ = some (some shape) := by decide +kernel
  refine ⟨answers.trans ?_, remembered, by decide +kernel, (recalls ⟨0⟩ _ remembered).symm⟩
  rfl

end ApiDocs
