import ApiDocs.Proofs.Extract.Frame
import ApiDocs.Proofs.Text.Lines

/-!
# Excerpts are cut once

The content of a constant is an excerpt of its initializer: a text of more than 256 characters is
cut behind the first 256, and a mark shows the cut.  A text that was cut is longer than the limit
itself, so it is cut again whenever an excerpt of it is made.  It survives, because **what is cut
off is the mark, and the same mark takes its place**.

## Main statements

* `excerpt_eq_self_iff` — a text is its own excerpt if it is short, or if it ends in a mark just
  behind the limit.
* `exists_cut` — the excerpt of a longer text is its beginning, cut between two characters, with the
  mark behind it.
* `excerpt_excerpt` — an excerpt is its own excerpt.
* `contribution?_excerpts`, `make_excerpted` — all constants that an extraction files are excerpts.
* `excerpts_cut_once` — the law of excerpts, and the content of every extracted constant.
-/

namespace ApiDocs

open MonadAttach (CanReturn)

/-! ## Texts -/

namespace Text

theorem toList_excerpt (text : String) : (excerpt text).toList = excerptChars text.toList :=
  String.toList_ofList

/-- A text is short, or it can be cut behind the characters that an excerpt keeps. -/
theorem short_or_exists_append (text : List Char) :
    text.length ≤ excerptLength ∨
      ∃ front back, text = front ++ back ∧ front.length = excerptLength ∧ back ≠ [] := by
  rcases Nat.lt_or_ge excerptLength text.length with long | short
  · refine .inr ⟨text.take excerptLength, text.drop excerptLength,
      (List.take_append_drop _ _).symm, List.length_take_of_le (Nat.le_of_lt long), ?_⟩
    simpa using long
  · exact .inl short

theorem excerptChars_excerptChars (text : List Char) :
    excerptChars (excerptChars text) = excerptChars text := by
  rcases short_or_exists_append text with short | ⟨front, back, rfl, full, goesOn⟩
  · rw [excerptChars_of_le short, excerptChars_of_le short]
  · -- What is cut off the second time is the mark of the first time.
    rw [excerptChars_append full goesOn, excerptChars_append full (by decide)]

theorem excerptChars_eq_self_iff {text : List Char} :
    excerptChars text = text ↔
      text.length ≤ excerptLength ∨
        ∃ front, front.length = excerptLength ∧ text = front ++ excerptMark := by
  rcases short_or_exists_append text with short | ⟨front, back, rfl, full, goesOn⟩
  · simp [excerptChars_of_le short, short]
  · have positive := List.length_pos_of_ne_nil goesOn
    have long : ¬(front ++ back).length ≤ excerptLength := by
      rw [List.length_append]
      omega
    rw [excerptChars_append full goesOn, or_iff_right long]
    constructor
    · exact fun same => ⟨front, full, same.symm⟩
    · rintro ⟨other, fullOther, same⟩
      obtain ⟨rfl, rfl⟩ := List.append_inj same (full.trans fullOther.symm)
      rfl

theorem length_excerptChars_le (text : List Char) :
    (excerptChars text).length ≤ excerptLength + excerptMark.length := by
  rcases short_or_exists_append text with short | ⟨front, back, rfl, full, goesOn⟩
  · rw [excerptChars_of_le short]
    omega
  · exact Nat.le_of_eq (by rw [excerptChars_append full goesOn, List.length_append, full])

/-- **An excerpt is its own excerpt.** -/
theorem excerpt_excerpt (text : String) : excerpt (excerpt text) = excerpt text := by
  rw [excerpt, toList_excerpt, excerptChars_excerptChars, excerpt]

theorem length_excerpt_le (text : String) : (excerpt text).length ≤ 259 := by
  rw [excerpt, String.length_ofList]
  exact length_excerptChars_le text.toList

/-- **A text is its own excerpt if it is short, or if it ends in a mark just behind the limit.** -/
theorem excerpt_eq_self_iff {text : String} :
    excerpt text = text ↔
      text.length ≤ 256 ∨ ∃ front : String, front.length = 256 ∧ text = front ++ "..." := by
  rw [← String.toList_inj, toList_excerpt, excerptChars_eq_self_iff, String.length_toList]
  refine or_congr_right ⟨?_, ?_⟩
  · rintro ⟨front, full, same⟩
    refine ⟨String.ofList front, by rw [String.length_ofList, full]; rfl, ?_⟩
    rw [← String.toList_inj, same, String.toList_append, String.toList_ofList]
    rfl
  · rintro ⟨front, full, rfl⟩
    exact ⟨front.toList, by rw [String.length_toList, full]; rfl, String.toList_append⟩

/-- **A longer text is cut between two characters.**  Its first 256 characters are what lies before
the byte at which it is cut, and they are followed by the mark. -/
theorem exists_cut {text : String} (long : 256 < text.length) :
    ∃ front back : String, text = front ++ back ∧ front.length = 256 ∧
      slice text.toList 0 (byteLength front.toList) = some front.toList ∧
      excerpt text = front ++ "..." ∧ (excerpt text).length = 259 := by
  rcases short_or_exists_append text.toList with short | ⟨front, back, same, full, goesOn⟩
  · rw [String.length_toList] at short
    exact (Nat.not_lt.2 short long).elim
  · have cut : excerpt text = String.ofList front ++ "..." := by
      rw [excerpt, same, excerptChars_append full goesOn, String.ofList_append]
      rfl
    refine ⟨String.ofList front, String.ofList back, ?_, ?_, ?_, cut, ?_⟩
    · rw [← String.ofList_append, ← same, String.ofList_toList]
    · rw [String.length_ofList, full]
      rfl
    · have middle := slice_append [] front back
      simpa [same, byteLength] using middle
    · rw [cut, String.length_append, String.length_ofList, full]
      rfl

end Text

/-! ## Constants -/

section

variable {m : Type → Type} [Monad m] [LawfulMonad m] [MonadAttach m] [LawfulMonadAttach m]

/-- What is collected from a list is the answer for one of its elements. -/
theorem exists_of_mem_collectM {α β : Type} {answer? : α → m (Option β)} {list : List α} :
    ∀ {answers : List β}, CanReturn (collectM answer? list) answers → ∀ value ∈ answers,
      ∃ element, CanReturn (answer? element) (some value) := by
  induction list with
  | nil =>
      intro answers returned value member
      obtain rfl := LawfulMonadAttach.eq_of_canReturn_pure returned
      cases member
  | cons first rest ih =>
      intro answers returned value member
      obtain ⟨answer, one, returned⟩ := LawfulMonadAttach.canReturn_bind_imp' returned
      obtain ⟨others, more, returned⟩ := LawfulMonadAttach.canReturn_bind_imp' returned
      obtain rfl := LawfulMonadAttach.eq_of_canReturn_pure returned
      rcases List.mem_append.1 member with here | behind
      · rw [Option.mem_toList] at here
        exact ⟨first, here ▸ one⟩
      · exact ih more value behind

/-- The content of a constant is an excerpt. -/
def ConstantRecord.IsExcerpt (constant : ConstantRecord) : Prop :=
  ∃ text, constant.content = Text.excerpt text

namespace Resolver

variable {resolver : Resolver m} {scope : Scope} {index : NodeIndex}

theorem constant?_isExcerpt {doc : Option Doc} {constant : ConstantRecord}
    (returned : CanReturn (resolver.constant? scope doc index) (some constant)) :
    constant.IsExcerpt := by
  rw [constant?] at returned
  split at returned
  · split at returned
    · obtain ⟨type, -, returned⟩ := LawfulMonadAttach.canReturn_bind_imp' returned
      cases LawfulMonadAttach.eq_of_canReturn_pure returned
      exact ⟨_, rfl⟩
    · cases LawfulMonadAttach.eq_of_canReturn_pure returned
  · cases LawfulMonadAttach.eq_of_canReturn_pure returned

/-- The constants that a statement contributes are excerpts. -/
theorem contribution?_excerpts {records : List ConstantRecord}
    (returned : CanReturn (resolver.contribution? scope index) (some (.constants records))) :
    ∀ constant ∈ records, constant.IsExcerpt := by
  simp only [contribution?] at returned
  split at returned
  · cases LawfulMonadAttach.eq_of_canReturn_pure returned
  · -- Only a variable statement contributes constants.
    split at returned
    · obtain ⟨_, -, returned⟩ := LawfulMonadAttach.canReturn_bind_imp' returned
      obtain ⟨⟨_, _⟩, -, returned⟩ := LawfulMonadAttach.canReturn_bind_imp' returned
      obtain ⟨_, -, returned⟩ := LawfulMonadAttach.canReturn_bind_imp' returned
      cases LawfulMonadAttach.eq_of_canReturn_pure returned
    · obtain ⟨_, -, returned⟩ := LawfulMonadAttach.canReturn_bind_imp' returned
      obtain ⟨_, -, returned⟩ := LawfulMonadAttach.canReturn_bind_imp' returned
      obtain ⟨⟨_, _⟩, -, returned⟩ := LawfulMonadAttach.canReturn_bind_imp' returned
      cases LawfulMonadAttach.eq_of_canReturn_pure returned
    · obtain ⟨_, -, returned⟩ := LawfulMonadAttach.canReturn_bind_imp' returned
      obtain ⟨_, -, returned⟩ := LawfulMonadAttach.canReturn_bind_imp' returned
      cases LawfulMonadAttach.eq_of_canReturn_pure returned
    · obtain ⟨signature, -, returned⟩ := LawfulMonadAttach.canReturn_bind_imp' returned
      cases signature <;> cases LawfulMonadAttach.eq_of_canReturn_pure returned
    · split at returned
      · obtain ⟨_, -, returned⟩ := LawfulMonadAttach.canReturn_bind_imp' returned
        obtain ⟨_, collected, returned⟩ := LawfulMonadAttach.canReturn_bind_imp' returned
        cases LawfulMonadAttach.eq_of_canReturn_pure returned
        intro constant member
        obtain ⟨declarator, answered⟩ := exists_of_mem_collectM collected constant member
        exact constant?_isExcerpt answered
      · cases LawfulMonadAttach.eq_of_canReturn_pure returned
    · cases LawfulMonadAttach.eq_of_canReturn_pure returned

end Resolver

end

/-! ## Trees -/

/-- Constants that are added to a module are excerpts. -/
def Frame.excerpting : Frame where
  keeps earlier later :=
    ∀ constant ∈ later.constants, constant ∈ earlier.constants ∨ constant.IsExcerpt
  trans first second constant member := (second constant member).elim (first constant) .inr
  entering _ same constant member := by
    have sameConstants : _ = _ := congrArg DocModule.constants same
    exact .inl (sameConstants ▸ member)

/-- The constants of all modules of a tree are excerpts. -/
def ModuleTree.Excerpted (tree : ModuleTree) : Prop :=
  ∀ id module, tree.get? id = some module → ∀ constant ∈ module.constants, constant.IsExcerpt

theorem ModuleTree.Kept.excerpted {earlier later : ModuleTree}
    (kept : earlier.Kept .excerpting later) (before : earlier.Excerpted) : later.Excerpted := by
  intro id module found constant member
  cases was : earlier.get? id with
  | some old =>
      obtain ⟨_, foundAgain, keeps⟩ := kept.old was
      obtain rfl := Option.some.inj (found.symm.trans foundAgain)
      rcases keeps constant member with there | isExcerpt
      · exact before id old was constant there
      · exact isExcerpt
  | none =>
      -- A module that was created since started without constants.
      obtain ⟨blank, isBlank, keeps⟩ := kept.new was found
      have noConstants : blank.constants = [] := congrArg DocModule.constants isBlank
      rcases keeps constant member with there | isExcerpt
      · rw [noConstants] at there
        cases there
      · exact isExcerpt

namespace Extraction

variable {m : Type → Type} [Monad m] [LawfulMonad m] [MonadAttach m] [LawfulMonadAttach m]
variable {extraction : Extraction m} {tree : ModuleTree}

theorem fillsIn_excerpting (extraction : Extraction m) : extraction.FillsIn .excerpting := by
  intro scope index contribution returned module constant member
  cases contribution with
  | constants records =>
      rcases List.mem_append.1 member with old | new
      · exact .inl old
      · exact .inr (Resolver.contribution?_excerpts returned constant new)
  | _ => exact .inl member

omit [Monad m] [LawfulMonad m] [MonadAttach m] [LawfulMonadAttach m] in
theorem start_excerpted (extraction : Extraction m) : extraction.start.Excerpted := by
  intro id module found constant member
  obtain rfl : id = ModuleTree.rootId := Nat.lt_one_iff.1 (ModuleTree.lt_size_of_get? found)
  cases found
  cases member

/-- A call keeps all constants excerpts, whether it fails or not. -/
theorem make_excerpted {call : Call} {pass : Pass}
    (before : extraction.Consistent tree ∧ tree.Excerpted)
    (returned : CanReturn (extraction.make tree call) pass) :
    extraction.Consistent pass.tree ∧ pass.tree.Excerpted := by
  obtain ⟨consistent, excerpted⟩ := before
  refine ⟨make_consistent consistent returned, ?_⟩
  cases call with
  | prepare file =>
      have weaker : ∀ {earlier later : DocModule}, Frame.preparing.keeps earlier later →
          Frame.excerpting.keeps earlier later :=
        fun same constant member => .inl (same.2 ▸ member)
      exact ((make_kept consistent returned).mono weaker).excerpted excerpted
  | visit file =>
      exact (visitFile_kept extraction.fillsIn_excerpting consistent returned).excerpted excerpted

end Extraction

/-- **Excerpts are cut once.**  A text is its own excerpt exactly if it has at most 256 characters,
or 256 characters and then just the mark.  A text of more than 256 characters is cut between two
characters, behind the first 256, and the mark follows.  An excerpt of an excerpt is the same
excerpt.  So, after any calls of the two passes, with any index and from any state of it, the
content of every constant has at most 259 characters and is its own excerpt.  The constants of every
documentation are of that kind. -/
theorem excerpts_cut_once :
    (∀ text : String,
      (Text.excerpt text = text ↔
        text.length ≤ 256 ∨ ∃ front : String, front.length = 256 ∧ text = front ++ "...") ∧
      (256 < text.length → ∃ front back : String, text = front ++ back ∧ front.length = 256 ∧
        Text.slice text.toList 0 (Text.byteLength front.toList) = some front.toList ∧
        Text.excerpt text = front ++ "..." ∧ (Text.excerpt text).length = 259) ∧
      Text.excerpt (Text.excerpt text) = Text.excerpt text) ∧
    (∀ {σ : Type} (extraction : Extraction (StateM σ)) (state : σ)
      (calls : List Extraction.Call) {id : ModuleId} {module : DocModule},
      (extraction.after extraction.start calls state).1.get? id = some module →
      ∀ constant ∈ module.constants,
        constant.content.length ≤ 259 ∧ Text.excerpt constant.content = constant.content) ∧
    ∀ {program : Program} {settings : Settings} {files : List FileId}
      {documentation : Documentation} {id : ModuleId} {module : DocModule},
      extractFiles program settings files = .ok documentation →
      documentation.tree.get? id = some module →
      ∀ constant ∈ module.constants,
        constant.content.length ≤ 259 ∧ Text.excerpt constant.content = constant.content := by
  have isCut : ∀ {constant : ConstantRecord}, constant.IsExcerpt →
      constant.content.length ≤ 259 ∧ Text.excerpt constant.content = constant.content := by
    rintro constant ⟨text, isExcerpt⟩
    rw [isExcerpt]
    exact ⟨Text.length_excerpt_le text, Text.excerpt_excerpt text⟩
  refine ⟨fun text => ⟨Text.excerpt_eq_self_iff, Text.exists_cut, Text.excerpt_excerpt text⟩,
    ?_, ?_⟩
  · intro σ extraction state calls id module found constant member
    let reaches (later : ModuleTree) : Prop := extraction.Consistent later ∧ later.Excerpted
    have reached : reaches (extraction.after extraction.start calls state).1 := by
      refine Extraction.after_keeps ?_ ⟨extraction.start_consistent, extraction.start_excerpted⟩
        (canReturn_run (extraction.after extraction.start calls) state)
      exact fun _ before made => Extraction.make_excerpted before made
    exact isCut (reached.2 id module found constant member)
  · intro program settings files documentation id module succeeds found constant member
    let extraction := Extraction.remembering program settings
    let reaches (later : ModuleTree) : Prop := extraction.Consistent later ∧ later.Excerpted
    have returned : CanReturn (extraction.run files) (.ok documentation) :=
      succeeds ▸ canReturn_run (extraction.run files) {}
    have reached : reaches documentation.tree := by
      refine Extraction.run_keeps ?_ ⟨extraction.start_consistent, extraction.start_excerpted⟩
        returned
      exact fun _ _ _ _ before made => Extraction.make_excerpted before made
    exact isCut (reached.2 id module found constant member)

/-- A program of one file, which exports a variable with an initializer. -/
def turnProgram : Program where
  files := #[.ofNodes "/project/turn.ts" "export let turn = τ"
    #[{ kind := .exportKeyword, start := 0, stop := 6 },
      { kind := .identifier, start := 11, stop := 15, payload := .identifier "turn" },
      { kind := .identifier, start := 18, stop := 20, payload := .identifier "τ" },
      { kind := .variableDeclaration, start := 11, stop := 20
        payload := .declarator { name := ⟨1⟩, typeNode := .absent, initializer := ⟨2⟩ } },
      { kind := .variableStatement, start := 0, stop := 20
        payload := .variableStatement { modifiers := some [⟨0⟩], declarations := [⟨3⟩] } }]
    [⟨4⟩]]

/-- A text of 300 characters of two bytes is cut behind the first 256 of them, once.  The content of
a constant with a short initializer is the whole initializer. -/
theorem excerpts_cut_once_wide :
    let text := String.ofList (List.replicate 300 'τ')
    let extraction := Extraction.remembering turnProgram (.ofBase "/project")
    let tree := (extraction.after extraction.start [.prepare ⟨0⟩, .visit ⟨0⟩] {}).1
    (∃ front : String, front.length = 256 ∧ Text.excerpt text = front ++ "..." ∧
      Text.excerpt (Text.excerpt text) = Text.excerpt text) ∧
    ∃ module, tree.get? 0 = some module ∧
      module.constants.map (fun constant => (constant.name, constant.content)) = [("turn", "τ")] ∧
      ∀ constant ∈ module.constants, Text.excerpt constant.content = constant.content := by
  intro text extraction tree
  have evaluated : (tree.get? 0).map (fun module =>
      module.constants.map fun constant => (constant.name, constant.content)) =
      some [("turn", "τ")] := by
    decide +kernel
  obtain ⟨module, found, constants⟩ := Option.map_eq_some_iff.1 evaluated
  obtain ⟨laws, afterCalls, -⟩ := excerpts_cut_once
  obtain ⟨-, cut, again⟩ := laws text
  have long : 256 < text.length := by
    rw [String.length_ofList, List.length_replicate]
    decide
  obtain ⟨front, -, -, full, -, isCut, -⟩ := cut long
  refine ⟨⟨front, full, isCut, again⟩, module, found, constants, ?_⟩
  intro constant member
  exact (afterCalls extraction {} [.prepare ⟨0⟩, .visit ⟨0⟩] found constant member).2

end ApiDocs
