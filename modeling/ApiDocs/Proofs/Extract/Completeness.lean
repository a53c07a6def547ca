import ApiDocs.Proofs.Extract.Passes
import Mathlib.Data.List.Basic

/-!
# The two passes complete each other

The second pass looks records up that the first pass created, in a walk of its own.  The look-ups
succeed whatever else happened in between: a file that was prepared once can be visited at any later
time, after any other calls, also after calls that failed.  An extraction therefore fails only on
the number of an unknown file.

## Main definitions

* `Extraction.Call`, `Extraction.session` — calls of both passes, made one after the other.
* `Extraction.Prepared` — a file that the second pass can visit.
* `Completes` — what an extraction of a list of files comes to.

## Main statements

* `calls_complete` — the answers of every session and of every extraction, with any index.

## Design notes

**The index is arbitrary.**  A session runs with a state that the index may read and change in any
way, from any initial state.
-/

namespace ApiDocs

open MonadAttach (CanReturn)

namespace Extraction

section

variable {m : Type → Type} [Monad m]

/-- A call of one of the two passes. -/
inductive Call where
  | prepare (file : FileId)
  | visit (file : FileId)

/-- Makes a call. -/
def make (extraction : Extraction m) (tree : ModuleTree) : Call → m Pass
  | .prepare file => extraction.prepareFile tree file
  | .visit file => extraction.visitFile tree file

/-- The answers of a list of calls, each made on the tree that the call before it left behind. -/
def session (extraction : Extraction m) (tree : ModuleTree) :
    List Call → m (List (Option ExtractError))
  | [] => pure []
  | call :: calls => do
    let reached ← extraction.make tree call
    let others ← extraction.session reached.tree calls
    pure (reached.error :: others)

/-- The answer of preparing a file: an error exactly if the program has no such file. -/
def unknown? (program : Program) (file : FileId) : Option ExtractError :=
  if (program.file? file).isSome then none else some (.unknownFile file)

/-- A file that the second pass can visit: it has a module, and all its entries are ready. -/
def Prepared (extraction : Extraction m) (tree : ModuleTree) (file : FileId) : Prop :=
  ∃ source base, extraction.program.file? file = some source ∧
    tree.fileModules.find? file = some base ∧
    ∀ entry ∈ extraction.entries source, source.Ready tree base entry

omit [Monad m] in
theorem Prepared.later {extraction : Extraction m} {tree later : ModuleTree} {file : FileId}
    (growth : tree.Extends later) (prepared : extraction.Prepared tree file) :
    extraction.Prepared later file := by
  obtain ⟨source, base, known, given, ready⟩ := prepared
  exact ⟨source, base, known, growth.file given, fun entry member =>
    (ready entry member).later growth⟩

end

section

variable {m : Type → Type} [Monad m] [LawfulMonad m] [MonadAttach m] [LawfulMonadAttach m]
variable {extraction : Extraction m} {tree : ModuleTree} {file : FileId} {pass : Pass}

/-! ## One call -/

/-- Preparing a file answers with an error exactly if the file is unknown, and otherwise leaves it
prepared. -/
theorem prepareFile_spec (consistent : extraction.Consistent tree)
    (returned : CanReturn (extraction.prepareFile tree file) pass) :
    tree.Extends pass.tree ∧ extraction.Consistent pass.tree ∧
      pass.error = unknown? extraction.program file ∧
      (pass.error = none → extraction.Prepared pass.tree file) := by
  cases known : extraction.program.file? file with
  | none =>
      simp only [prepareFile, known] at returned
      obtain rfl := LawfulMonadAttach.eq_of_canReturn_pure returned
      exact ⟨.refl tree, consistent, by simp [unknown?, known], by simp⟩
  | some source =>
      have entered := enterFile_entered consistent known
      obtain ⟨above, there⟩ := entered.get?
      have wellFormed := entered.consistent.wellFormed
      simp only [prepareFile, known] at returned
      obtain ⟨result, prepared, done⟩ := LawfulMonadAttach.canReturn_bind_imp' returned
      obtain rfl := LawfulMonadAttach.eq_of_canReturn_pure done
      obtain ⟨advances, ready⟩ := prepareEntries_ready wellFormed there prepared
      refine ⟨entered.growth.trans advances.growth, entered.consistent.advance advances,
        by simp [unknown?, known], fun _ => ⟨source, _, known, ?_, ready⟩⟩
      exact advances.growth.file entered.given

/-- Visiting a file keeps the invariant, and a prepared file is visited without an error. -/
theorem visitFile_spec (consistent : extraction.Consistent tree)
    (returned : CanReturn (extraction.visitFile tree file) pass) :
    tree.Extends pass.tree ∧ extraction.Consistent pass.tree ∧
      (extraction.Prepared tree file → pass.error = none) := by
  cases known : extraction.program.file? file with
  | none =>
      simp only [visitFile, known] at returned
      obtain rfl := LawfulMonadAttach.eq_of_canReturn_pure returned
      refine ⟨.refl tree, consistent, fun ⟨source, _, found, _⟩ => ?_⟩
      rw [known] at found
      cases found
  | some source =>
      have entered := enterFile_entered consistent known
      obtain ⟨above, there⟩ := entered.get?
      have wellFormed := entered.consistent.wellFormed
      simp only [visitFile, known] at returned
      have advances := visitEntries_advances wellFormed there returned
      refine ⟨entered.growth.trans advances.growth, entered.consistent.advance advances,
        fun prepared => ?_⟩
      -- The file keeps the module it was prepared in, so the entries are ready where they are
      -- looked up.
      obtain ⟨_, base, sameSource, givenBefore, ready⟩ := prepared.later entered.growth
      obtain rfl := Option.some.inj (known.symm.trans sameSource)
      obtain rfl := Option.some.inj (entered.given.symm.trans givenBefore)
      exact visitEntries_ready wellFormed there ready returned

/-! ## Sessions -/

/-- What a call answers after some other calls: preparing fails exactly for an unknown file, and
visiting a known file succeeds if the file was prepared before. -/
def Answers (program : Program) (before : List Call) : Call → Option ExtractError → Prop
  | .prepare file, answer => answer = unknown? program file
  | .visit file, answer =>
    .prepare file ∈ before → unknown? program file = none → answer = none

/-- The files that were prepared in some calls can be visited in a tree. -/
def Remembers (extraction : Extraction m) (before : List Call) (tree : ModuleTree) : Prop :=
  ∀ file, .prepare file ∈ before → unknown? extraction.program file = none →
    extraction.Prepared tree file

/-- One call: it is answered as it should be, and the invariant and all prepared files stay. -/
theorem make_spec {before : List Call} {call : Call} (consistent : extraction.Consistent tree)
    (remembers : extraction.Remembers before tree)
    (returned : CanReturn (extraction.make tree call) pass) :
    extraction.Consistent pass.tree ∧ extraction.Remembers (before ++ [call]) pass.tree ∧
      Answers extraction.program before call pass.error := by
  cases call with
  | prepare file =>
      obtain ⟨growth, reached, error, prepared⟩ := prepareFile_spec consistent returned
      refine ⟨reached, fun other member known => ?_, error⟩
      rcases List.mem_append.1 member with earlier | now
      · exact (remembers other earlier known).later growth
      · cases List.mem_singleton.1 now
        exact prepared (error.trans known)
  | visit file =>
      obtain ⟨growth, reached, visited⟩ := visitFile_spec consistent returned
      refine ⟨reached, fun other member known => ?_, fun member known => ?_⟩
      · rcases List.mem_append.1 member with earlier | now
        · exact (remembers other earlier known).later growth
        · cases List.mem_singleton.1 now
      · exact visited (remembers file member known)

/-- Every call of a session is answered as it should be, after the calls `before` it and whatever
calls come `after` it. -/
theorem session_answers {call : Call} {after before : List Call} :
    ∀ {earlier : List Call} {tree : ModuleTree}, extraction.Consistent tree →
      extraction.Remembers earlier tree →
      ∀ {answers : List (Option ExtractError)},
        CanReturn (extraction.session tree (before ++ call :: after)) answers →
        ∃ answer, answers[before.length]? = some answer ∧
          Answers extraction.program (earlier ++ before) call answer := by
  induction before with
  | nil =>
      intro earlier tree consistent remembers answers returned
      obtain ⟨pass, first, others⟩ := LawfulMonadAttach.canReturn_bind_imp' returned
      obtain ⟨rest, -, done⟩ := LawfulMonadAttach.canReturn_bind_imp' others
      obtain rfl := LawfulMonadAttach.eq_of_canReturn_pure done
      obtain ⟨-, -, answer⟩ := make_spec consistent remembers first
      exact ⟨pass.error, rfl, by rwa [List.append_nil]⟩
  | cons next before ih =>
      intro earlier tree consistent remembers answers returned
      obtain ⟨pass, first, others⟩ := LawfulMonadAttach.canReturn_bind_imp' returned
      obtain ⟨rest, later, done⟩ := LawfulMonadAttach.canReturn_bind_imp' others
      obtain rfl := LawfulMonadAttach.eq_of_canReturn_pure done
      obtain ⟨reached, remembersNext, -⟩ := make_spec consistent remembers first
      obtain ⟨answer, there, isAnswer⟩ := ih reached remembersNext later
      refine ⟨answer, there, ?_⟩
      rwa [List.append_assoc, List.singleton_append] at isAnswer

/-! ## Extractions -/

/-- The first pass over a list of files stops at the first unknown one, and otherwise leaves all of
them prepared. -/
theorem overFiles_prepareFile {files : List FileId} :
    ∀ {tree : ModuleTree}, extraction.Consistent tree →
      ∀ {pass : Pass}, CanReturn (overFiles extraction.prepareFile tree files) pass →
        tree.Extends pass.tree ∧ extraction.Consistent pass.tree ∧
          pass.error = files.findSome? (unknown? extraction.program) ∧
          (pass.error = none → ∀ file ∈ files, extraction.Prepared pass.tree file) := by
  induction files with
  | nil =>
      intro tree consistent pass returned
      obtain rfl := LawfulMonadAttach.eq_of_canReturn_pure returned
      exact ⟨.refl tree, consistent, rfl, by simp⟩
  | cons file files ih =>
      intro tree consistent pass returned
      obtain ⟨middle, first, rest⟩ := LawfulMonadAttach.canReturn_bind_imp' returned
      obtain ⟨growth, reached, error, prepared⟩ := prepareFile_spec consistent first
      rw [List.findSome?_cons, ← error]
      cases failed : middle.error with
      | some cause =>
          simp only [failed] at rest
          obtain rfl := LawfulMonadAttach.eq_of_canReturn_pure rest
          exact ⟨growth, reached, failed, by simp [failed]⟩
      | none =>
          simp only [failed] at rest
          obtain ⟨later, final, same, ready⟩ := ih reached rest
          refine ⟨growth.trans later, final, same, fun finished other member => ?_⟩
          rcases List.mem_cons.1 member with rfl | inRest
          · exact (prepared failed).later later
          · exact ready finished other inRest

/-- The second pass over prepared files succeeds. -/
theorem overFiles_visitFile {files : List FileId} :
    ∀ {tree : ModuleTree}, extraction.Consistent tree →
      (∀ file ∈ files, extraction.Prepared tree file) →
      ∀ {pass : Pass}, CanReturn (overFiles extraction.visitFile tree files) pass →
        tree.Extends pass.tree ∧ extraction.Consistent pass.tree ∧ pass.error = none := by
  induction files with
  | nil =>
      intro tree consistent prepared pass returned
      obtain rfl := LawfulMonadAttach.eq_of_canReturn_pure returned
      exact ⟨.refl tree, consistent, rfl⟩
  | cons file files ih =>
      intro tree consistent prepared pass returned
      obtain ⟨middle, first, rest⟩ := LawfulMonadAttach.canReturn_bind_imp' returned
      obtain ⟨growth, reached, visited⟩ := visitFile_spec consistent first
      simp only [visited (prepared file (by simp))] at rest
      obtain ⟨later, final, succeeded⟩ := ih reached
        (fun other member => (prepared other (by simp [member])).later growth) rest
      exact ⟨growth.trans later, final, succeeded⟩

/-- An extraction answers with the error of the first unknown file, and with a documentation if
there is none. -/
theorem run_result {files : List FileId} {result : Except ExtractError Documentation}
    (returned : CanReturn (extraction.run files) result) :
    match files.findSome? (unknown? extraction.program) with
    | some error => result = .error error
    | none => ∃ tree, result = .ok (extraction.finish tree) := by
  obtain ⟨prepared, first, others⟩ := LawfulMonadAttach.canReturn_bind_imp' returned
  obtain ⟨-, consistent, error, ready⟩ := overFiles_prepareFile extraction.start_consistent first
  rw [← error]
  cases failed : prepared.error with
  | some cause =>
      simp only [failed] at others
      exact (LawfulMonadAttach.eq_of_canReturn_pure others).symm
  | none =>
      simp only [failed] at others
      obtain ⟨visited, second, done⟩ := LawfulMonadAttach.canReturn_bind_imp' others
      obtain ⟨-, -, succeeded⟩ := overFiles_visitFile consistent (ready failed) second
      simp only [succeeded] at done
      exact ⟨visited.tree, (LawfulMonadAttach.eq_of_canReturn_pure done).symm⟩

end

end Extraction

/-- What an extraction of a list of files comes to: it succeeds exactly if all files are known, it
never misses a record, and otherwise it names the first unknown file. -/
structure Completes (program : Program) (files : List FileId)
    (result : Except ExtractError Documentation) : Prop where
  succeeds : (∃ documentation, result = .ok documentation) ↔
    ∀ file ∈ files, (program.file? file).isSome = true
  misses_nothing : ∀ kind name module, result ≠ .error (.missing kind name module)
  first_unknown : ∀ file, files.find? (fun id => (program.file? id).isNone) = some file →
    result = .error (.unknownFile file)

/-- A list without an unknown file is a list of known files. -/
theorem Extraction.findSome?_unknown?_eq_none {program : Program} {files : List FileId} :
    files.findSome? (unknown? program) = none ↔
      ∀ file ∈ files, (program.file? file).isSome = true := by
  rw [List.findSome?_eq_none_iff]
  refine forall₂_congr fun file _ => ?_
  by_cases known : (program.file? file).isSome = true
  · simp [unknown?, known]
  · simp [unknown?, known]

/-- The error of the first unknown file names it. -/
theorem Extraction.findSome?_unknown? {program : Program} {files : List FileId} :
    files.findSome? (unknown? program) =
      (files.find? fun id => (program.file? id).isNone).map .unknownFile := by
  induction files with
  | nil => rfl
  | cons file files ih =>
      rw [List.findSome?_cons, List.find?_cons]
      cases known : program.file? file with
      | some source => simp [unknown?, known, ih]
      | none => simp [unknown?, known]

/-- What a computation returns from some state is something that it can return. -/
theorem canReturn_run {σ α : Type} (computation : StateM σ α) (state : σ) :
    CanReturn computation (computation state).1 :=
  ⟨state, (computation state).2, rfl⟩

theorem Extraction.run_completes {σ : Type} (extraction : Extraction (StateM σ)) (state : σ)
    (files : List FileId) : Completes extraction.program files (extraction.run files state).1 := by
  have outcome := run_result (canReturn_run (extraction.run files) state)
  cases first : files.findSome? (unknown? extraction.program) with
  | some error =>
      rw [first] at outcome
      have someUnknown : ¬∀ file ∈ files, (extraction.program.file? file).isSome = true := by
        rw [← findSome?_unknown?_eq_none, first]
        exact Option.some_ne_none error
      rw [findSome?_unknown?, Option.map_eq_some_iff] at first
      obtain ⟨unknown, found, rfl⟩ := first
      refine ⟨?_, ?_, ?_⟩
      · simp [outcome, someUnknown]
      · simp [outcome]
      · intro file sameFound
        rw [outcome, Option.some.inj (found.symm.trans sameFound)]
  | none =>
      rw [first] at outcome
      obtain ⟨tree, succeeded⟩ := outcome
      have allKnown := findSome?_unknown?_eq_none.1 first
      refine ⟨?_, ?_, ?_⟩
      · exact ⟨fun _ => allKnown, fun _ => ⟨_, succeeded⟩⟩
      · simp [succeeded]
      · intro file found
        rw [findSome?_unknown?, found] at first
        cases first

/-- Every number that a program lists belongs to a file. -/
theorem Program.file?_isSome_of_mem_fileIds {program : Program} {file : FileId}
    (listed : file ∈ program.fileIds) : (program.file? file).isSome = true := by
  obtain ⟨n, inside, rfl⟩ := List.mem_map.1 listed
  have below : (UInt32.ofNat n).toNat < program.files.size :=
    calc (UInt32.ofNat n).toNat = n % 2 ^ 32 := UInt32.toNat_ofNat'
      _ ≤ n := Nat.mod_le n _
      _ < program.files.size := List.mem_range.1 inside
  rw [file?, FileId.toNat, Array.getElem?_eq_getElem below]
  rfl

/-- **Every call is answered as it should be.**  On one extraction, with any index and with calls of
both passes in any order, preparing fails exactly for unknown files, and visiting a known file
succeeds whenever the file was prepared before, whatever else happened.  An extraction of a list of
files therefore succeeds exactly if all of them are known, and otherwise names the first unknown
one; the extraction of all files of a program always succeeds. -/
theorem calls_complete :
    (∀ {σ : Type} (extraction : Extraction (StateM σ)) (state : σ)
      (before after : List Extraction.Call) (file : FileId),
      (extraction.session extraction.start (before ++ .prepare file :: after)
          state).1[before.length]? =
        some (if (extraction.program.file? file).isSome then none
          else some (.unknownFile file)) ∧
        (.prepare file ∈ before → (extraction.program.file? file).isSome = true →
          (extraction.session extraction.start (before ++ .visit file :: after)
            state).1[before.length]? = some none)) ∧
      (∀ {σ : Type} (extraction : Extraction (StateM σ)) (state : σ) (files : List FileId),
        Completes extraction.program files (extraction.run files state).1) ∧
      (∀ program settings files, Completes program files (extractFiles program settings files)) ∧
      ∀ program settings, ∃ documentation, extract program settings = .ok documentation := by
  refine ⟨?_, fun extraction => extraction.run_completes, ?_, ?_⟩
  · intro σ extraction state before after file
    have remembers : extraction.Remembers [] extraction.start := by
      intro other member
      cases member
    constructor
    · obtain ⟨answer, there, isAnswer⟩ := Extraction.session_answers extraction.start_consistent
        remembers (canReturn_run (extraction.session extraction.start
          (before ++ .prepare file :: after)) state)
      rw [there, isAnswer]
      rfl
    · intro member known
      obtain ⟨answer, there, isAnswer⟩ := Extraction.session_answers extraction.start_consistent
        remembers (canReturn_run (extraction.session extraction.start
          (before ++ .visit file :: after)) state)
      rw [there, isAnswer member (by simp [Extraction.unknown?, known])]
  · intro program settings files
    exact (Extraction.remembering program settings).run_completes {} files
  · intro program settings
    have complete := (Extraction.remembering program settings).run_completes {} program.fileIds
    exact complete.succeeds.2 fun file listed => Program.file?_isSome_of_mem_fileIds listed

/-- A file with the given nodes and statements, and without comments. -/
def SourceFile.ofNodes (path text : String) (nodes : Array Node) (statements : NodeList) :
    SourceFile where
  path
  text
  arena.nodes := nodes
  statements

/-- The settings of a project that only names its base directory. -/
def Settings.ofBase (baseDirectory : String) : Settings where
  baseDirectory
  builtins := []

/-- A file that declares the class `Shape`. -/
def shapeFile : SourceFile :=
  .ofNodes "/project/shape.ts" "class Shape { }"
    #[{ kind := .identifier, start := 6, stop := 11, payload := .identifier "Shape" },
      { kind := .classDeclaration, start := 0, stop := 15
        payload := .classDecl
          { modifiers := none, name := ⟨0⟩, typeParameters := none, heritage := none
            members := [] } }]
    [⟨1⟩]

/-- A file that opens the namespace `shapes` and declares the interface `Point` there. -/
def shapesFile (path : String) : SourceFile :=
  .ofNodes path "namespace shapes { interface Point { } }"
    #[{ kind := .identifier, start := 10, stop := 16, payload := .identifier "shapes" },
      { kind := .identifier, start := 29, stop := 34, payload := .identifier "Point" },
      { kind := .interfaceDeclaration, start := 19, stop := 38
        payload := .interfaceDecl
          { modifiers := none, name := ⟨1⟩, typeParameters := none, heritage := none
            members := [] } },
      { kind := .moduleBlock, start := 17, stop := 40, payload := .block [⟨2⟩] },
      { kind := .moduleDeclaration, start := 0, stop := 40
        payload := .namespaceDecl { modifiers := none, name := ⟨0⟩, body := ⟨3⟩ } }]
    [⟨4⟩]

/-- Two files of one directory that open the same namespace. -/
def shapesProgram : Program where
  files := #[shapesFile "/project/plane/first.ts", shapesFile "/project/plane/second.ts"]

/-- A visit that comes too early fails, preparing an unknown file fails, and after both failures
the file can still be prepared and visited. -/
theorem calls_complete_late :
    let extraction := Extraction.remembering { files := #[shapeFile] } (.ofBase "/project")
    let answers := (extraction.session extraction.start
      [.visit ⟨0⟩, .prepare ⟨1⟩, .prepare ⟨0⟩, .visit ⟨0⟩] {}).1
    answers[0]? = some (some (.missing .classRecord "Shape" "index")) ∧
      answers[1]? = some (some (.unknownFile ⟨1⟩)) ∧ answers[2]? = some none ∧
      answers[3]? = some none := by
  intro extraction answers
  obtain ⟨sessions, -⟩ := calls_complete
  refine ⟨by decide +kernel, ?_, ?_, ?_⟩
  · exact (sessions extraction {} [.visit ⟨0⟩] [.prepare ⟨0⟩, .visit ⟨0⟩] ⟨1⟩).1
  · exact (sessions extraction {} [.visit ⟨0⟩, .prepare ⟨1⟩] [.visit ⟨0⟩] ⟨0⟩).1
  · exact (sessions extraction {} [.visit ⟨0⟩, .prepare ⟨1⟩, .prepare ⟨0⟩] [] ⟨0⟩).2 (by simp)
      (by decide)

end ApiDocs
