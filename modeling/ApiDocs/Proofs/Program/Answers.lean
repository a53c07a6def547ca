import ApiDocs.Proofs.Json.Fields
import ApiDocs.Proofs.Program.Entries
import ApiDocs.Proofs.Syntax.Parents

/-!
# Answers stay with their file

The checker's answers are kept in a list beside the files.  It grows at its end with every file that
is added, and up to a number when something is recorded for the number, so it may run ahead of the
files or lag behind them, and a snapshot may come with a list of any length.  Nevertheless **every
answer stays where it was recorded**: an entry that is added is empty, and so is what the list says
about a file without an entry.

## Main definitions

* `Program.Call`, `Program.make`, `Program.grow` — the calls that grow a program, and the program
  after them.
* `Program.Call.symbolFor?`, `Program.Call.signatureFor?` — what a call records at a node of a file.
* `Program.Remembers` — the answers of a program that calls made out of another one.

## Main statements

* `bindingsOf_addFile`, `bindingsOf_modifyBindings` — what an added file and a recorded answer do to
  the answers of every file.
* `symbolAt?_make`, `signatureAt?_make` — what a call does to an answer.
* `bindings_stay_with_file` — the answers after any calls on any program.

## Design notes

**The list is seen through `bindingsOf`.**  A file without an entry has the same answers as one with
an empty entry, so the length of the list appears in `bindingsOf_addFile` and
`bindingsOf_modifyBindings` and nowhere else.
-/

namespace ApiDocs

namespace Program

/-! ## Calls -/

/-- A call that grows a program. -/
inductive Call where
  | addFile (source : SourceFile)
  | addSymbol (symbol : Symbol)
  /-- Records the symbol at a node. -/
  | bind (file : FileId) (node : NodeIndex) (symbol : SymbolId)
  /-- Records the inferred signature at a node. -/
  | setSignature (file : FileId) (node : NodeIndex) (signature : InferredSignature)

/-- The program after a call. -/
def make (program : Program) : Call → Program
  | .addFile source => (program.addFile source).2
  | .addSymbol symbol => (program.addSymbol symbol).2
  | .bind file node symbol => program.bind file node symbol
  | .setSignature file node signature => program.setSignature file node signature

/-- The program after a list of calls. -/
def grow (program : Program) (calls : List Call) : Program :=
  calls.foldl make program

namespace Call

/-- The symbol that a call records at a node of a file. -/
def symbolFor? (file : FileId) (node : NodeIndex) : Call → Option SymbolId
  | .bind otherFile otherNode symbol =>
    if otherFile = file ∧ otherNode = node then some symbol else none
  | _ => none

/-- The signature that a call records at a node of a file. -/
def signatureFor? (file : FileId) (node : NodeIndex) : Call → Option InferredSignature
  | .setSignature otherFile otherNode signature =>
    if otherFile = file ∧ otherNode = node then some signature else none
  | _ => none

/-- A call is for a node of a file, whichever answer it records there. -/
def IsFor (file : FileId) (node : NodeIndex) : Call → Prop
  | .bind otherFile otherNode _ => otherFile = file ∧ otherNode = node
  | .setSignature otherFile otherNode _ => otherFile = file ∧ otherNode = node
  | _ => False

theorem symbolFor?_of_not_isFor {call : Call} {file : FileId} {node : NodeIndex}
    (other : ¬ call.IsFor file node) : call.symbolFor? file node = none := by
  cases call with
  | bind otherFile otherNode symbol => exact if_neg other
  | _ => rfl

theorem signatureFor?_of_not_isFor {call : Call} {file : FileId} {node : NodeIndex}
    (other : ¬ call.IsFor file node) : call.signatureFor? file node = none := by
  cases call with
  | setSignature otherFile otherNode signature => exact if_neg other
  | _ => rfl

end Call

variable {program : Program} {file : FileId} {node : NodeIndex}

/-! ## The answers of a file -/

/-- **The entry that comes with a file changes nothing**, wherever it ends up: it is empty, and so
were the answers of the file whose place it takes. -/
theorem bindingsOf_addFile (program : Program) (source : SourceFile) (file : FileId) :
    (program.addFile source).2.bindingsOf file = program.bindingsOf file := by
  simp only [bindingsOf, addFile, Array.getElem?_push]
  by_cases atEnd : file.toNat = program.bindings.size
  · simp [atEnd]
  · simp [atEnd]

/-- The entries that fill a gap are empty, so they change nothing either. -/
theorem getD_append_replicate (bindings : Array FileBindings) (missing place : Nat) :
    (bindings ++ Array.replicate missing .empty)[place]?.getD .empty =
      bindings[place]?.getD .empty := by
  rw [Array.getElem?_append]
  split
  · rfl
  · rename_i behind
    rw [Array.getElem?_eq_none (Nat.le_of_not_lt behind), Array.getElem?_replicate]
    split <;> rfl

/-- A change of the answers of a file changes those of no other file. -/
theorem bindingsOf_modifyBindings (program : Program) (file other : FileId)
    (change : FileBindings → FileBindings) :
    (program.modifyBindings file change).bindingsOf other =
      if file = other then change (program.bindingsOf other) else program.bindingsOf other := by
  let missing := file.toNat + 1 - program.bindings.size
  have filled := getD_append_replicate program.bindings missing other.toNat
  rw [bindingsOf, modifyBindings, Array.getElem?_modify, bindingsOf, ← filled]
  by_cases same : file = other
  · -- The list was filled up to the file, so there is an entry to change.
    subst same
    have inside : file.toNat <
        (program.bindings ++ Array.replicate missing FileBindings.empty).size := by
      rw [Array.size_append, Array.size_replicate]
      omega
    rw [if_pos rfl, if_pos rfl, Array.getElem?_eq_getElem inside]
    rfl
  · have elsewhere : file.toNat ≠ other.toNat := fun here => same (FileId.toNat_injective here)
    rw [if_neg same, if_neg elsewhere]

/-! ## One call -/

@[simp] theorem symbolAt?_absent (program : Program) (file : FileId) :
    program.symbolAt? file .absent = none := rfl

@[simp] theorem signatureAt?_absent (program : Program) (file : FileId) :
    program.signatureAt? file .absent = none := rfl

section

variable {α : Type} {select : FileBindings → WordMap α} {change : FileBindings → FileBindings}
  (program : Program) (file otherFile : FileId) (otherNode : NodeIndex)

/-- What is recorded in the other map of a file does not show. -/
theorem select_record_other (keeps : ∀ answers, select (change answers) = select answers) :
    select ((if otherNode.isPresent then program.modifyBindings otherFile change
      else program).bindingsOf file) = select (program.bindingsOf file) := by
  split
  · rw [bindingsOf_modifyBindings]
    split
    · exact keeps _
    · rfl
  · rfl

/-- What is recorded in a map of a file shows at its node and nowhere else. -/
theorem find?_record (present : node ≠ .absent) (value : α)
    (writes : ∀ answers, select (change answers) = (select answers).insert otherNode.raw value) :
    (select ((if otherNode.isPresent then program.modifyBindings otherFile change
      else program).bindingsOf file)).find? node.raw =
      (if otherFile = file ∧ otherNode = node then some value else none).or
        ((select (program.bindingsOf file)).find? node.raw) := by
  by_cases recorded : otherNode.isPresent = true
  · rw [if_pos recorded, bindingsOf_modifyBindings]
    by_cases sameFile : otherFile = file
    · rw [if_pos sameFile, writes, WordMap.find?_insert]
      by_cases sameNode : otherNode = node
      · simp [sameFile, sameNode]
      · have sameRaw : node.raw ≠ otherNode.raw := fun same =>
          sameNode (congrArg NodeIndex.mk same.symm)
        simp [sameNode, sameRaw]
    · simp [sameFile]
  · have different : otherNode ≠ node := by
      rintro rfl
      exact recorded (NodeIndex.isPresent_iff.2 present)
    simp [recorded, different]

end

/-- **A call changes the symbol at a node only if it records one there.** -/
theorem symbolAt?_make (present : node ≠ .absent) (program : Program) (call : Call) :
    (program.make call).symbolAt? file node =
      (call.symbolFor? file node).or (program.symbolAt? file node) := by
  simp only [symbolAt?, NodeIndex.isPresent_iff.2 present, if_true]
  cases call with
  | addFile source => rw [make, bindingsOf_addFile]; rfl
  | addSymbol symbol => rfl
  | bind otherFile otherNode symbol =>
      exact find?_record program file otherFile otherNode present symbol fun _ => rfl
  | setSignature otherFile otherNode signature =>
      have kept : ((program.setSignature otherFile otherNode signature).bindingsOf file).symbols =
          (program.bindingsOf file).symbols :=
        select_record_other program file otherFile otherNode fun _ => rfl
      exact congrArg (WordMap.find? · node.raw) kept

/-- **A call changes the signature at a node only if it records one there.** -/
theorem signatureAt?_make (present : node ≠ .absent) (program : Program) (call : Call) :
    (program.make call).signatureAt? file node =
      (call.signatureFor? file node).or (program.signatureAt? file node) := by
  simp only [signatureAt?, NodeIndex.isPresent_iff.2 present, if_true]
  cases call with
  | addFile source => rw [make, bindingsOf_addFile]; rfl
  | addSymbol symbol => rfl
  | bind otherFile otherNode symbol =>
      have kept : ((program.bind otherFile otherNode symbol).bindingsOf file).signatures =
          (program.bindingsOf file).signatures :=
        select_record_other program file otherFile otherNode fun _ => rfl
      exact congrArg (WordMap.find? · node.raw) kept
  | setSignature otherFile otherNode signature =>
      exact find?_record program file otherFile otherNode present signature fun _ => rfl

/-- Files keep their numbers. -/
theorem file?_make {source : SourceFile} (found : program.file? file = some source) (call : Call) :
    (program.make call).file? file = some source := by
  cases call with
  | addFile added =>
      obtain ⟨inside, -⟩ := Array.getElem?_eq_some_iff.1 found
      show (program.files.push added)[file.toNat]? = some source
      rw [Array.getElem?_push, if_neg (Nat.ne_of_lt inside)]
      exact found
  | addSymbol symbol => exact found
  | bind otherFile otherNode symbol => rw [make, bind]; split <;> exact found
  | setSignature otherFile otherNode signature => rw [make, setSignature]; split <;> exact found

/-- A file is found under the number that was answered for it, while there are numbers left. -/
theorem file?_addFile (few : program.files.size < UInt32.size) (source : SourceFile) :
    (program.addFile source).2.file? (program.addFile source).1 = some source := by
  have number : (program.addFile source).1.toNat = program.files.size :=
    Nat.mod_eq_of_lt few
  rw [file?, number]
  exact Array.getElem?_push_size

/-! ## Any calls -/

theorem stored?_eq {α : Type} {select : FileBindings → WordMap α}
    (nothing : (select .empty).find? node.raw = none) (program : Program) (file : FileId) :
    program.stored? select file node = (select (program.bindingsOf file)).find? node.raw := by
  rw [stored?, bindingsOf]
  cases program.bindings[file.toNat]? with
  | none => exact nothing.symm
  | some answers => rfl

theorem symbolAt?_eq_stored? (present : node ≠ .absent) (program : Program) (file : FileId) :
    program.symbolAt? file node = program.stored? FileBindings.symbols file node := by
  rw [symbolAt?, if_pos (NodeIndex.isPresent_iff.2 present), stored?_eq rfl]

theorem signatureAt?_eq_stored? (present : node ≠ .absent) (program : Program) (file : FileId) :
    program.signatureAt? file node = program.stored? FileBindings.signatures file node := by
  rw [signatureAt?, if_pos (NodeIndex.isPresent_iff.2 present), stored?_eq rfl]

/-- What holds of a program that calls made out of another one. -/
structure Remembers (program start : Program) (calls : List Call) : Prop where
  /-- The symbol at a node is the last one that the calls recorded there, or else the one that was
  held at the start. -/
  symbol : ∀ {file : FileId} {node : NodeIndex}, node ≠ .absent →
    program.symbolAt? file node =
      (calls.filterMap (Call.symbolFor? file node)).getLast?.or
        (start.stored? FileBindings.symbols file node)
  /-- Likewise the signature at a node. -/
  signature : ∀ {file : FileId} {node : NodeIndex}, node ≠ .absent →
    program.signatureAt? file node =
      (calls.filterMap (Call.signatureFor? file node)).getLast?.or
        (start.stored? FileBindings.signatures file node)
  /-- There is nothing at an absent node. -/
  absent : ∀ file, program.symbolAt? file .absent = none ∧ program.signatureAt? file .absent = none
  /-- A further call changes no answer at a node that it is not for. -/
  elsewhere : ∀ {call : Call} {file : FileId} {node : NodeIndex}, ¬ call.IsFor file node →
    (program.make call).symbolAt? file node = program.symbolAt? file node ∧
      (program.make call).signatureAt? file node = program.signatureAt? file node
  /-- A further file changes the answers of no file, whether it is there or not. -/
  addFile : ∀ source file, (program.addFile source).2.bindingsOf file = program.bindingsOf file
  /-- Files keep their numbers. -/
  file : ∀ {file source}, start.file? file = some source → program.file? file = some source
  /-- A further file is found under the number that is answered for it, while there are any left. -/
  added : program.files.size < UInt32.size → ∀ source,
    (program.addFile source).2.file? (program.addFile source).1 = some source

theorem make_elsewhere {call : Call} (other : ¬ call.IsFor file node) (program : Program) :
    (program.make call).symbolAt? file node = program.symbolAt? file node ∧
      (program.make call).signatureAt? file node = program.signatureAt? file node := by
  by_cases present : node = .absent
  · simp [present]
  · rw [symbolAt?_make present, signatureAt?_make present, Call.symbolFor?_of_not_isFor other,
      Call.signatureFor?_of_not_isFor other]
    exact ⟨rfl, rfl⟩

theorem grow_remembers (start : Program) (calls : List Call) :
    (start.grow calls).Remembers start calls where
  symbol {file node} present := by
    rw [← symbolAt?_eq_stored? present]
    exact foldl_last (symbolAt? · file node) (symbolAt?_make present) start calls
  signature {file node} present := by
    rw [← signatureAt?_eq_stored? present]
    exact foldl_last (signatureAt? · file node) (signatureAt?_make present) start calls
  absent file := ⟨symbolAt?_absent _ file, signatureAt?_absent _ file⟩
  elsewhere other := make_elsewhere other _
  addFile source file := bindingsOf_addFile _ source file
  file {file source} found :=
    List.foldlRecOn (motive := fun program => program.file? file = some source) calls make found
      fun _ before call _ => file?_make before call
  added few source := file?_addFile few source

/-- **Bindings stay with their file.**  After any calls on any program, whatever the length of its
list of answers, the symbol and the signature at a node of a file are the last ones that the calls
recorded there, or else those that the program held at the start, and there is nothing at an absent
node.  A further call changes nothing at a node that it is not for, a further file changes no
answers at all, and files keep their numbers.  A program that was read from a text holds at the
start what the text has written last for a node, at the place of its file. -/
theorem bindings_stay_with_file (start : Program) (calls : List Call) :
    (start.grow calls).Remembers start calls ∧
    ∀ text, ofText? text = some start → ∃ document, Json.parse? text = some document ∧
      ∀ file node,
        start.stored? FileBindings.symbols file node =
          (written? "node_symbols" document file node).bind SymbolId.decode? ∧
        start.stored? FileBindings.signatures file node =
          (written? "signatures" document file node).bind
            (InferredSignature.decodeWithin? InferredType.maxDepth) := by
  refine ⟨grow_remembers start calls, fun text reads => ?_⟩
  obtain ⟨document, parsed, decoded⟩ := Option.bind_eq_some_iff.1 reads
  exact ⟨document, parsed, stored?_of_decode? decoded⟩

/-- The document of a snapshot that has no files and answers for two of them.  A node is repeated,
the absent node has a symbol, and the second record is written as an array. -/
def aheadDocument : Json :=
  .object [("files", .array []), ("bindings", .array [
    .object [("node_symbols", .object [("3", .nat 7), ("3", .nat 8), ("4294967295", .nat 9)])],
    .array [.object [], .object [("5", .object [])]]])]

/-- The program that the snapshot describes. -/
def ahead : Program where
  bindings := #[{ symbols := .ofList [(3, ⟨8⟩), (4294967295, ⟨9⟩)], signatures := .empty },
    { symbols := .empty, signatures := .ofList [(5, {})] }]

theorem ahead_parsed : Json.parse? aheadDocument.compact = some aheadDocument :=
  Json.parse?_print Json.Layout.compact_isBlank (by simp [aheadDocument])

theorem ahead_read : ofText? aheadDocument.compact = some ahead := by
  rw [ofText?, ahead_parsed]
  rfl

/-- A file without text. -/
def emptyFile (path : String) : SourceFile where
  path
  text := ""
  commentMap := .empty

/-- Adds three files, the last of which has a symbol and a signature before it is added, and another
symbol afterwards. -/
def catchingUp : List Call :=
  [.bind ⟨2⟩ ⟨3⟩ ⟨1⟩, .addFile (emptyFile "a.ts"), .bind ⟨0⟩ .absent ⟨4⟩,
    .addFile (emptyFile "b.ts"), .setSignature ⟨2⟩ ⟨6⟩ {},
    .addFile (emptyFile "c.ts"), .bind ⟨2⟩ ⟨3⟩ ⟨2⟩]

/-- The answers of the snapshot are still there, the third file has the signature that was recorded
before it was added and the later of its two symbols, and a fourth file gets its number and no
answers. -/
theorem bindings_stay_with_file_ahead :
    let program := ahead.grow catchingUp
    let next := program.addFile (emptyFile "d.ts")
    ofText? aheadDocument.compact = some ahead ∧
      ahead.stored? FileBindings.symbols ⟨0⟩ ⟨3⟩ = some ⟨8⟩ ∧
      program.symbolAt? ⟨0⟩ ⟨3⟩ = some ⟨8⟩ ∧ program.symbolAt? ⟨0⟩ .absent = none ∧
      program.symbolAt? ⟨2⟩ ⟨3⟩ = some ⟨2⟩ ∧ program.signatureAt? ⟨2⟩ ⟨6⟩ = some {} ∧
      program.signatureAt? ⟨1⟩ ⟨5⟩ = some {} ∧
      (next.2.file? next.1).map (·.path) = some "d.ts" ∧
      next.2.symbolAt? ⟨2⟩ ⟨3⟩ = some ⟨2⟩ ∧ next.2.bindingsOf ⟨3⟩ = .empty := by
  intro program next
  obtain ⟨remembers, loaded⟩ := bindings_stay_with_file ahead catchingUp
  obtain ⟨document, parsed, holds⟩ := loaded _ ahead_read
  have isDocument : document = aheadDocument :=
    Option.some.inj (parsed.symm.trans ahead_parsed)
  have latest : program.symbolAt? ⟨2⟩ ⟨3⟩ = some ⟨2⟩ := remembers.symbol (by decide)
  have few : program.files.size < UInt32.size := by decide
  have notForIt : ¬ (Call.addFile (emptyFile "d.ts")).IsFor ⟨2⟩ ⟨3⟩ := id
  refine ⟨ahead_read, ?_, remembers.symbol (by decide), (remembers.absent _).1, latest,
    remembers.signature (by decide), remembers.signature (by decide), ?_, ?_, ?_⟩
  · rw [(holds ⟨0⟩ ⟨3⟩).1, isDocument]
    rfl
  · rw [remembers.added few]
    rfl
  · exact (remembers.elsewhere notForIt).1.trans latest
  · exact remembers.addFile _ _

end Program

end ApiDocs
