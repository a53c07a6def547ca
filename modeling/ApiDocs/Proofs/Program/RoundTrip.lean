import ApiDocs.Proofs.Program.Syntax

/-!
# Snapshots read back

A program is written as one document, and reading the document gives the program: its files in order
with their syntax and their comments, its symbols, and the checker's answers.  So **writing, reading
and writing again changes nothing**, and neither does the order in which a map was written.

## Main definitions

* `WordMap.WritesAs`, `SourceFile.WritesAs`, `FileBindings.WritesAs`, `Program.WritesAs` — the
  documents that stand for a value, with the entries of maps in any order.  The document that
  `encode` gives is one of them, with the keys in ascending order.

## Main statements

* `decodeKey?_encodeKey`, `WordMap.WritesAs.decode?` — a map reads back as a finite map.
* `InferredType.decodeWithin?_encode` — an inferred type reads back if there is room for it.
* `Program.WritesAs.decode?` — the documents of a program read back.
* `Program.snapshot_reads_back` — the text of a program reads back.

## Design notes

**Depth.**  Only inferred types are nested without a bound, and only they need the hypothesis.  An
inferred type takes two levels, one for its record and one for its list of arguments, so `room`
levels of types are read from a document nested `2 * room + 1` deep: the odd level goes unused.
Around the outermost type stand five levels, which leaves `123` of `128`, and the room in them is
`InferredType.maxDepth`.
-/

namespace ApiDocs

open Json

/-! ## Texts and comments -/

@[simp] theorem optional_encodeText? (text : Option String) :
    (Slot.present (encodeText? text)).optional Json.text? = some text :=
  optional_ofOption (fun _ _ => rfl) nofun

@[simp] theorem plain_encodeText? (text : Option String) : Plain (encodeText? text) :=
  plain_ofOption .string text

@[simp] theorem CommentTag.decode?_encode (tag : CommentTag) : decode? tag.encode = some tag := by
  simp [CommentTag.decode?, CommentTag.encode, slots?_object]

@[simp] theorem CommentTag.plain_encode (tag : CommentTag) : Plain tag.encode := by
  simp [CommentTag.encode]

@[simp] theorem Comment.decode?_encode (comment : Comment) :
    decode? comment.encode = some comment := by
  simp [Comment.decode?, Comment.encode, slots?_object, list?_map]

@[simp] theorem Comment.plain_encode (comment : Comment) : Plain comment.encode := by
  simp [Comment.encode]

/-! ## Maps -/

theorem decodeKey?_encodeKey (key : UInt32) : decodeKey? (encodeKey key) = some key := by
  have digits : readWhole (Nat.toDigits 10 key.toNat ++ []) =
      some (Nat.toDigits 10 key.toNat, []) :=
    readWhole_toDigits key.toNat fun c first => by cases first
  rw [List.append_nil] at digits
  rw [decodeKey?, encodeKey, String.toList_ofList, digits]
  exact (congrArg (fun n => (nat n).word?) (decimalValue_toDigits _)).trans (word?_word key)

namespace WordMap

variable {α : Type} {encodeValue : α → Json} {map : WordMap α} {document : Json}

/-- The documents of a map: its entries in any order. -/
def WritesAs (encodeValue : α → Json) (map : WordMap α) (document : Json) : Prop :=
  ∃ order : List (UInt32 × α), order.Perm map.entries ∧
    document = .object (order.map fun entry => (encodeKey entry.1, encodeValue entry.2))

theorem writesAs_encode (encodeValue : α → Json) (map : WordMap α) :
    map.WritesAs encodeValue (map.encode encodeValue) :=
  ⟨map.entries, .refl _, rfl⟩

/-- **A map reads back as a finite map**, if its values do. -/
theorem WritesAs.decode? {decodeValue? : Json → Option α}
    (written : map.WritesAs encodeValue document)
    (decodes : ∀ entry ∈ map.entries, decodeValue? (encodeValue entry.2) = some entry.2) :
    WordMap.decode? decodeValue? document = some map := by
  obtain ⟨order, permutes, rfl⟩ := written
  rw [WordMap.decode?, mapM_map_eq_some id, List.map_id]
  · exact congrArg some (ofList_of_perm permutes)
  · intro entry member
    simp [decodeKey?_encodeKey, decodes entry (permutes.mem_iff.1 member)]

theorem WritesAs.plain (written : map.WritesAs encodeValue document)
    (plain : ∀ value, Plain (encodeValue value)) : Plain document := by
  obtain ⟨order, -, rfl⟩ := written
  rw [plain_object, List.forall_mem_map]
  exact fun entry _ => plain entry.2

end WordMap

/-! ## Files -/

namespace SourceFile

variable {file : SourceFile} {document : Json}

/-- The documents of a source file: the nodes that have comments stand in any order. -/
def WritesAs (file : SourceFile) (document : Json) : Prop :=
  ∃ comments, file.commentMap.WritesAs (fun list => .array (list.map Comment.encode)) comments ∧
    document = .object [("file_name", .string file.path), ("text", .string file.text),
      ("arena", file.arena.encode), ("statements", encodeNodes file.statements),
      ("jsdoc", comments)]

theorem writesAs_encode (file : SourceFile) : file.WritesAs file.encode :=
  ⟨_, file.commentMap.writesAs_encode _, rfl⟩

theorem WritesAs.decode? (written : file.WritesAs document) :
    SourceFile.decode? document = some file := by
  obtain ⟨comments, writtenComments, rfl⟩ := written
  have readComments : WordMap.decode? (Json.list? Comment.decode?) comments =
      some file.commentMap :=
    writtenComments.decode? fun _ _ => list?_map fun comment _ => comment.decode?_encode
  simp [SourceFile.decode?, slots?_object, readComments]

theorem WritesAs.plain (written : file.WritesAs document) : Plain document := by
  obtain ⟨comments, writtenComments, rfl⟩ := written
  simp [writtenComments.plain]

end SourceFile

/-! ## Symbols -/

@[simp] theorem SymbolId.decode?_encode (id : SymbolId) : decode? id.encode = some id := by
  simp [SymbolId.decode?, SymbolId.encode]

@[simp] theorem SymbolId.plain_encode (id : SymbolId) : Plain id.encode := plain_word _

@[simp] theorem optional_encodeSymbolId (id : Option SymbolId) :
    (Slot.present (.ofOption SymbolId.encode id)).optional SymbolId.decode? = some id :=
  optional_ofOption (fun inner _ => inner.decode?_encode) nofun

@[simp] theorem DeclarationSite.decode?_encode (site : DeclarationSite) :
    decode? site.encode = some site := by
  simp [DeclarationSite.decode?, DeclarationSite.encode, slots?_object]

@[simp] theorem DeclarationSite.plain_encode (site : DeclarationSite) : Plain site.encode := by
  simp [DeclarationSite.encode]

@[simp] theorem Symbol.decode?_encode (symbol : Symbol) : decode? symbol.encode = some symbol := by
  simp [Symbol.decode?, Symbol.encode, slots?_object, list?_map]

@[simp] theorem Symbol.plain_encode (symbol : Symbol) : Plain symbol.encode := by
  simp [Symbol.encode, plain_ofOption]

/-! ## The checker's answers -/

namespace InferredType

theorem encodeList_eq_map (types : List InferredType) : encodeList types = types.map encode := by
  induction types with
  | nil => rfl
  | cons first types ih => rw [encodeList, ih, List.map_cons]

theorem encode_eq (type : InferredType) :
    type.encode = .object [("text", .string type.text),
      ("symbol", .ofOption SymbolId.encode type.symbol),
      ("type_arguments", .array (type.arguments.map encode))] := by
  obtain ⟨text, symbol, arguments⟩ := type
  rw [encode, encodeList_eq_map]

/-- The list of arguments, even without any, is a level of its own. -/
theorem arguments_depth_lt (type : InferredType) :
    (array (type.arguments.map encode)).depth < type.encode.depth := by
  rw [encode_eq type]
  exact depth_lt_object (List.mem_cons_of_mem _ (List.mem_cons_of_mem _ (List.mem_cons_self ..)))

/-- **An inferred type reads back if there is room** for the types in it. -/
theorem decodeWithin?_encode {room : Nat} : ∀ {type : InferredType},
    type.encode.depth ≤ 2 * room + 1 → decodeWithin? room type.encode = some type := by
  induction room with
  | zero =>
      intro type shallow
      have inType := type.arguments_depth_lt
      simp only [Json.depth] at inType
      omega
  | succ room ih =>
      intro type shallow
      have inType := type.arguments_depth_lt
      have arguments : list? (decodeWithin? room) (array (type.arguments.map encode)) =
          some type.arguments := by
        refine list?_map fun argument member => ih ?_
        have inList := depth_lt_array (List.mem_map_of_mem (f := encode) member)
        omega
      obtain ⟨text, symbol, list⟩ := type
      rw [encode_eq]
      simp [decodeWithin?, slots?_object, arguments]

mutual

theorem plain_encode : ∀ type : InferredType, Plain type.encode
  | ⟨text, symbol, arguments⟩ => by
      have list := plain_encodeList arguments
      simpa [encode, plain_ofOption] using list

theorem plain_encodeList : ∀ types : List InferredType, ∀ item ∈ encodeList types, Plain item
  | [], _, member => by cases member
  | type :: types, item, member => by
      rcases List.mem_cons.1 member with rfl | later
      · exact plain_encode type
      · exact plain_encodeList types item later

end

end InferredType

theorem InferredSignature.decodeWithin?_encode {room : Nat} {signature : InferredSignature}
    (shallow : signature.encode.depth ≤ 2 * room + 2) :
    decodeWithin? room signature.encode = some signature := by
  have returnType : (Slot.present (.ofOption InferredType.encode signature.returnType)).optional
      (InferredType.decodeWithin? room) = some signature.returnType := by
    refine optional_ofOption (fun type isType => InferredType.decodeWithin?_encode ?_)
      fun type => ?_
    · have inside : type.encode.depth < signature.encode.depth := by
        rw [encode, isType]
        exact depth_lt_object (List.mem_cons_self ..)
      omega
    · rw [InferredType.encode_eq]
      nofun
  simp [decodeWithin?, encode, slots?_object, returnType]

@[simp] theorem InferredSignature.plain_encode (signature : InferredSignature) :
    Plain signature.encode := by
  simp [encode, plain_ofOption, InferredType.plain_encode]

namespace FileBindings

variable {answers : FileBindings} {document : Json}

/-- The documents of the checker's answers for a file: the nodes stand in any order. -/
def WritesAs (answers : FileBindings) (document : Json) : Prop :=
  ∃ symbols signatures, answers.symbols.WritesAs SymbolId.encode symbols ∧
    answers.signatures.WritesAs InferredSignature.encode signatures ∧
    document = .object [("node_symbols", symbols), ("signatures", signatures)]

theorem writesAs_encode (answers : FileBindings) : answers.WritesAs answers.encode :=
  ⟨_, _, answers.symbols.writesAs_encode _, answers.signatures.writesAs_encode _, rfl⟩

theorem signature_depth_le {entry : UInt32 × InferredSignature}
    (member : entry ∈ answers.signatures.entries) :
    entry.2.encode.depth + 2 ≤ answers.encode.depth := by
  have inMap : entry.2.encode.depth < (answers.signatures.encode InferredSignature.encode).depth :=
    depth_lt_object (List.mem_map_of_mem
      (f := fun entry => (encodeKey entry.1, InferredSignature.encode entry.2)) member)
  have inAnswers : (answers.signatures.encode InferredSignature.encode).depth <
      answers.encode.depth := depth_lt_object (List.mem_cons_of_mem _ (List.mem_cons_self ..))
  omega

theorem WritesAs.decode? (written : answers.WritesAs document)
    (shallow : answers.encode.depth ≤ 2 * InferredType.maxDepth + 4) :
    FileBindings.decode? document = some answers := by
  obtain ⟨symbols, signatures, writtenSymbols, writtenSignatures, rfl⟩ := written
  have readSymbols : WordMap.decode? SymbolId.decode? symbols = some answers.symbols :=
    writtenSymbols.decode? fun entry _ => entry.2.decode?_encode
  have readSignatures :
      WordMap.decode? (InferredSignature.decodeWithin? InferredType.maxDepth) signatures =
        some answers.signatures := by
    refine writtenSignatures.decode? fun entry member => InferredSignature.decodeWithin?_encode ?_
    have inside := signature_depth_le member
    omega
  simp [FileBindings.decode?, slots?_object, readSymbols, readSignatures]

theorem WritesAs.plain (written : answers.WritesAs document) : Plain document := by
  obtain ⟨symbols, signatures, writtenSymbols, writtenSignatures, rfl⟩ := written
  simp [writtenSymbols.plain, writtenSignatures.plain]

end FileBindings

/-! ## Programs -/

namespace Program

variable {program : Program} {document : Json}

/-- The documents of a program: every map in it is written in any order. -/
def WritesAs (program : Program) (document : Json) : Prop :=
  ∃ files bindings, List.Forall₂ SourceFile.WritesAs program.files.toList files ∧
    List.Forall₂ FileBindings.WritesAs program.bindings.toList bindings ∧
    document = .object [("files", .array files),
      ("symbols", .object [("symbols", .array (program.symbols.toList.map Symbol.encode))]),
      ("bindings", .array bindings)]

theorem writesAs_encode (program : Program) : program.WritesAs program.encode :=
  ⟨_, _, List.forall₂_map_right_iff.2 (List.forall₂_same.2 fun file _ => file.writesAs_encode),
    List.forall₂_map_right_iff.2 (List.forall₂_same.2 fun answers _ => answers.writesAs_encode),
    rfl⟩

theorem bindings_depth_le {answers : FileBindings} (member : answers ∈ program.bindings.toList) :
    answers.encode.depth + 2 ≤ program.encode.depth := by
  have inList := depth_lt_array (List.mem_map_of_mem (f := FileBindings.encode) member)
  have inProgram : (array (program.bindings.toList.map FileBindings.encode)).depth <
      program.encode.depth :=
    depth_lt_object (List.mem_cons_of_mem _ (List.mem_cons_of_mem _ (List.mem_cons_self ..)))
  omega

/-- **A document of a program reads back as the program**, whatever the order of its maps. -/
theorem WritesAs.decode? (written : program.WritesAs document)
    (shallow : program.encode.depth ≤ 128) : Program.decode? document = some program := by
  obtain ⟨files, bindings, writtenFiles, writtenBindings, rfl⟩ := written
  have readFiles : list? SourceFile.decode? (array files) = some program.files.toList :=
    list?_of_forall₂ (writtenFiles.imp fun _ _ => SourceFile.WritesAs.decode?)
  have readSymbols : decodeSymbols? (.object [("symbols",
      .array (program.symbols.toList.map Symbol.encode))]) = some program.symbols.toList := by
    simp [decodeSymbols?, slots?_object, list?_map]
  have readBindings : list? FileBindings.decode? (array bindings) =
      some program.bindings.toList := by
    have fits : ∀ answers ∈ program.bindings.toList,
        answers.encode.depth ≤ 2 * InferredType.maxDepth + 4 := by
      intro answers member
      have inside := bindings_depth_le member
      have room : InferredType.maxDepth = 61 := rfl
      omega
    have both := (List.forall₂_and_left _ _).2 ⟨fits, writtenBindings⟩
    exact list?_of_forall₂ (both.imp fun _ _ ⟨shallow, written⟩ => written.decode? shallow)
  simp [Program.decode?, slots?_object, readFiles, readSymbols, readBindings]

theorem WritesAs.plain (written : program.WritesAs document) : Plain document := by
  obtain ⟨files, bindings, writtenFiles, writtenBindings, rfl⟩ := written
  have plainFiles := plain_array_of_forall₂ SourceFile.WritesAs.plain writtenFiles
  have plainBindings := plain_array_of_forall₂ FileBindings.WritesAs.plain writtenBindings
  rw [plain_array] at plainFiles plainBindings
  simpa using ⟨plainFiles, plainBindings⟩

/-- **The text of a program reads back as the program**, so that it is written again as the same
text; and so does every text that has the maps of the program in another order.  The reader stops at
`128` levels, so no deeper program is asked for. -/
theorem snapshot_reads_back (program : Program) (shallow : program.encode.depth ≤ 128) :
    ofText? program.toText = some program ∧
      (ofText? program.toText).map toText = some program.toText ∧
      ∀ document, program.WritesAs document → ofText? document.compact = some program := by
  have reads : ∀ document, program.WritesAs document →
      ofText? document.compact = some program := by
    intro document written
    rw [ofText?, compact, parse?_print Layout.compact_isBlank written.plain]
    exact written.decode? shallow
  have own : ofText? program.toText = some program := reads _ program.writesAs_encode
  exact ⟨own, by rw [own, Option.map_some], reads⟩

/-- A program with what is hard to write: texts with marks and control characters, absent nodes and
lists, a child that is not there, answers for more files than there are, and a type in a type. -/
def crowded : Program where
  files := #[
    { path := "/π/\"quoted\".ts"
      text := "class \\u0041 \x7b\n\t\x01\x7f😀\x7d"
      arena :=
        { nodes := #[
            { kind := .identifier, start := 6, stop := 12, payload := .identifier "\x1f\\\r" },
            { kind := .emptyStatement, flags := 65535, start := 4294967295, stop := 0 },
            { kind := .typeOperator, start := 2, stop := 3
              payload := .typeOperator .readonlyKeyword .absent },
            { kind := .classDeclaration, start := 0, stop := 20
              payload := .classDecl
                { modifiers := some [], name := ⟨0⟩, typeParameters := none, heritage := none
                  members := [⟨1⟩, .absent, ⟨77⟩] } }]
          parents := #[⟨3⟩, .absent] }
      statements := [⟨3⟩, .absent]
      commentMap := .ofList [
        (3, [{ text := some "", tags := [{ word := "param", name := some "x", type := ⟨2⟩ }] }]),
        (0, []), (4294967294, [{}])] }]
  symbols := #[
    { name := "", flags := 4294967295, parent := some ⟨9⟩
      declarations := [{ file := ⟨5⟩, node := .absent }], specifier := some "null" }]
  bindings := #[
    { symbols := .ofList [(10, ⟨1⟩), (9, ⟨4294967295⟩)], signatures := .empty }, .empty,
    { symbols := .empty, signatures := .ofList [(7, {}), (2, { returnType := some mapType })] }]
where
  mapType := ⟨"Map<K, V>", none, [⟨"K", some ⟨0⟩, []⟩, ⟨"", none, []⟩]⟩

/-- The document of the crowded program with the symbols of its first file in descending order. -/
def crowdedTurned : Json :=
  .object [("files", .array (crowded.files.toList.map SourceFile.encode)),
    ("symbols", .object [("symbols", .array (crowded.symbols.toList.map Symbol.encode))]),
    ("bindings", .array (
      .object [("node_symbols", .object [("10", .nat 1), ("9", .nat 4294967295)]),
        ("signatures", .object [])] ::
      (crowded.bindings.toList.drop 1).map FileBindings.encode))]

theorem crowdedTurned_written : crowded.WritesAs crowdedTurned := by
  refine ⟨_, _, List.forall₂_map_right_iff.2
    (List.forall₂_same.2 fun file _ => file.writesAs_encode), ?_, rfl⟩
  have turned : (WordMap.ofList [(10, ⟨1⟩), (9, ⟨4294967295⟩)]).WritesAs SymbolId.encode
      (.object [("10", .nat 1), ("9", .nat 4294967295)]) :=
    ⟨[(10, ⟨1⟩), (9, ⟨4294967295⟩)], .swap .., rfl⟩
  exact .cons ⟨_, _, turned, WordMap.empty.writesAs_encode _, rfl⟩ (List.forall₂_map_right_iff.2
    (List.forall₂_same.2 fun answers _ => answers.writesAs_encode))

/-- The crowded program has ten levels, and both its texts read back. -/
theorem snapshot_reads_back_crowded :
    crowded.encode.depth = 10 ∧ ofText? crowded.toText = some crowded ∧
      (ofText? crowded.toText).map toText = some crowded.toText ∧
      ofText? crowdedTurned.compact = some crowded := by
  have depth : crowded.encode.depth = 10 := by decide
  obtain ⟨own, again, turned⟩ := snapshot_reads_back crowded (by rw [depth]; decide)
  exact ⟨depth, own, again, turned crowdedTurned crowdedTurned_written⟩

end Program

end ApiDocs
