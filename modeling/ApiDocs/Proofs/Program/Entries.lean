import ApiDocs.Program.Decode
import Mathlib.Data.List.Induction

/-!
# What a snapshot has written

A snapshot may leave out its list of answers or the maps in it, may write a record as an object or
as an array, and may repeat the key of a node.  Whatever it does, **a program that was read holds
for each node of each file what was written last for it**, and nothing else.

## Main definitions

* `Json.fieldOf?`, `Json.item?`, `Json.lastAt?` — what a document has written in a record, in a list
  and in a map.
* `Program.written?` — what the document of a program has written for a node of a file.
* `Program.stored?` — what a program holds for a node of a file.

## Main statements

* `foldl_last` — where each step writes a value or keeps it, the last one written counts.
* `Json.getElem?_of_slot`, `WordMap.find?_of_slot` — a list has what is written at each place, and a
  map what is written last for each key.
* `Program.stored?_of_decode?` — a program holds what its document has written.
-/

namespace ApiDocs

/-- **The last one written counts.**  Where each step either writes a value or keeps the one that is
there, a run ends with the last value written, or with the first one if none was. -/
theorem foldl_last {σ ι α : Type} {step : σ → ι → σ} (look : σ → Option α) {write? : ι → Option α}
    (each : ∀ state item, look (step state item) = (write? item).or (look state))
    (start : σ) (items : List ι) :
    look (items.foldl step start) = (items.filterMap write?).getLast?.or (look start) := by
  induction items using List.reverseRecOn with
  | nil => rfl
  | append_singleton items item ih =>
      rw [List.foldl_append, List.foldl_cons, List.foldl_nil, each, ih, List.filterMap_append]
      cases written : write? item with
      | none => simp [written]
      | some value => simp [written]

/-! ## Lists -/

/-- Where all items of a list are read, the values are what the items are read as. -/
theorem map_of_mapM {α β : Type} {read? : α → Option β} {items : List α} {list : List β}
    (reads : items.mapM read? = some list) : items.map read? = list.map some := by
  induction items generalizing list with
  | nil => cases reads; rfl
  | cons item items ih =>
      simp only [List.mapM_cons, Option.bind_eq_bind, Option.bind_eq_some_iff] at reads
      obtain ⟨value, here, values, rest, isList⟩ := reads
      cases isList
      rw [List.map_cons, List.map_cons, here, ih rest]

theorem eq_bind_of_map {α β : Type} {read? : α → Option β} {item : Option α} {value : Option β}
    (reads : item.map read? = value.map some) : value = item.bind read? := by
  cases item with
  | none => exact Option.map_eq_none_iff.1 reads.symm
  | some item =>
      obtain ⟨value, rfl, isValue⟩ := Option.map_eq_some_iff.1 reads.symm
      exact isValue

/-! ## Documents -/

/-- What was written for a field, if anything was. -/
def Slot.value? : Slot → Option Json
  | present value => some value
  | _ => none

namespace Json

/-- What is written for one of the fields of a record, whether as an object or as an array. -/
def fieldOf? (names : List String) (name : String) (document : Json) : Option Json :=
  (document.slots? names).bind fun slots => slots[names.idxOf name]?.bind Slot.value?

/-- What is written at a place of a list. -/
def item? (place : Nat) : Json → Option Json
  | array items => items[place]?
  | _ => none

/-- What is written last for the key of a map. -/
def lastAt? (key : UInt32) : Json → Option Json
  | object fields =>
    (fields.filterMap fun field =>
      if decodeKey? field.1 = some key then some field.2 else none).getLast?
  | _ => none

/-- **A list that was read has at each place what is written there**; a list that was left out is
empty. -/
theorem getElem?_of_slot {α : Type} {decode? : Json → Option α} {slot : Slot} {list : List α}
    (reads : slot.withDefault [] (list? decode?) = some list) (place : Nat) :
    (slot.value?.bind (item? place)).map decode? = list[place]?.map some := by
  cases slot with
  | present document =>
      cases document with
      | array items =>
          have same : (items.map decode?)[place]? = (list.map some)[place]? := by
            rw [map_of_mapM reads]
          rwa [List.getElem?_map, List.getElem?_map] at same
      | _ => cases reads
  | missing => cases reads; rfl
  | cutOff => cases reads; rfl

end Json

namespace WordMap

variable {α : Type}

/-- A map holds the last value that was inserted for a key. -/
theorem find?_ofList (pairs : List (UInt32 × α)) (key : UInt32) :
    (ofList pairs).find? key =
      (pairs.filterMap fun pair => if pair.1 = key then some pair.2 else none).getLast? := by
  have each : ∀ (map : WordMap α) (pair : UInt32 × α), (map.insert pair.1 pair.2).find? key =
      (if pair.1 = key then some pair.2 else none).or (map.find? key) := by
    intro map pair
    rw [find?_insert]
    by_cases same : pair.1 = key
    · simp [same]
    · simp [same, Ne.symm same]
  exact (foldl_last (find? · key) each {} pairs).trans (Option.or_none ..)

/-- Of the fields of an object and of the pairs read from them, the same ones have a key. -/
theorem filterMap_key_of_mapM {decodeValue? : Json → Option α} (key : UInt32)
    {fields : List (String × Json)} {pairs : List (UInt32 × α)}
    (reads : fields.mapM (fun (name, value) => do
      some (← decodeKey? name, ← decodeValue? value)) = some pairs) :
    (fields.filterMap fun field =>
        if decodeKey? field.1 = some key then some field.2 else none).map decodeValue? =
      (pairs.filterMap fun pair => if pair.1 = key then some pair.2 else none).map some := by
  induction fields generalizing pairs with
  | nil => cases reads; rfl
  | cons field fields ih =>
      simp only [List.mapM_cons, Option.bind_eq_bind, Option.bind_eq_some_iff] at reads
      obtain ⟨pair, ⟨own, isKey, value, isValue, isPair⟩, others, rest, isList⟩ := reads
      cases isPair
      cases isList
      by_cases same : own = key
      · simp [isKey, isValue, same, ih rest]
      · simp [isKey, same, ih rest]

/-- **A map that was read holds what is written last for each key**; a map that was left out is
empty. -/
theorem find?_of_slot {decodeValue? : Json → Option α} {slot : Slot} {map : WordMap α}
    (reads : slot.withDefault .empty (WordMap.decode? decodeValue?) = some map) (key : UInt32) :
    map.find? key = (slot.value?.bind (Json.lastAt? key)).bind decodeValue? := by
  cases slot with
  | present document =>
      cases document with
      | object fields =>
          obtain ⟨pairs, readPairs, isMap⟩ := Option.bind_eq_some_iff.1 reads
          cases isMap
          rw [find?_ofList]
          have last := congrArg List.getLast? (filterMap_key_of_mapM key readPairs)
          rw [List.getLast?_map, List.getLast?_map] at last
          exact eq_bind_of_map last
      | _ => cases reads
  | missing => cases reads; rfl
  | cutOff => cases reads; rfl

end WordMap

/-! ## Answers -/

namespace FileBindings

/-- What the document of the answers for a file has written for a node, in the map with a name. -/
def written? (name : String) (node : NodeIndex) (document : Json) : Option Json :=
  (document.fieldOf? ["node_symbols", "signatures"] name).bind (Json.lastAt? node.raw)

variable {document : Json} {answers : FileBindings}

theorem find?_of_decode? (reads : FileBindings.decode? document = some answers)
    (node : NodeIndex) :
    answers.symbols.find? node.raw =
        (written? "node_symbols" node document).bind SymbolId.decode? ∧
      answers.signatures.find? node.raw = (written? "signatures" node document).bind
        (InferredSignature.decodeWithin? InferredType.maxDepth) := by
  rw [FileBindings.decode?] at reads
  split at reads
  · rename_i symbols signatures isRecord
    simp only [Option.bind_eq_bind, Option.bind_eq_some_iff] at reads
    obtain ⟨_, readSymbols, _, readSignatures, isAnswers⟩ := reads
    cases isAnswers
    rw [written?, written?, Json.fieldOf?, Json.fieldOf?, isRecord]
    exact ⟨WordMap.find?_of_slot readSymbols _, WordMap.find?_of_slot readSignatures _⟩
  · cases reads

end FileBindings

namespace Program

/-- What the document of a program has written for a node of a file, in the map with a name. -/
def written? (name : String) (document : Json) (file : FileId) (node : NodeIndex) : Option Json :=
  ((document.fieldOf? ["files", "symbols", "bindings"] "bindings").bind
    (Json.item? file.toNat)).bind (FileBindings.written? name node)

/-- What a program holds for a node of a file, in one of the maps. -/
def stored? {α : Type} (select : FileBindings → WordMap α) (program : Program) (file : FileId)
    (node : NodeIndex) : Option α :=
  program.bindings[file.toNat]?.bind fun answers => (select answers).find? node.raw

variable {document : Json} {program : Program}

/-- The answers for a file are what was written at its place of the list. -/
theorem bindings_of_decode? (reads : Program.decode? document = some program) (file : FileId) :
    ((document.fieldOf? ["files", "symbols", "bindings"] "bindings").bind
      (Json.item? file.toNat)).map FileBindings.decode? =
        program.bindings[file.toNat]?.map some := by
  rw [Program.decode?] at reads
  split at reads
  · rename_i files symbols bindings isRecord
    simp only [Option.bind_eq_bind, Option.bind_eq_some_iff] at reads
    obtain ⟨_, -, _, -, list, readBindings, isProgram⟩ := reads
    cases isProgram
    rw [Json.fieldOf?, isRecord, List.getElem?_toArray]
    exact Json.getElem?_of_slot readBindings _
  · cases reads

/-- **A program that was read holds what its document has written.** -/
theorem stored?_of_decode? (reads : Program.decode? document = some program) (file : FileId)
    (node : NodeIndex) :
    program.stored? FileBindings.symbols file node =
        (written? "node_symbols" document file node).bind SymbolId.decode? ∧
      program.stored? FileBindings.signatures file node =
        (written? "signatures" document file node).bind
          (InferredSignature.decodeWithin? InferredType.maxDepth) := by
  have bindings := bindings_of_decode? reads file
  rw [stored?, stored?, written?, written?]
  generalize (document.fieldOf? ["files", "symbols", "bindings"] "bindings").bind
    (Json.item? file.toNat) = entry at bindings ⊢
  cases entry with
  | none =>
      rw [Option.map_eq_none_iff.1 bindings.symm]
      exact ⟨rfl, rfl⟩
  | some entry =>
      obtain ⟨answers, isAnswers, readAnswers⟩ := Option.map_eq_some_iff.1 bindings.symm
      rw [isAnswers]
      exact FileBindings.find?_of_decode? readAnswers.symm node

end Program

end ApiDocs
