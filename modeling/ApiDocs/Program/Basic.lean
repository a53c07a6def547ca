import ApiDocs.Program.Symbol
import ApiDocs.Syntax.SourceFile

/-!
# Programs

A program is a snapshot of a checked project: its files, its symbols, and the answers of the type
checker for single nodes.

## Main definitions

* `Program.file?`, `Program.symbol?` — look-up by number.
* `Program.symbolAt?`, `Program.signatureAt?` — the checker's answers for a node of a file.
* `Program.symbolsNamed` — the symbols with a name, in the order of the table.
* `Program.addFile`, `Program.addSymbol`, `Program.bind`, `Program.setSignature` — growing a
  program.

## Design notes

**Answers are stored beside the files and not in them.**  The list of answers may be longer or
shorter than the list of files: a binding for a file that is not there yet is kept, and a file
without an entry has no answers.
-/

namespace ApiDocs

/-- A type that the checker inferred: the symbol that names it, if any, and its type arguments. -/
structure InferredType where
  text : String
  symbol : Option SymbolId
  arguments : List InferredType

/-- What the checker inferred for something that takes parameters. -/
structure InferredSignature where
  returnType : Option InferredType := none

/-- The checker's answers for the nodes of one file. -/
structure FileBindings where
  symbols : WordMap SymbolId := {}
  signatures : WordMap InferredSignature := {}

/-- No answers. -/
def FileBindings.empty : FileBindings := {}

/-- A snapshot of a checked project. -/
structure Program where
  files : Array SourceFile := #[]
  symbols : Array Symbol := #[]
  bindings : Array FileBindings := #[]

namespace Program

/-- The file with a number. -/
def file? (program : Program) (id : FileId) : Option SourceFile :=
  program.files[id.toNat]?

/-- The symbol with a number. -/
def symbol? (program : Program) (id : SymbolId) : Option Symbol :=
  program.symbols[id.toNat]?

/-- The numbers of all files, in order. -/
def fileIds (program : Program) : List FileId :=
  (List.range program.files.size).map fun n => ⟨UInt32.ofNat n⟩

/-- The checker's answers for a file; none for a file without an entry. -/
def bindingsOf (program : Program) (file : FileId) : FileBindings :=
  program.bindings[file.toNat]?.getD .empty

/-- The symbol at a node. -/
def symbolAt? (program : Program) (file : FileId) (node : NodeIndex) : Option SymbolId :=
  if node.isPresent then (program.bindingsOf file).symbols.find? node.raw else none

/-- The inferred signature at a node. -/
def signatureAt? (program : Program) (file : FileId) (node : NodeIndex) :
    Option InferredSignature :=
  if node.isPresent then (program.bindingsOf file).signatures.find? node.raw else none

/-- The numbers of the symbols with a name, in the order of the table. -/
def symbolsNamed (program : Program) (name : String) : List SymbolId :=
  program.symbols.toList.zipIdx.filterMap fun (symbol, n) =>
    if symbol.name = name then some ⟨UInt32.ofNat n⟩ else none

/-- Adds a file; answers its number. -/
def addFile (program : Program) (file : SourceFile) : FileId × Program :=
  (⟨UInt32.ofNat program.files.size⟩,
    { program with files := program.files.push file, bindings := program.bindings.push .empty })

/-- Adds a symbol; answers its number. -/
def addSymbol (program : Program) (symbol : Symbol) : SymbolId × Program :=
  (⟨UInt32.ofNat program.symbols.size⟩, { program with symbols := program.symbols.push symbol })

/-- Changes the answers for a file, which get an entry if there is none. -/
def modifyBindings (program : Program) (file : FileId) (change : FileBindings → FileBindings) :
    Program :=
  let missing := file.toNat + 1 - program.bindings.size
  let bindings := program.bindings ++ Array.replicate missing .empty
  { program with bindings := bindings.modify file.toNat change }

/-- Records the symbol at a node; an absent node records nothing. -/
def bind (program : Program) (file : FileId) (node : NodeIndex) (symbol : SymbolId) : Program :=
  if node.isPresent then
    program.modifyBindings file fun answers =>
      { answers with symbols := answers.symbols.insert node.raw symbol }
  else program

/-- Records the inferred signature at a node; an absent node records nothing. -/
def setSignature (program : Program) (file : FileId) (node : NodeIndex)
    (signature : InferredSignature) : Program :=
  if node.isPresent then
    program.modifyBindings file fun answers =>
      { answers with signatures := answers.signatures.insert node.raw signature }
  else program

/-- Changes the file with a number. -/
def modifyFile (program : Program) (id : FileId) (change : SourceFile → SourceFile) : Program :=
  { program with files := program.files.modify id.toNat change }

/-- A bound for walks along acyclic links between symbols. -/
def symbolBound (program : Program) : Nat :=
  program.symbols.size

end Program

end ApiDocs
