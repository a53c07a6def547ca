import ApiDocs.Model.Type
import ApiDocs.Path.Normal
import ApiDocs.Reference.Chain
import ApiDocs.Table

/-!
# The reference index

An index answers where the documentation of a symbol is to be found.  The resolver consults it
through `ReferenceIndex`, which leaves open how answers are obtained: the monad may be `Id`, or
carry what was answered before.

## Main definitions

* `ReferenceIndex` — look-up by symbol and by name.
* `Program.locate?` — the reference of a symbol, derived from its declaration.
* `Program.symbolByName?` — the symbol that a name and an optional qualifier denote.
* `ReferenceIndex.direct` — the index that derives every answer.
* `ReferenceIndex.remembering` — the index that derives an answer once and remembers it.

## Design notes

**Where a symbol is documented.**  A symbol with a module specifier lies outside the project, and
its path is the specifier.  Any other symbol is documented in the module of the file of its first
declaration, below the namespaces that enclose it; if that file is unknown or not below the base
directory, the symbol lies outside and has an empty path.

**The bound** limits the walk to the namespaces around a symbol.  The size of the table is enough
unless the parents of symbols run in a circle.
-/

namespace ApiDocs

/-- Look-up of references, with effects in `m`. -/
structure ReferenceIndex (m : Type → Type) where
  /-- The reference of a symbol. -/
  bySymbol : SymbolId → m (Option Reference)
  /-- The reference of the symbol with a name, written with the given qualifier. -/
  byName : String → Option String → m (Option Reference)
  /-- Whether a name belongs to the platform. -/
  isBuiltin : String → Bool

namespace Program

/-- The path of the module in which a symbol is documented; `none` outside the project. -/
def modulePath? (program : Program) (base : String) (symbol : Symbol)
    (bound : Nat := program.symbolBound) : Option (List String) := do
  let site ← symbol.declarations.head?
  let file ← program.file? site.file
  let segments ← Path.segments? base file.path
  some (segments ++ program.namespaceChain symbol bound)

/-- The reference of a symbol that may be listed. -/
def referenceOf (program : Program) (base : String) (symbol : Symbol)
    (bound : Nat := program.symbolBound) : Reference :=
  let kind := DeclarationKind.ofFlags? symbol.flags
  match symbol.specifier with
  | some specifier => .declaration ⟨symbol.name, [specifier], true, kind⟩
  | none =>
    match program.modulePath? base symbol bound with
    | some path => .declaration ⟨symbol.name, path, false, kind⟩
    | none => .declaration ⟨symbol.name, [], true, kind⟩

/-- The reference of a symbol, derived from its declaration; none for what is not listed. -/
def locate? (program : Program) (base : String) (id : SymbolId)
    (bound : Nat := program.symbolBound) : Option Reference :=
  match program.symbol? id with
  | some symbol =>
    if symbol.hasAny Flag.unlisted then none else some (program.referenceOf base symbol bound)
  | none => none

/-- Whether a symbol may be what a name denotes: it is listed, and with a qualifier its namespaces
end with it. -/
def isCandidate (program : Program) (qualifier : Option String) (id : SymbolId)
    (bound : Nat := program.symbolBound) : Bool :=
  match program.symbol? id with
  | some symbol =>
    !symbol.hasAny Flag.unlisted &&
      qualifier.all (endsWithSegments (".".intercalate (program.namespaceChain symbol bound)))
  | none => false

/-- The first symbol that a name and an optional qualifier denote. -/
def symbolByName? (program : Program) (name : String) (qualifier : Option String)
    (bound : Nat := program.symbolBound) : Option SymbolId :=
  (program.symbolsNamed name).find? fun id => program.isCandidate qualifier id bound

end Program

namespace ReferenceIndex

/-- The index that derives every answer from the program. -/
def direct (program : Program) (base : String) (builtins : List String)
    (bound : Nat := program.symbolBound) : ReferenceIndex Id where
  bySymbol id := program.locate? base id bound
  byName name qualifier :=
    (program.symbolByName? name qualifier bound).bind fun id => program.locate? base id bound
  isBuiltin := builtins.contains

/-- What an index has answered so far. -/
abbrev Memory := Table SymbolId (Option Reference)

/-- The reference of a symbol: the remembered one, or else the derived one, which is remembered.
-/
def remembered (program : Program) (base : String) (id : SymbolId)
    (bound : Nat := program.symbolBound) : StateM Memory (Option Reference) :=
  fun memory =>
    match memory.find? id with
    | some answer => (answer, memory)
    | none =>
      let answer := program.locate? base id bound
      (answer, memory.insert id answer)

/-- The index that remembers what it has answered. -/
def remembering (program : Program) (base : String) (builtins : List String)
    (bound : Nat := program.symbolBound) : ReferenceIndex (StateM Memory) where
  bySymbol id := remembered program base id bound
  byName name qualifier :=
    match program.symbolByName? name qualifier bound with
    | some id => remembered program base id bound
    | none => pure none
  isBuiltin := builtins.contains

end ReferenceIndex

end ApiDocs
