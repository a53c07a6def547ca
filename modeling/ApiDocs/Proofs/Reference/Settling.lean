import ApiDocs.Proofs.Settling
import ApiDocs.Reference.Index

/-!
# Look-ups settle where the parents of symbols end

A look-up walks up the parents of a symbol to find the namespaces around it.  If following parents
ends from every symbol, then the walk **meets every symbol at most once**, and with a bound of at
least the size of the table of symbols every look-up has the same answer.

## Main definitions

* `Program.above` — the parent of a symbol.
* `Program.moduleStep` — one step of the walk upwards.

## Main statements

* `settles_namespaceChain` — the walk settles at the parent of every symbol.
* `locate?_bound`, `symbolByName?_bound` — look-up by symbol and by name with a larger bound.
-/

namespace ApiDocs

open Relation (TransGen)

namespace Program

/-- The parent of a symbol, if there are both. -/
def above (program : Program) (id : Option SymbolId) : Option SymbolId :=
  (id.bind program.symbol?).bind (·.parent)

/-- A symbol has its parent above it. -/
def Upward (program : Program) : Option SymbolId → Option SymbolId → Prop :=
  AcyclicLinks.walk program.above fun id => (id.bind program.symbol?).isSome = true

/-- The place of a symbol in the table. -/
def placeOf (id : Option SymbolId) : Nat :=
  (id.map SymbolId.toNat).getD 0

variable {program : Program}

theorem upward_acyclic (ends : ∀ id, ∃ n, program.above^[n] (some id) = none) :
    AcyclicLinks program.Upward placeOf program.symbols.size := by
  have exists_id : ∀ {id}, (id.bind program.symbol?).isSome = true →
      ∃ known symbol, id = some known ∧ program.symbol? known = some symbol := by
    intro id isSymbol
    obtain ⟨symbol, found⟩ := Option.isSome_iff_exists.1 isSymbol
    obtain ⟨known, rfl, found⟩ := Option.bind_eq_some_iff.1 found
    exact ⟨known, symbol, rfl, found⟩
  have fixed : program.above none = none := rfl
  refine .of_walk fixed (by simp) ?_ ?_ ?_
  · intro id isSymbol
    obtain ⟨known, -, rfl, -⟩ := exists_id isSymbol
    exact ends known
  · intro id isSymbol
    obtain ⟨known, symbol, rfl, found⟩ := exists_id isSymbol
    exact (Array.getElem?_eq_some_iff.1 found).1
  · intro id other isSymbol isOther same
    obtain ⟨known, -, rfl, -⟩ := exists_id isSymbol
    obtain ⟨otherKnown, -, rfl, -⟩ := exists_id isOther
    exact congrArg some (SymbolId.toNat_injective same)

/-- One step of the walk upwards, given the modules met further up. -/
def moduleStep (program : Program) (further : Option SymbolId → List String) :
    Option SymbolId → List String
  | none => []
  | some id =>
    match program.symbol? id with
    | some symbol =>
      if symbol.hasAny Flag.module then symbol.name :: further symbol.parent else []
    | none => []

theorem modulesUpward_succ (program : Program) (bound : Nat) :
    program.modulesUpward (bound + 1) = program.moduleStep (program.modulesUpward bound) := by
  funext id
  cases id with
  | none => rfl
  | some id => rfl

theorem upward_of_symbol? {id : SymbolId} {symbol : Symbol}
    (found : program.symbol? id = some symbol) : program.Upward (some id) symbol.parent :=
  ⟨by simp [found], by simp [above, found]⟩

theorem follows_moduleStep (program : Program) : Follows program.moduleStep program.Upward := by
  intro first second id agree
  cases id with
  | none => rfl
  | some id =>
      cases found : program.symbol? id with
      | none => simp only [moduleStep, found]
      | some symbol =>
          simp only [moduleStep, found]
          rw [agree symbol.parent (.single (upward_of_symbol? found))]

variable (ends : ∀ id, ∃ n, program.above^[n] (some id) = none)
include ends

/-- **The walk around a symbol settles** within the size of the table. -/
theorem settles_namespaceChain {id : SymbolId} {symbol : Symbol}
    (found : program.symbol? id = some symbol) {bound : Nat}
    (enough : program.symbolBound ≤ bound) :
    Settles program.moduleStep program.symbolBound symbol.parent
      (program.namespaceChain symbol bound).reverse := by
  have table := upward_acyclic ends
  -- The symbol itself is left before the walk starts, and does not count any more.
  have low : AcyclicLinks.height program.Upward placeOf program.symbols.size symbol.parent <
      program.symbolBound :=
    calc _ < AcyclicLinks.height program.Upward placeOf program.symbols.size (some id) :=
          table.height_lt (.single (upward_of_symbol? found))
      _ ≤ program.symbols.size := AcyclicLinks.height_le _
  rw [namespaceChain, List.reverse_reverse]
  exact table.settles program.follows_moduleStep program.modulesUpward
    program.modulesUpward_succ low enough

variable {bound : Nat} (enough : program.symbolBound ≤ bound)
include enough

theorem namespaceChain_bound {id : SymbolId} {symbol : Symbol}
    (found : program.symbol? id = some symbol) :
    program.namespaceChain symbol bound = program.namespaceChain symbol :=
  List.reverse_injective ((settles_namespaceChain ends found enough).unique
    (settles_namespaceChain ends found (Nat.le_refl _)))

/-- Look-up by symbol with a larger bound. -/
theorem locate?_bound (base : String) (id : SymbolId) :
    program.locate? base id bound = program.locate? base id := by
  cases found : program.symbol? id with
  | none => simp only [locate?, found]
  | some symbol =>
      simp only [locate?, found, referenceOf, modulePath?, namespaceChain_bound ends enough found]

/-- Look-up by name with a larger bound. -/
theorem symbolByName?_bound (name : String) (qualifier : Option String) :
    program.symbolByName? name qualifier bound = program.symbolByName? name qualifier := by
  have same : ∀ id, program.isCandidate qualifier id bound = program.isCandidate qualifier id := by
    intro id
    cases found : program.symbol? id with
    | none => simp only [isCandidate, found]
    | some symbol => simp only [isCandidate, found, namespaceChain_bound ends enough found]
  simp only [symbolByName?, same]

theorem remembering_bound (base : String) (builtins : List String) :
    ReferenceIndex.remembering program base builtins bound =
      ReferenceIndex.remembering program base builtins := by
  have same : ∀ id, ReferenceIndex.remembered program base id bound =
      ReferenceIndex.remembered program base id := by
    intro id
    funext memory
    simp only [ReferenceIndex.remembered, locate?_bound ends enough]
  simp only [ReferenceIndex.remembering, same, symbolByName?_bound ends enough]

end Program

end ApiDocs
