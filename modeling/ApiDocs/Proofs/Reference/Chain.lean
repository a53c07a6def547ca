import ApiDocs.Proofs.Settling
import ApiDocs.Reference.Chain

/-!
# Chains of modules

The namespaces around a symbol are found by a bounded walk along its parents.  Here the chain is
described without a bound, link by link, and the two are proved to agree: a chain that ends meets no
symbol twice, so it is no longer than the table of symbols.

## Main definitions

* `Program.ModuleChain` — the modules met from a parent upwards, innermost first.

## Main statements

* `ModuleChain.length_le` — a chain is no longer than the table of symbols.
* `namespaceChain_eq` — the bounded walk finds the chain.
-/

namespace ApiDocs

namespace Program

/-- The names of the modules met from a parent upwards, innermost first.  The chain ends where there
is no parent, and before the first parent that is no module. -/
inductive ModuleChain (program : Program) : Option SymbolId → List String → Prop
  | root : ModuleChain program none []
  | stop {id : SymbolId}
      (noModule : ∀ symbol, program.symbol? id = some symbol →
        symbol.hasAny Flag.module = false) :
      ModuleChain program (some id) []
  | module {id : SymbolId} {symbol : Symbol} {names : List String}
      (found : program.symbol? id = some symbol) (isModule : symbol.hasAny Flag.module = true)
      (above : ModuleChain program symbol.parent names) :
      ModuleChain program (some id) (symbol.name :: names)

namespace ModuleChain

variable {program : Program} {parent : Option SymbolId} {names : List String}

theorem unique (chain : program.ModuleChain parent names) :
    ∀ {others : List String}, program.ModuleChain parent others → names = others := by
  induction chain with
  | root =>
      intro others other
      cases other
      rfl
  | stop noModule =>
      intro others other
      cases other with
      | stop _ => rfl
      | module found isModule above =>
          rw [noModule _ found] at isModule
          cases isModule
  | module found isModule above ih =>
      intro others other
      cases other with
      | stop noModule =>
          rw [noModule _ found] at isModule
          cases isModule
      | module sameFound _ sameAbove =>
          obtain rfl := Option.some.inj (found.symm.trans sameFound)
          rw [ih sameAbove]

/-- The symbols of a chain are distinct.  Each of them starts a chain of its own, and these get
shorter on the way up. -/
theorem exists_nodup (chain : program.ModuleChain parent names) :
    ∃ ids : List SymbolId, ids.length = names.length ∧ ids.Nodup ∧
      ∀ id ∈ ids, id.toNat < program.symbols.size ∧
        ∃ rest, program.ModuleChain (some id) rest ∧ rest.length ≤ names.length := by
  induction chain with
  | root => exact ⟨[], rfl, .nil, by simp⟩
  | stop noModule => exact ⟨[], rfl, .nil, by simp⟩
  | @module id symbol names found isModule above ih =>
      obtain ⟨ids, length, nodup, each⟩ := ih
      have inside : id.toNat < program.symbols.size := (Array.getElem?_eq_some_iff.1 found).1
      -- A symbol met again would start a chain that is longer than itself.
      have new : id ∉ ids := by
        intro member
        obtain ⟨-, rest, again, short⟩ := each id member
        have same := (ModuleChain.module found isModule above).unique again
        rw [← same, List.length_cons] at short
        omega
      refine ⟨id :: ids, by simp [length], List.nodup_cons.2 ⟨new, nodup⟩, ?_⟩
      intro other member
      rcases List.mem_cons.1 member with rfl | inRest
      · exact ⟨inside, _, .module found isModule above, Nat.le_refl _⟩
      · obtain ⟨otherInside, rest, otherChain, short⟩ := each other inRest
        exact ⟨otherInside, rest, otherChain, Nat.le_succ_of_le short⟩

/-- A chain is no longer than the table of symbols. -/
theorem length_le (chain : program.ModuleChain parent names) :
    names.length ≤ program.symbols.size := by
  obtain ⟨ids, length, nodup, each⟩ := chain.exists_nodup
  rw [← length]
  exact length_le_of_nodup SymbolId.toNat_injective nodup fun id isSymbol => (each id isSymbol).1

end ModuleChain

theorem modulesUpward_eq {program : Program} {parent : Option SymbolId} {names : List String}
    (chain : program.ModuleChain parent names) :
    ∀ {bound : Nat}, names.length ≤ bound → program.modulesUpward bound parent = names := by
  induction chain with
  | root =>
      intro bound enough
      cases bound <;> rfl
  | @stop id noModule =>
      intro bound enough
      cases bound with
      | zero => rfl
      | succ bound =>
          rw [modulesUpward]
          cases found : program.symbol? id with
          | none => rfl
          | some symbol => simp [noModule symbol found]
  | @module id symbol names found isModule above ih =>
      intro bound enough
      cases bound with
      | zero => cases enough
      | succ bound =>
          rw [modulesUpward]
          simp only [found, isModule, if_true]
          rw [ih (Nat.le_of_succ_le_succ enough)]

/-- The namespaces around a symbol are those of its chain, outermost first. -/
theorem namespaceChain_eq {program : Program} {symbol : Symbol} {names : List String}
    (chain : program.ModuleChain symbol.parent names.reverse) :
    program.namespaceChain symbol = names := by
  rw [namespaceChain, symbolBound, modulesUpward_eq chain chain.length_le, List.reverse_reverse]

end Program

end ApiDocs
