import ApiDocs.Proofs.Resolve.Made
import ApiDocs.Proofs.Resolve.Memory

/-!
# Resolved references are sound

A reference is made at many places of the resolver, and each place has its own order of fallbacks.
Whatever the place, a reference that is not just a written name **stands for something**: for a
listed symbol of the program, with the place where that symbol is documented, for a name of the
platform, or for a member of an enum whose own reference is one of the first kind.

## Main definitions

* `ReferenceTarget.Describes` — a target says where a symbol is documented.
* `Reference.Sound` — what a reference may be.

## Main statements

* `locate?_describes` — what the index derives for a symbol describes that symbol.
* `yields_symbolReference`, `yields_typeName`, `yields_heritageName` — the places where references
  are made.
* `sound_of_names`, `sound_of_makes` — what a name of a file stands for is sound, and so is what a
  type points at that the resolver makes.
-/

namespace ApiDocs

/-! ## Soundness -/

/-- Nothing places a symbol inside the project: it is declared nowhere, or first in a file that is
unknown or not below the base directory. -/
def Symbol.Outside (symbol : Symbol) (program : Program) (base : String) : Prop :=
  ∀ site, symbol.declarations.head? = some site → ∀ file, program.file? site.file = some file →
    Path.segments? base file.path = none

/-- The target of a reference says what a listed symbol is and where it is documented: under its
module specifier if it has one, without a path if nothing places it inside the project, and
otherwise in the directories of its first file, below the namespaces around it. -/
structure ReferenceTarget.Describes (target : ReferenceTarget) (program : Program) (base : String)
    (symbol : Symbol) : Prop where
  name : target.name = symbol.name
  noPlaceholder : symbol.hasAny Flag.internal = false
  noTypeParameter : symbol.hasAny Flag.typeParameter = false
  kind : target.kind = DeclarationKind.ofFlags? symbol.flags
  place :
    (∃ specifier, symbol.specifier = some specifier ∧ target.external = true ∧
      target.path = [specifier]) ∨
    (symbol.specifier = none ∧ symbol.Outside program base ∧ target.external = true ∧
      target.path = []) ∨
    (symbol.specifier = none ∧ ∃ site file segments, symbol.declarations.head? = some site ∧
      program.file? site.file = some file ∧ Path.segments? base file.path = some segments ∧
      target.external = false ∧ target.path = segments ++ program.namespaceChain symbol)

/-- What a reference may be, in a program with a base directory and names of the platform. -/
def Reference.Sound (program : Program) (base : String) (builtins : List String) :
    Reference → Prop
  | declaration target => ∃ symbol ∈ program.symbols, target.Describes program base symbol
  | builtin name => name ∈ builtins
  | enumMember owner member => ∃ symbol ∈ program.symbols, ∃ id enum target,
      symbol.hasAny Flag.enumMember = true ∧ (symbol.name ≠ "" → member = symbol.name) ∧
        symbol.parent = some id ∧ program.symbol? id = some enum ∧
        owner = declaration target ∧ target.Describes program base enum
  | written _ => True

namespace Program

variable {program : Program} {base : String}

theorem mem_of_symbol? {id : SymbolId} {symbol : Symbol}
    (found : program.symbol? id = some symbol) : symbol ∈ program.symbols :=
  Array.mem_of_getElem? found

/-- Where nothing leads to a module, the symbol lies outside the project. -/
theorem outside_of_modulePath? {symbol : Symbol} (lost : program.modulePath? base symbol = none) :
    symbol.Outside program base := by
  intro site declared file known
  simp only [modulePath?, declared, known, Option.bind_eq_bind, Option.bind_some,
    Option.bind_eq_none_iff] at lost
  cases below : Path.segments? base file.path with
  | none => rfl
  | some segments => cases lost segments below

/-- What the index derives for a symbol describes that symbol. -/
theorem locate?_describes {id : SymbolId} {reference : Reference}
    (located : program.locate? base id = some reference) :
    ∃ symbol target, program.symbol? id = some symbol ∧ reference = .declaration target ∧
      target.Describes program base symbol := by
  rw [locate?] at located
  cases found : program.symbol? id with
  | none => simp [found] at located
  | some symbol =>
      simp only [found] at located
      split at located
      · cases located
      · rename_i listed
        obtain ⟨noPlaceholder, noTypeParameter⟩ :=
          Flag.meets_or_eq_false.1 (Bool.eq_false_iff.2 listed)
        obtain rfl := Option.some.inj located
        rw [referenceOf]
        cases specified : symbol.specifier with
        | some specifier =>
            exact ⟨symbol, _, rfl, rfl, rfl, noPlaceholder, noTypeParameter, rfl,
              .inl ⟨specifier, specified, rfl, rfl⟩⟩
        | none =>
            cases placed : program.modulePath? base symbol with
            | none =>
                exact ⟨symbol, _, rfl, rfl, rfl, noPlaceholder, noTypeParameter, rfl,
                  .inr (.inl ⟨specified, outside_of_modulePath? placed, rfl, rfl⟩)⟩
            | some path =>
                have way := placed
                simp only [modulePath?, Option.bind_eq_bind, Option.bind_eq_some_iff] at way
                obtain ⟨site, declared, file, known, segments, below, same⟩ := way
                exact ⟨symbol, _, rfl, rfl, rfl, noPlaceholder, noTypeParameter, rfl,
                  .inr (.inr ⟨specified, site, file, segments, declared, known, below, rfl,
                    (Option.some.inj same).symm⟩)⟩

/-- What the index derives for a symbol is sound. -/
theorem locate?_sound {builtins : List String} {id : SymbolId} {reference : Reference}
    (located : program.locate? base id = some reference) :
    reference.Sound program base builtins := by
  obtain ⟨symbol, target, found, rfl, describes⟩ := locate?_describes located
  exact ⟨symbol, mem_of_symbol? found, describes⟩

end Program

namespace Resolver

variable (program : Program) (base : String) (builtins : List String)

/-! ## Names -/

/-- What the index knows about a name is sound. -/
theorem yields_qualifiedName? (dotted : String) :
    Yields (fun answer => ∀ reference, answer = some reference →
        reference.Sound program base builtins)
      ((direct program base builtins).qualifiedName? dotted) := by
  simp only [qualifiedName?]
  split
  · rename_i qualifier last _
    intro reference found
    obtain ⟨id, -, located⟩ := Option.bind_eq_some_iff.1 found
    exact Program.locate?_sound located
  · intro reference found
    cases found

theorem unresolved_sound (name : String) :
    ((direct program base builtins).unresolved name).Sound program base builtins := by
  rw [unresolved]
  split
  · rename_i builtin
    exact List.contains_iff_mem.1 builtin
  · trivial

/-- The reference of a symbol is sound.  Of an enum member it is the member of a listed enum, whose
own reference is the declaration of the enum. -/
theorem yields_symbolReference (id : SymbolId) (fallback : String) :
    Yields (Reference.Sound program base builtins)
      ((direct program base builtins).symbolReference id fallback) := by
  rw [symbolReference]
  cases found : (direct program base builtins).program.symbol? id with
  | none => trivial
  | some symbol =>
      have listed : symbol ∈ program.symbols := Program.mem_of_symbol? found
      dsimp only
      split
      · trivial
      · split
        · rename_i isMember
          cases isParent : symbol.parent with
          | none => trivial
          | some parent =>
              have asked : Yields (· = program.locate? base parent)
                  ((direct program base builtins).index.bySymbol parent) := rfl
              refine asked.bind fun owner isOwner => ?_
              subst isOwner
              cases placed : program.locate? base parent with
              | none => trivial
              | some reference =>
                  obtain ⟨enum, target, isEnum, rfl, describes⟩ :=
                    Program.locate?_describes placed
                  exact ⟨symbol, listed, parent, enum, target, isMember,
                    fun named => if_neg named, isParent, isEnum, rfl, describes⟩
        · show Reference.Sound program base builtins ((program.locate? base id).getD _)
          cases located : program.locate? base id with
          | none => trivial
          | some reference => exact Program.locate?_sound located

/-- The reference of the name in a type is sound. -/
theorem yields_typeName (scope : Scope) (index : NodeIndex) :
    Yields (Reference.Sound program base builtins)
      ((direct program base builtins).typeName scope index) := by
  simp only [typeName]
  split
  · exact .pure (unresolved_sound program base builtins _)
  · split
    · refine (yields_qualifiedName? program base builtins _).bind fun answer sound => .pure ?_
      cases answer with
      | none => exact unresolved_sound program base builtins _
      | some reference => exact sound reference rfl
    · exact yields_symbolReference program base builtins _ _

theorem yields_valueName (scope : Scope) (index : NodeIndex) :
    Yields (Reference.Sound program base builtins)
      ((direct program base builtins).valueName scope index) := by
  simp only [valueName]
  split
  · exact yields_symbolReference program base builtins _ _
  · exact .pure (unresolved_sound program base builtins _)

theorem yields_dottedHeritageName (scope : Scope) (index : NodeIndex) :
    Yields (Reference.Sound program base builtins)
      ((direct program base builtins).dottedHeritageName scope index) := by
  simp only [dottedHeritageName]
  split
  · exact yields_symbolReference program base builtins _ _
  · refine (yields_qualifiedName? program base builtins _).bind fun answer sound => .pure ?_
    cases answer with
    | none => trivial
    | some reference => exact sound reference rfl

/-- The reference of the name of a base type is sound. -/
theorem yields_heritageName (scope : Scope) (index : NodeIndex) :
    Yields (Reference.Sound program base builtins)
      ((direct program base builtins).heritageName scope index) := by
  simp only [heritageName]
  split
  · exact yields_dottedHeritageName program base builtins scope index
  · exact yields_dottedHeritageName program base builtins scope index
  · exact yields_valueName program base builtins scope index
  · exact .pure trivial

/-- The reference of a property access on a module is sound, if there is one. -/
theorem yields_moduleAccess? (scope : Scope) (index : NodeIndex) :
    Yields (fun answer => ∀ reference, answer = some reference →
        reference.Sound program base builtins)
      ((direct program base builtins).moduleAccess? scope index) := by
  simp only [moduleAccess?]
  split
  · split
    · split
      · refine (yields_symbolReference program base builtins _ _).map fun reference sound => ?_
        intro other same
        obtain rfl := Option.some.inj same
        exact sound
      · exact yields_qualifiedName? program base builtins _
    · exact .pure fun reference none => by cases none
  · exact .pure fun reference none => by cases none

/-! ## Whatever a name stands for -/

variable {program base builtins}

/-- What a name of a file stands for is sound. -/
theorem sound_of_names {scope : Scope} {target : Reference}
    (named : (direct program base builtins).Names scope target) :
    target.Sound program base builtins := by
  cases named with
  | written => trivial
  | symbol id text => exact yields_symbolReference program base builtins id text
  | typeName index => exact yields_typeName program base builtins scope index
  | valueName index => exact yields_valueName program base builtins scope index
  | baseName index => exact yields_heritageName program base builtins scope index
  | moduleMember known => exact yields_moduleAccess? program base builtins scope _ target known

/-- **What a type points at, of those that the resolver makes, is sound.** -/
theorem sound_of_makes {scope : Scope} {type : Ty}
    (made : (direct program base builtins).Makes scope type) {target : Reference}
    (points : type.target? = some target) : target.Sound program base builtins := by
  cases made with
  | plain isPlain =>
      cases type with
      | reference => cases isPlain
      | _ => cases points
  | reference named arguments =>
      cases points
      exact sound_of_names named
  | object => cases points

end Resolver

end ApiDocs
