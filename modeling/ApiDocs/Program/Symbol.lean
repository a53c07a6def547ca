import ApiDocs.Syntax.Node

/-!
# Symbols

What the type checker knows about a name: its flags, the symbol that contains it, where it is
declared, and the module it comes from if it is not part of the project.

## Main definitions

* `Symbol` — a symbol.
* `Symbol.hasAny` — whether a symbol carries one of the flags of a mask.
* `DeclarationKind.ofFlags?` — the kind of declaration that flags imply.
-/

namespace ApiDocs

/-- The number of a file in a program. -/
structure FileId where
  raw : UInt32
deriving DecidableEq

/-- The number of a symbol in a program. -/
structure SymbolId where
  raw : UInt32
deriving DecidableEq

/-- The place of a file in its program. -/
def FileId.toNat (id : FileId) : Nat := id.raw.toNat

/-- The place of a symbol in its table. -/
def SymbolId.toNat (id : SymbolId) : Nat := id.raw.toNat

theorem FileId.toNat_injective : Function.Injective FileId.toNat := by
  rintro ⟨first⟩ ⟨second⟩ same
  exact congrArg FileId.mk (UInt32.toNat_inj.1 same)

theorem SymbolId.toNat_injective : Function.Injective SymbolId.toNat := by
  rintro ⟨first⟩ ⟨second⟩ same
  exact congrArg SymbolId.mk (UInt32.toNat_inj.1 same)

/-! ## The flags of symbols -/
namespace Flag

/-- A variable. -/
def constant : UInt32 := 0x1
/-- A member of an enum. -/
def enumMember : UInt32 := 0x4
/-- A function. -/
def function : UInt32 := 0x8
/-- A class. -/
def classType : UInt32 := 0x10
/-- An interface. -/
def interface : UInt32 := 0x20
/-- An enum. -/
def enumType : UInt32 := 0x40
/-- A type alias. -/
def typeAlias : UInt32 := 0x80
/-- A module or namespace, of types only or with values. -/
def module : UInt32 := 0x300
/-- A type parameter. -/
def typeParameter : UInt32 := 0x800
/-- A placeholder of the checker that is no declaration. -/
def internal : UInt32 := 0x2000

/-- What no reference points at: placeholders and type parameters. -/
def unlisted : UInt32 := internal ||| typeParameter

end Flag

/-- A place where a symbol is declared. -/
structure DeclarationSite where
  file : FileId
  node : NodeIndex

/-- A symbol of the type checker. -/
structure Symbol where
  name : String
  flags : UInt32
  /-- The symbol that contains this one, such as the enum of a member. -/
  parent : Option SymbolId := none
  declarations : List DeclarationSite := []
  /-- The module that a symbol from outside the project comes from. -/
  specifier : Option String := none

/-- Whether a set of flags meets a mask. -/
def Flag.meets (flags mask : UInt32) : Bool :=
  flags &&& mask != 0

/-- A set of flags misses the union of two masks exactly if it misses both. -/
theorem Flag.meets_or_eq_false {flags first second : UInt32} :
    meets flags (first ||| second) = false ↔
      meets flags first = false ∧ meets flags second = false := by
  have distributes : flags &&& (first ||| second) = flags &&& first ||| flags &&& second :=
    UInt32.eq_of_toBitVec_eq BitVec.and_or_distrib_left
  simp only [meets, bne_eq_false_iff_eq, distributes, UInt32.or_eq_zero_iff]

/-- Whether a symbol carries one of the flags of a mask. -/
def Symbol.hasAny (symbol : Symbol) (mask : UInt32) : Bool :=
  Flag.meets symbol.flags mask

/-- The kinds of declarations that a reference can point at. -/
inductive DeclarationKind where
  | classType
  | interface
  | enumType
  | typeAlias
  | function
  | constant
  | module
deriving DecidableEq

/-- The flags that imply a kind of declaration, the ones that count first at the front. -/
def DeclarationKind.ranking : List (UInt32 × DeclarationKind) :=
  [(Flag.classType, .classType), (Flag.interface, .interface), (Flag.enumType, .enumType),
   (Flag.typeAlias, .typeAlias), (Flag.function, .function), (Flag.constant, .constant),
   (Flag.module, .module)]

/-- The kind of declaration that flags imply. -/
def DeclarationKind.ofFlags? (flags : UInt32) : Option DeclarationKind :=
  (ranking.find? fun (mask, _) => Flag.meets flags mask).map (·.2)

end ApiDocs
