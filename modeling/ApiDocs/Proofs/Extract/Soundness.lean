import ApiDocs.Proofs.Extract.DeclaredTypes
import ApiDocs.Proofs.Resolve.Soundness

/-!
# The documentation mentions sound references only

The types of a module are those of the declarations filed in it, and the resolver makes only sound
references in them.  So **every reference in every module is sound**, at any depth.

## Main statements

* `references_sound` — all references that the documentation of known files mentions are sound.
-/

namespace ApiDocs

open Typed (types)

/-- **All references that the documentation of known files mentions are sound.** -/
theorem references_sound (program : Program) (settings : Settings) (files : List FileId)
    (known : ∀ file ∈ files, (program.file? file).isSome = true) :
    ∃ documentation, extractFiles program settings files = .ok documentation ∧
      ∀ target, documentation.Mentions target →
        target.Sound program settings.baseDirectory settings.builtins := by
  obtain ⟨documentation, succeeds, collected⟩ := extractFiles_collected program settings known
  refine ⟨documentation, succeeds, ?_⟩
  rintro target ⟨id, module, type, found, inside, mentions⟩
  have content : type ∈ types module.content := inside
  rw [collected.content_eq found] at content
  obtain ⟨declaration, declared, isType⟩ := DocModule.types_ofDeclarations content
  obtain ⟨filing, -, isDeclared⟩ := List.mem_filterMap.1 declared
  obtain ⟨inner, contains, points⟩ := mentions.exists_contains
  have made := Resolver.makes_declaration isDeclared type isType inner contains
  exact Resolver.sound_of_makes made points

/-- A file that declares the enum `Color` and, with it, the type `Paint`. -/
def paintFile : SourceFile :=
  .ofNodes "/project/shapes/paint.ts" "enum Color { red } type Paint = Color.red | Date;"
    #[{ kind := .identifier, start := 5, stop := 10, payload := .identifier "Color" },
      { kind := .enumDeclaration, start := 0, stop := 18
        payload := .enumDecl { modifiers := none, name := ⟨0⟩, members := [] } },
      { kind := .identifier, start := 24, stop := 29, payload := .identifier "Paint" },
      { kind := .identifier, start := 32, stop := 37, payload := .identifier "Color" },
      { kind := .identifier, start := 38, stop := 41, payload := .identifier "red" },
      { kind := .qualifiedName, start := 32, stop := 41, payload := .qualifiedName ⟨3⟩ ⟨4⟩ },
      { kind := .typeReference, start := 32, stop := 41, payload := .typeReference ⟨5⟩ none },
      { kind := .identifier, start := 44, stop := 48, payload := .identifier "Date" },
      { kind := .typeReference, start := 44, stop := 48, payload := .typeReference ⟨7⟩ none },
      { kind := .unionType, start := 32, stop := 48, payload := .composite [⟨6⟩, ⟨8⟩] },
      { kind := .typeAliasDeclaration, start := 19, stop := 49
        payload := .aliasDecl
          { modifiers := none, name := ⟨2⟩, typeParameters := none, value := ⟨9⟩ } }]
    [⟨1⟩, ⟨10⟩]

/-- The program with that file, and the symbols of the enum and of its member. -/
def paintProgram : Program where
  files := #[paintFile]
  symbols := #[
    { name := "Color", flags := Flag.enumType, declarations := [⟨⟨0⟩, ⟨1⟩⟩] },
    { name := "red", flags := Flag.enumMember, parent := some ⟨0⟩ }]
  bindings := #[{ symbols := .ofList [(4, ⟨1⟩)], signatures := .empty }]

/-- The type mentions the member of the enum and the name of the platform, and both are sound. -/
theorem references_sound_paint :
    let settings : Settings := { baseDirectory := "/project", builtins := ["Date"] }
    let red := Reference.enumMember
      (.declaration ⟨"Color", ["shapes"], false, some .enumType⟩) "red"
    ∃ documentation, extractFiles paintProgram settings [⟨0⟩] = .ok documentation ∧
      documentation.Mentions red ∧ documentation.Mentions (.builtin "Date") ∧
        red.Sound paintProgram "/project" ["Date"] ∧
        (Reference.builtin "Date").Sound paintProgram "/project" ["Date"] := by
  intro settings red
  obtain ⟨documentation, succeeds, sound⟩ := references_sound paintProgram settings [⟨0⟩]
    (by decide)
  have evaluated : (extractFiles paintProgram settings [⟨0⟩]).toOption.bind
      (fun documentation => (documentation.tree.get? 1).map fun module =>
        (types module).flatMap fun type => type.parts.filterMap Ty.target?) =
      some [red, .builtin "Date"] := by
    decide +kernel
  rw [succeeds, Except.toOption, Option.bind_some, Option.map_eq_some_iff] at evaluated
  obtain ⟨module, found, targets⟩ := evaluated
  have mentions : ∀ target ∈ [red, .builtin "Date"], documentation.Mentions target := by
    intro target member
    rw [← targets] at member
    obtain ⟨type, inside, member⟩ := List.mem_flatMap.1 member
    obtain ⟨part, isPart, points⟩ := List.mem_filterMap.1 member
    exact ⟨1, module, type, found, inside, .inside isPart (.here points)⟩
  have first := mentions red (by simp)
  have second := mentions (.builtin "Date") (by simp)
  exact ⟨documentation, succeeds, first, second, sound _ first, sound _ second⟩

end ApiDocs
