import ApiDocs.Proofs.Extract.Declarations

/-!
# Classes and type aliases are replaced whole

A class or a type alias is described by one declaration.  When a name is declared again, in another
file or in another body of the same namespace, the first pass replaces the record, and the second
pass writes over its parts one by one.  Both end with the same declaration: the record of a name is
that of **the last declaration of the name that is filed in the module**, with all its parts.

## Main statements

* `classes_and_aliases_replaced` — the classes and type aliases of every module of the
  documentation.
-/

namespace ApiDocs

namespace DocModule

variable (declarations : List Declaration)

/-- The record of a class is that of its last declaration. -/
theorem find?_classes_ofDeclarations (name : String) :
    (ofDeclarations declarations).classes.find? name =
      ((declarations.filterMap Declaration.class?).filter (·.name = name)).getLast? := by
  rw [classes_ofDeclarations]
  apply Table.find?_replaced
  · intro own other record; rfl
  · intro own; rfl

/-- The record of a type alias is that of its last declaration. -/
theorem find?_aliases_ofDeclarations (name : String) :
    (ofDeclarations declarations).aliases.find? name =
      ((declarations.filterMap Declaration.alias?).filter (·.name = name)).getLast? := by
  rw [aliases_ofDeclarations]
  apply Table.find?_replaced
  · intro own other record; rfl
  · intro own; rfl

end DocModule

/-- **A redeclared class or type alias is never a mixture.**  In the documentation of known files,
which may be listed more than once, the record of a class in a module is in all its parts the one
that the last declaration of its name makes, of those that are filed in the module; the same holds
for type aliases.  A name stands where it was first declared. -/
theorem classes_and_aliases_replaced (program : Program) (settings : Settings)
    (files : List FileId) (known : ∀ file ∈ files, (program.file? file).isSome = true) :
    ∃ documentation, extractFiles program settings files = .ok documentation ∧
      ∀ id module, documentation.tree.get? id = some module →
        let declarations := documentation.declarationsIn program settings files id module
        let classes := declarations.filterMap Declaration.class?
        let aliases := declarations.filterMap Declaration.alias?
        module.classes.keys = (classes.map (·.name)).eraseDups ∧
          (∀ name, module.classes.find? name = (classes.filter (·.name = name)).getLast?) ∧
          module.aliases.keys = (aliases.map (·.name)).eraseDups ∧
          ∀ name, module.aliases.find? name = (aliases.filter (·.name = name)).getLast? := by
  obtain ⟨documentation, succeeds, collected⟩ := extractFiles_collected program settings known
  refine ⟨documentation, succeeds, fun id module found => ?_⟩
  intro declarations ownClasses ownAliases
  have content : module.content = .ofDeclarations declarations := collected.content_eq found
  have classes : module.classes = (DocModule.ofDeclarations declarations).classes :=
    congrArg (·.classes) content
  have aliases : module.aliases = (DocModule.ofDeclarations declarations).aliases :=
    congrArg (·.aliases) content
  rw [classes, aliases]
  exact ⟨DocModule.keys_classes_ofDeclarations declarations,
    DocModule.find?_classes_ofDeclarations declarations,
    DocModule.keys_aliases_ofDeclarations declarations,
    DocModule.find?_aliases_ofDeclarations declarations⟩

/-- A file that declares the class `Shape` twice, and the class `Plane` in between. -/
def redeclaringFile : SourceFile :=
  .ofNodes "/project/shape.ts" "class Shape { } class Plane { } export abstract class Shape { }"
    #[{ kind := .identifier, start := 6, stop := 11, payload := .identifier "Shape" },
      { kind := .classDeclaration, start := 0, stop := 15
        payload := .classDecl
          { modifiers := none, name := ⟨0⟩, typeParameters := none, heritage := none
            members := [] } },
      { kind := .identifier, start := 22, stop := 27, payload := .identifier "Plane" },
      { kind := .classDeclaration, start := 16, stop := 31
        payload := .classDecl
          { modifiers := none, name := ⟨2⟩, typeParameters := none, heritage := none
            members := [] } },
      { kind := .exportKeyword, start := 32, stop := 38 },
      { kind := .abstractKeyword, start := 39, stop := 47 },
      { kind := .identifier, start := 54, stop := 59, payload := .identifier "Shape" },
      { kind := .classDeclaration, start := 32, stop := 63
        payload := .classDecl
          { modifiers := some [⟨4⟩, ⟨5⟩], name := ⟨6⟩, typeParameters := none, heritage := none
            members := [] } }]
    [⟨1⟩, ⟨3⟩, ⟨7⟩]

/-- The program with that file. -/
def redeclaringProgram : Program where
  files := #[redeclaringFile]

/-- The class that a file declares twice is the second one, also if the file is listed twice, and
it keeps its place before the other class. -/
theorem classes_and_aliases_replaced_shape :
    ∃ documentation module record,
      extractFiles redeclaringProgram (.ofBase "/project") [⟨0⟩, ⟨0⟩] = .ok documentation ∧
        documentation.tree.get? 0 = some module ∧ module.classes.keys = ["Shape", "Plane"] ∧
        module.classes.find? "Shape" = some record ∧ record.exported = true ∧
        record.abstract = true := by
  obtain ⟨documentation, succeeds, replaced⟩ := classes_and_aliases_replaced redeclaringProgram
    (.ofBase "/project") [⟨0⟩, ⟨0⟩] (by decide)
  have evaluated : (extractFiles redeclaringProgram (.ofBase "/project") [⟨0⟩, ⟨0⟩]).toOption.bind
      (fun documentation => (documentation.tree.get? 0).bind fun module =>
        let classes := (documentation.declarationsIn redeclaringProgram (.ofBase "/project")
          [⟨0⟩, ⟨0⟩] 0 module).filterMap Declaration.class?
        (classes.filter (·.name = "Shape")).getLast?.map fun record =>
          ((classes.map (·.name)).eraseDups, record.exported, record.abstract)) =
      some (["Shape", "Plane"], true, true) := by decide +kernel
  rw [succeeds, Except.toOption, Option.bind_some, Option.bind_eq_some_iff] at evaluated
  obtain ⟨module, found, last⟩ := evaluated
  obtain ⟨record, isLast, parts⟩ := Option.map_eq_some_iff.1 last
  simp only [Prod.mk.injEq] at parts
  obtain ⟨keys, exported, abstract⟩ := parts
  obtain ⟨sameKeys, lookUp, -⟩ := replaced 0 module found
  exact ⟨documentation, module, record, succeeds, found, sameKeys.trans keys,
    (lookUp "Shape").trans isLast, exported, abstract⟩

end ApiDocs
