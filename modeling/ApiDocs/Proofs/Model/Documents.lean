import ApiDocs.Extract
import ApiDocs.Proofs.Json.Grammar
import ApiDocs.Proofs.Model.Recovery
import Mathlib.Data.List.Nodup

/-!
# Both texts spell one document

A documentation is written as one document, and the document as text in one of two layouts.  The
texts differ in their blanks only, so both spell the document and both read back as it.

This rests on two properties that every document of the model has, at any depth.  It is made of
values only, and **no object repeats a key**: what an object with a repeated key stands for would be
up to its reader.

## Main definitions

* `Json.Tidy` — a document of values without repeated keys.
* `ModuleView.ListedIn` — a document holds the declarations of a view in arrays, at any depth.
* `Documentation.Envelope` — a document has the fields of a documentation.

## Main statements

* `Ty.tidy_encode` — the documents of types are tidy, by recursion on types and their parts.
* `ModuleView.tidy_encode`, `ModuleView.listedIn_encode` — the documents of views are tidy, and hold
  everything in arrays.
* `texts_spell_document` — both texts of a documentation spell its document.
-/

namespace ApiDocs

namespace Json

/-! ## Tidy documents -/

/-- A document that is made of values only, without an object that repeats a key. -/
inductive Tidy : Json → Prop
  | null : Tidy null
  | bool (value : Bool) : Tidy (bool value)
  | nat (value : Nat) : Tidy (nat value)
  | string (text : String) : Tidy (string text)
  | array {items : List Json} (each : ∀ item ∈ items, Tidy item) : Tidy (array items)
  | object {fields : List (String × Json)} (distinct : (fields.map (·.1)).Nodup)
      (each : ∀ field ∈ fields, Tidy field.2) : Tidy (object fields)

theorem Tidy.plain {document : Json} (tidy : document.Tidy) : Plain document := by
  induction tidy with
  | null => exact .null
  | bool value => exact .bool value
  | nat value => exact .nat value
  | string text => exact .string text
  | array _ each => exact .array each
  | object _ _ each => exact .object each

attribute [simp] Tidy.null Tidy.bool Tidy.nat Tidy.string

@[simp] theorem tidy_array {items : List Json} :
    (array items).Tidy ↔ ∀ item ∈ items, item.Tidy :=
  ⟨fun | .array each => each, .array⟩

@[simp] theorem tidy_object {fields : List (String × Json)} :
    (object fields).Tidy ↔ (fields.map (·.1)).Nodup ∧ ∀ field ∈ fields, field.2.Tidy :=
  ⟨fun | .object distinct each => ⟨distinct, each⟩, fun tidy => .object tidy.1 tidy.2⟩

@[simp] theorem tidy_strings (texts : List String) : (strings texts).Tidy := by
  simp [strings]

theorem tidy_ofOption {α : Type} {encode : α → Json} (tidy : ∀ value, (encode value).Tidy)
    (value : Option α) : (ofOption encode value).Tidy := by
  cases value with
  | none => exact .null
  | some value => exact tidy value

@[simp] theorem tidy_ofText? (text : Option String) : (ofText? text).Tidy :=
  tidy_ofOption .string text

/-- A list that is left out when it is empty adds no key that is there. -/
theorem tidy_append_listField {fields : List (String × Json)} {name : String} {items : List Json}
    (tidy : (object fields).Tidy) (fresh : name ∉ fields.map (·.1))
    (each : ∀ item ∈ items, item.Tidy) : (object (fields ++ listField name items)).Tidy := by
  cases items with
  | nil => simpa [listField] using tidy
  | cons item items =>
      obtain ⟨distinct, values⟩ := tidy_object.1 tidy
      refine .object ?_ (List.forall_mem_append.2 ⟨values, ?_⟩)
      · rw [List.map_append]
        exact distinct.append (List.nodup_singleton name) (List.disjoint_singleton.2 fresh)
      · exact List.forall_mem_singleton.2 (.array each)

end Json

open Json

/-! ## Types -/

@[simp] theorem Location.tidy_encode (location : Location) : location.encode.Tidy := by
  obtain ⟨_ | position, _ | link⟩ := location <;> simp [encode, Text.Position.encode]

@[simp] theorem Reference.tidy_encode (reference : Reference) : reference.encode.Tidy := by
  induction reference with
  | declaration target =>
      obtain ⟨name, path, external, _ | kind⟩ := target <;> simp [encode]
  | builtin name => simp [encode]
  | enumMember owner member ih => simp [encode, ih]
  | written name => simp [encode]

namespace Ty

mutual

/-- The document of a type is tidy.  Each case shows the fields of one variant to have distinct
names, and leaves their values to the parts of the type. -/
theorem tidy_encode : ∀ type : Ty, type.encode.Tidy
  | .keyword word => by simp [encode]
  | .numberLiteral value => by simp [encode]
  | .stringLiteral value => by simp [encode]
  | .reference target arguments => by
      rw [encode]
      exact tidy_append_listField (by simp) (by simp) (tidy_encodeList arguments)
  | .arrow parameters result typeParameters => by
      rw [encode]
      refine tidy_append_listField ?_ (by simp) (tidy_encodeTypeParameters typeParameters)
      simpa [tidy_encodeOption result] using tidy_encodeParameters parameters
  | .object members => by simpa [encode] using tidy_encodeMembers members
  | .union types => by simpa [encode] using tidy_encodeList types
  | .intersection types => by simpa [encode] using tidy_encodeList types
  | .tuple types => by simpa [encode] using tidy_encodeList types
  | .array element => by simp [encode, tidy_encode element]
  | .unique inner => by simp [encode, tidy_encode inner]
  | .keyof inner => by simp [encode, tidy_encode inner]
  | .readonly inner => by simp [encode, tidy_encode inner]
  | .written text => by simp [encode]

theorem tidy_encodeList : ∀ types : List Ty, ∀ document ∈ encodeList types, document.Tidy
  | [] => List.forall_mem_nil _
  | type :: types => List.forall_mem_cons.2 ⟨tidy_encode type, tidy_encodeList types⟩

theorem tidy_encodeOption : ∀ type : Option Ty, (encodeOption type).Tidy
  | none => .null
  | some type => tidy_encode type

theorem tidy_encodeParameter : ∀ parameter : Parameter Ty, (encodeParameter parameter).Tidy
  | ⟨name, type, default, rest, optional, comment⟩ => by
      simp [encodeParameter, tidy_encodeOption type, tidy_encodeOption default]

theorem tidy_encodeParameters : ∀ parameters : List (Parameter Ty),
    ∀ document ∈ encodeParameters parameters, document.Tidy
  | [] => List.forall_mem_nil _
  | parameter :: parameters =>
      List.forall_mem_cons.2 ⟨tidy_encodeParameter parameter, tidy_encodeParameters parameters⟩

theorem tidy_encodeTypeParameter : ∀ parameter : TypeParameter Ty,
    (encodeTypeParameter parameter).Tidy
  | ⟨name, constraint, default⟩ => by
      simp [encodeTypeParameter, tidy_encodeOption constraint, tidy_encodeOption default]

theorem tidy_encodeTypeParameters : ∀ parameters : List (TypeParameter Ty),
    ∀ document ∈ encodeTypeParameters parameters, document.Tidy
  | [] => List.forall_mem_nil _
  | parameter :: parameters => List.forall_mem_cons.2
      ⟨tidy_encodeTypeParameter parameter, tidy_encodeTypeParameters parameters⟩

theorem tidy_encodeMember : ∀ member : Member Ty, (encodeMember member).Tidy
  | .property signature => tidy_encodeProperty signature
  | .index signature => tidy_encodeIndex signature

theorem tidy_encodeProperty : ∀ signature : PropertySignature Ty,
    (encodeProperty signature).Tidy
  | ⟨name, type, optional, fixed, location, doc⟩ => by
      simp [encodeProperty, tidy_encodeOption type, tidy_encodeDoc? doc]

theorem tidy_encodeIndex : ∀ signature : IndexSignature Ty, (encodeIndex signature).Tidy
  | ⟨keyName, keyType, type, fixed⟩ => by
      simp [encodeIndex, tidy_encodeOption keyType, tidy_encodeOption type]

theorem tidy_encodeMembers : ∀ members : List (Member Ty),
    ∀ document ∈ encodeMembers members, document.Tidy
  | [] => List.forall_mem_nil _
  | member :: members =>
      List.forall_mem_cons.2 ⟨tidy_encodeMember member, tidy_encodeMembers members⟩

theorem tidy_encodeDoc? : ∀ doc : Option (DocBlock Ty), (encodeDoc? doc).Tidy
  | none => .null
  | some doc => tidy_encodeDoc doc

theorem tidy_encodeDoc : ∀ doc : DocBlock Ty, (encodeDoc doc).Tidy
  | ⟨comment, none⟩ => by simp [encodeDoc, tagsField]
  | ⟨comment, some tags⟩ => by simpa [encodeDoc, tagsField] using tidy_encodeTags tags

theorem tidy_encodeTags : ∀ tags : List (DocTag Ty),
    ∀ document ∈ encodeTags tags, document.Tidy
  | [] => List.forall_mem_nil _
  | tag :: tags => List.forall_mem_cons.2 ⟨tidy_encodeTag tag, tidy_encodeTags tags⟩

theorem tidy_encodeTag : ∀ tag : DocTag Ty, (encodeTag tag).Tidy
  | ⟨word, comment, argument, type⟩ => by simp [encodeTag, tidy_encodeOption type]

end

end Ty

/-! ## Declarations -/

attribute [local simp] Ty.tidy_encode Ty.tidy_encodeOption Ty.tidy_encodeParameter
  Ty.tidy_encodeTypeParameter Ty.tidy_encodeMember Ty.tidy_encodeDoc? Ty.tidy_encodeDoc
  Ty.encodeParameters_eq_map Ty.encodeTypeParameters_eq_map Ty.encodeMembers_eq_map

@[simp] theorem TypeReference.tidy_encode (reference : TypeReference) :
    reference.encode.Tidy := by
  have target : (Json.object [("target", reference.target.encode)]).Tidy := by simp
  exact tidy_append_listField target (by simp) (Ty.tidy_encodeList reference.arguments)

@[simp] theorem FunctionSignature.tidy_encode (signature : FunctionSignature) :
    signature.encode.Tidy := by
  simp [encode]

@[simp] theorem FunctionRecord.tidy_encode (record : FunctionRecord) : record.encode.Tidy := by
  simp [encode]

-- The flags of a member stand among its own fields, under names that none of these has.
@[simp] theorem ClassProperty.tidy_encode (property : ClassProperty) : property.encode.Tidy := by
  simp [encode, MemberFlags.fields]

@[simp] theorem ClassMethod.tidy_encode (method : ClassMethod) : method.encode.Tidy := by
  simp [encode, MemberFlags.fields]

@[simp] theorem ClassRecord.tidy_encode (record : ClassRecord) : record.encode.Tidy := by
  have maker := tidy_ofOption (fun parameters : List (Parameter Ty) =>
    show (Json.object [("parameters", .array (Ty.encodeParameters parameters))]).Tidy by simp)
    record.body.constructorParameters
  have base := tidy_ofOption TypeReference.tidy_encode record.base
  simpa [encode, base] using maker

@[simp] theorem InterfaceRecord.tidy_encode (record : InterfaceRecord) : record.encode.Tidy := by
  simp [encode]

@[simp] theorem EnumMember.tidy_encode (member : EnumMember) : member.encode.Tidy := by
  simp [encode]

@[simp] theorem EnumRecord.tidy_encode (record : EnumRecord) : record.encode.Tidy := by
  simp [encode]

@[simp] theorem AliasRecord.tidy_encode (record : AliasRecord) : record.encode.Tidy := by
  simp [encode]

@[simp] theorem ConstantRecord.tidy_encode (record : ConstantRecord) : record.encode.Tidy := by
  simp [encode]

/-! ## Views -/

/-- The items of an array. -/
def Json.items? : Json → Option (List Json)
  | .array items => some items
  | _ => none

/-- A document holds the declarations of a view: each collection is an array with one document for
each entry, in order, and so are the methods of each class.  The views that are nested in the view
are held in the same way. -/
inductive ModuleView.ListedIn : ModuleView → Json → Prop
  | module {view : ModuleView} {document : Json} {nested : List Json}
      (classes : document.required? "classes" items? = some (view.classes.map ClassRecord.encode))
      (methods : ∀ record ∈ view.classes, record.encode.required? "methods" items? =
        some (record.body.methods.values.map ClassMethod.encode))
      (interfaces : document.required? "interfaces" items? =
        some (view.interfaces.map InterfaceRecord.encode))
      (enums : document.required? "enums" items? = some (view.enums.map EnumRecord.encode))
      (aliases : document.required? "types" items? = some (view.aliases.map AliasRecord.encode))
      (functions : document.required? "functions" items? =
        some (view.functions.map FunctionRecord.encode))
      (constants : document.required? "constants" items? =
        some (view.constants.map ConstantRecord.encode))
      (modules : document.required? "modules" items? = some nested)
      (each : List.Forall₂ ListedIn view.modules nested) : ListedIn view document

namespace ModuleView

mutual

theorem tidy_encode : ∀ view : ModuleView, view.encode.Tidy
  | ⟨name, path, repository, isNamespace, classes, interfaces, enums, aliases, functions,
      constants, modules⟩ => by
    simpa [encode] using tidy_encodeList modules

theorem tidy_encodeList : ∀ views : List ModuleView, ∀ document ∈ encodeList views, document.Tidy
  | [] => List.forall_mem_nil _
  | view :: views => List.forall_mem_cons.2 ⟨tidy_encode view, tidy_encodeList views⟩

end

attribute [local simp] required? field? slotOf? slot? valuesOf Slot.required items?

/-- The methods of a class are an array, though they are kept under their keys. -/
theorem methods_encode (record : ClassRecord) : record.encode.required? "methods" items? =
    some (record.body.methods.values.map ClassMethod.encode) := by
  simp [ClassRecord.encode]

mutual

/-- The document of a view holds its declarations, and those of the views nested in it. -/
theorem listedIn_encode : ∀ view : ModuleView, view.ListedIn view.encode
  | ⟨name, path, repository, isNamespace, classes, interfaces, enums, aliases, functions,
      constants, modules⟩ => by
    refine .module ?_ (fun record _ => methods_encode record) ?_ ?_ ?_ ?_ ?_ ?_
      (forall₂_listedIn_encodeList modules)
    all_goals simp [encode]

theorem forall₂_listedIn_encodeList : ∀ views : List ModuleView,
    List.Forall₂ ListedIn views (encodeList views)
  | [] => .nil
  | view :: views => .cons (listedIn_encode view) (forall₂_listedIn_encodeList views)

end

end ModuleView

/-! ## Documentations -/

/-- The keys of an object, in order. -/
def Json.keys : Json → List String
  | .object fields => fields.map (·.1)
  | _ => []

/-- A document has the fields of a documentation: the texts about the project, each of which may be
`null`, and the view of the root of its tree. -/
structure Documentation.Envelope (documentation : Documentation) (document : Json) : Prop where
  keys : document.keys = ["readme", "repository", "homepage", "version", "module"]
  readme : document.nullable? "readme" text? = some documentation.readme
  repository : document.nullable? "repository" text? = some documentation.repository
  homepage : document.nullable? "homepage" text? = some documentation.homepage
  version : document.nullable? "version" text? = some documentation.version
  module : ∀ root, documentation.tree.get? ModuleTree.rootId = some root →
    ∃ view written, documentation.root? = some view ∧
      document.required? "module" some = some written ∧ view.ListedIn written

namespace Documentation

variable (documentation : Documentation)

theorem tidy_encode : documentation.encode.Tidy := by
  simp [encode, tidy_ofOption ModuleView.tidy_encode]

theorem envelope_encode : documentation.Envelope documentation.encode := by
  refine ⟨rfl, nullable_ofText? _, nullable_ofText? _, nullable_ofText? _, nullable_ofText? _,
    fun root found => ?_⟩
  have isRoot : documentation.root? =
      some (documentation.tree.viewWithin documentation.tree.size root) := by
    rw [root?, ModuleTree.view?, found, Option.map_some]
  refine ⟨_, _, isRoot, ?_, ModuleView.listedIn_encode _⟩
  rw [encode, isRoot]
  rfl

end Documentation

/-- **Both texts spell one document.**  The document of a documentation has no repeated keys, its
envelope holds the texts about the project, and below the root it holds all collections in arrays.
The text without blanks and the text with one item a line both spell this document, by the grammar
of strict JSON, and both are read as it.

The view of the root has as many levels as the tree has modules.  They do not run out in any tree
that calls of an extraction reach, as `ModuleTree.Shaped.viewWithin_eq` says, so the document of a
documentation goes as deep as its tree. -/
theorem texts_spell_document (documentation : Documentation) :
    documentation.encode.Tidy ∧ documentation.Envelope documentation.encode ∧
      ∀ pretty, Spells documentation.encode (documentation.toText pretty).toList ∧
        parse? (documentation.toText pretty) = some documentation.encode := by
  have tidy := documentation.tidy_encode
  refine ⟨tidy, documentation.envelope_encode, fun pretty => ?_⟩
  have printed : ∃ layout : Layout, layout.IsBlank ∧
      documentation.toText pretty = documentation.encode.print layout := by
    cases pretty with
    | false => exact ⟨_, Layout.compact_isBlank, rfl⟩
    | true => exact ⟨_, Layout.pretty_isBlank, rfl⟩
  obtain ⟨layout, isBlank, isText⟩ := printed
  rw [isText]
  refine ⟨?_, parse?_print isBlank tidy.plain⟩
  rw [Json.print, String.toList_ofList]
  exact tidy.plain.spells_printAt isBlank 0

/-- The class `Box` with the method `open`. -/
def boxRecord : ClassRecord where
  name := "Box"
  body.methods := ⟨[("open",
    { name := "open", flags := ⟨false, false, false, false, false⟩, role := .plain
      signatures := [] })]⟩
  location := {}
  doc := some { comment := some "With a \"lid\"." }
  exported := true
  abstract := false

/-- A documentation whose texts have characters that are escaped and characters that are not.  It
has a class, and an enum in a namespace below the root. -/
def quotedDocumentation : Documentation where
  readme := some "\"\\\x01é"
  repository := none
  homepage := none
  version := none
  tree := {
    modules := #[
      { name := "π", classes := ⟨[("Box", boxRecord)]⟩, children := [1] },
      { name := "kinds", path := ["kinds"], isNamespace := true, parent := some 0
        enums := ⟨[("Side", { name := "Side" })]⟩ }]
    namespaces := ⟨[((0, "kinds"), 1)]⟩ }

/-- The two texts of that documentation differ, and both are read as one document.  It has the text
about the project, and arrays with the class, its method, the namespace and the enum there. -/
theorem texts_spell_document_quoted :
    (quotedDocumentation.toText false).toList.take 24 =
        "\x7b\"readme\":\"\\\"\\\\\\u0001é\",".toList ∧
      (quotedDocumentation.toText true).toList.take 28 =
        "\x7b\n  \"readme\": \"\\\"\\\\\\u0001é\",".toList ∧
      ∃ document root box inner, parse? (quotedDocumentation.toText false) = some document ∧
        parse? (quotedDocumentation.toText true) = some document ∧
        document.nullable? "readme" text? = some (some "\"\\\x01é") ∧
        document.required? "module" some = some root ∧
        root.required? "classes" items? = some [box] ∧
        (box.required? "methods" items?).map List.length = some 1 ∧
        root.required? "modules" items? = some [inner] ∧
        (inner.required? "enums" items?).map List.length = some 1 := by
  obtain ⟨-, envelope, texts⟩ := texts_spell_document quotedDocumentation
  have compact : (quotedDocumentation.toText false).toList =
      printAt .compact 0 quotedDocumentation.encode := String.toList_ofList
  have pretty : (quotedDocumentation.toText true).toList =
      printAt .pretty 0 quotedDocumentation.encode := String.toList_ofList
  obtain ⟨_, root, isView, isRoot, listed⟩ := envelope.module _ rfl
  cases isView
  obtain ⟨classes, methods, -, -, -, -, -, modules, each⟩ := listed
  -- The root shows one module, which is held in the same way.
  rcases each with _ | ⟨inner, noOther⟩
  cases noOther
  obtain ⟨-, -, -, enums⟩ := inner
  rw [compact, pretty, (texts false).2, (texts true).2]
  refine ⟨by decide +kernel, by decide +kernel, _, root, _, _, rfl, rfl, envelope.readme, isRoot,
    classes, ?_, modules, ?_⟩
  · rw [methods boxRecord (List.mem_singleton_self boxRecord)]
    rfl
  · rw [enums]
    rfl

end ApiDocs
