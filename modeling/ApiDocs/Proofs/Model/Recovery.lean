import ApiDocs.Proofs.Model.Reading

/-!
# Types are recovered from their documents

In the documents of types, variants are told apart by a word that stands among the fields of the
variant, some fields are left out when they are empty, and others are written as `null`.  **None of
this loses anything**: no word stands for two variants, no variant has a field that hides the word,
and what is left out can be told from what is written.  So the readers recover every type from its
document, in any order of fields.

## Main statements

* `Reference.readWithin?_encode`, `Member.read?_encode`, `Ty.readWithin?_encode` — what is written
  reads back.
* `types_recovered` — types, references and members are recovered from their documents.

## Design notes

**The induction is on the levels of documents.**  A part of a document is nested less deep than the
document, so everything inside a type reads back with one level less.
-/

namespace ApiDocs

open Json

/-! ## Fields -/

attribute [local simp] required? nullable? leftOut? listed? field? slotOf? slot? valuesOf nat?
  Slot.required Slot.withDefault

theorem filter_eq_nil_of_not_mem {name : String} {fields : List (String × Json)}
    (fresh : name ∉ fields.map (·.1)) : fields.filter (·.1 = name) = [] := by
  refine List.filter_eq_nil_iff.2 fun field member same => fresh ?_
  rw [← of_decide_eq_true same]
  exact List.mem_map_of_mem member

theorem required?_first {α : Type} {read : Json → Option α} {name : String} {value : Json}
    {fields : List (String × Json)} (fresh : name ∉ fields.map (·.1)) :
    (Json.object ((name, value) :: fields)).required? name read = read value := by
  simp [filter_eq_nil_of_not_mem fresh]

@[simp] theorem list?_strings (texts : List String) :
    list? text? (.strings texts) = some texts :=
  list?_map fun _ _ => rfl

/-- The parts of an object are nested less deep. -/
theorem fields_depth {fields : List (String × Json)} {room : Nat}
    (small : (Json.object fields).depth ≤ room) : ∀ field ∈ fields, field.2.depth < room :=
  fun _ member => Nat.lt_of_lt_of_le (depth_lt_object member) small

/-- A list reads back if what is nested less deep does. -/
theorem list?_of_depth {α : Type} {encode : α → Json} {decode? : Json → Option α} {list : List α}
    {room : Nat} (small : (Json.array (list.map encode)).depth ≤ room)
    (each : ∀ {value}, (encode value).depth < room → decode? (encode value) = some value) :
    list? decode? (.array (list.map encode)) = some list :=
  list?_map fun _ member =>
    each (Nat.lt_of_lt_of_le (depth_lt_array (List.mem_map_of_mem member)) small)

/-- A list that is left out when it is empty reads back, and no other field is changed by it. -/
theorem listed?_listField {α : Type} {encode : α → Json} {decode? : Json → Option α}
    {list : List α} {room : Nat} {fields : List (String × Json)} {name : String}
    (small : ∀ field ∈ listField name (list.map encode), field.2.depth < room)
    (each : ∀ {value}, (encode value).depth < room → decode? (encode value) = some value)
    (fresh : name ∉ fields.map (·.1)) :
    (Json.object (fields ++ listField name (list.map encode))).listed? name decode? =
      some list := by
  have noOther : fields.filter (·.1 = name) = [] := filter_eq_nil_of_not_mem fresh
  cases list with
  | nil =>
      -- Nothing is written for an empty list, and nothing written is read as one.
      simp [listField, noOther]
  | cons first rest =>
      have reads : list? decode? (.array ((first :: rest).map encode)) = some (first :: rest) :=
        list?_of_depth (Nat.le_of_lt (small _ (List.mem_singleton_self _))) each
      rw [List.map_cons] at reads
      simp [listField, noOther, reads]

theorem field?_append_listField {α : Type} {rule : Slot → Option α} {name key : String}
    (different : key ≠ name) (fields : List (String × Json)) (items : List Json) :
    (Json.object (fields ++ listField key items)).field? name rule =
      (Json.object fields).field? name rule := by
  cases items with
  | nil => simp [listField]
  | cons first rest => simp [listField, different]

@[simp] theorem nullable_ofText? (text : Option String) :
    (Slot.present (.ofText? text)).nullable text? = some text :=
  nullable_ofOption (fun _ _ => rfl) nofun

/-! ## Locations and references -/

@[simp] theorem Text.Position.read?_encode (position : Text.Position) :
    read? position.encode = some position := by
  simp [read?, encode]

@[simp] theorem Location.read?_encode (location : Location) :
    read? location.encode = some location := by
  obtain ⟨_ | position, _ | link⟩ := location <;> simp [read?, encode]

theorem DeclarationKind.mem_all (kind : DeclarationKind) : kind ∈ all := by
  cases kind <;> decide

@[simp] theorem DeclarationKind.named?_word (kind : DeclarationKind) :
    named? word all (.string kind.word) = some kind :=
  Json.named?_word (by decide) kind.mem_all

/-- The variant of a reference. -/
def Reference.tag : Reference → Reference.Tag
  | declaration _ => .declaration
  | builtin _ => .builtin
  | enumMember _ _ => .enumMember
  | written _ => .written

/-- The document of a reference tells its variant. -/
theorem Reference.required?_kind (reference : Reference) :
    reference.encode.required? "kind" (named? Tag.word Tag.all) = some reference.tag := by
  have named : ∀ tag : Tag, named? Tag.word Tag.all (.string tag.word) = some tag := fun tag =>
    Json.named?_word (by decide) (by cases tag <;> decide)
  cases reference with
  | declaration target => exact (required?_first (by simp)).trans (named .declaration)
  | builtin name => exact (required?_first (by simp)).trans (named .builtin)
  | enumMember owner member => exact (required?_first (by simp)).trans (named .enumMember)
  | written name => exact (required?_first (by simp)).trans (named .written)

/-- What is written for a reference reads back if there is room for it. -/
theorem Reference.readWithin?_encode {room : Nat} : ∀ {reference : Reference},
    reference.encode.depth < room → readWithin? room reference.encode = some reference := by
  induction room with
  | zero => intro reference deep; cases deep
  | succ room ih =>
      intro reference small
      rw [readWithin?, readStep?, required?_kind]
      cases reference with
      | declaration target =>
          obtain ⟨name, path, external, _ | kind⟩ := target <;>
            simp [tag, encode]
      | builtin name => simp [tag, encode]
      | enumMember owner member =>
          -- The only variant with a reference inside.
          have inner : owner.encode.depth < room := by
            rw [encode] at small
            exact fields_depth (Nat.le_of_lt_succ small) ("target", owner.encode) (by simp)
          simp [tag, encode, ih inner]
      | written name => simp [tag, encode]

/-! ## Parts of types -/

namespace Ty

/-- Writing a list one item after the other is a map. -/
theorem eq_map_of_cons {α : Type} {each : α → Json} {all : List α → List Json}
    (none : all [] = []) (next : ∀ first rest, all (first :: rest) = each first :: all rest)
    (list : List α) : all list = list.map each := by
  induction list with
  | nil => exact none
  | cons first rest ih => rw [next, ih, List.map_cons]

theorem encodeList_eq_map (types : List Ty) : encodeList types = types.map encode :=
  eq_map_of_cons rfl (fun _ _ => rfl) types

theorem encodeParameters_eq_map (parameters : List (Parameter Ty)) :
    encodeParameters parameters = parameters.map encodeParameter :=
  eq_map_of_cons rfl (fun _ _ => rfl) parameters

theorem encodeTypeParameters_eq_map (parameters : List (TypeParameter Ty)) :
    encodeTypeParameters parameters = parameters.map encodeTypeParameter :=
  eq_map_of_cons rfl (fun _ _ => rfl) parameters

theorem encodeMembers_eq_map (members : List (Member Ty)) :
    encodeMembers members = members.map encodeMember :=
  eq_map_of_cons rfl (fun _ _ => rfl) members

theorem encodeTags_eq_map (tags : List (DocTag Ty)) : encodeTags tags = tags.map encodeTag :=
  eq_map_of_cons rfl (fun _ _ => rfl) tags

theorem encode_ne_null (type : Ty) : type.encode ≠ .null := by
  cases type <;> nofun

end Ty

section

variable {read : Json → Option Ty} {room : Nat}
  (reads : ∀ {type : Ty}, type.encode.depth < room → read type.encode = some type)
include reads

theorem nullable_encodeOption {type : Option Ty} (small : (Ty.encodeOption type).depth < room) :
    (Slot.present (Ty.encodeOption type)).nullable read = some type := by
  cases type with
  | none => rfl
  | some type =>
      rw [Ty.encodeOption, Slot.nullable.eq_2 _ _ type.encode_ne_null, reads small, Option.map_some]

theorem TypeParameter.read?_encode {parameter : TypeParameter Ty}
    (small : (Ty.encodeTypeParameter parameter).depth ≤ room) :
    read? read (Ty.encodeTypeParameter parameter) = some parameter := by
  obtain ⟨name, constraint, default⟩ := parameter
  have parts := fields_depth small
  simp only [List.forall_mem_cons] at parts
  obtain ⟨-, constraintSmall, defaultSmall, -⟩ := parts
  simp [read?, Ty.encodeTypeParameter, nullable_encodeOption reads constraintSmall,
    nullable_encodeOption reads defaultSmall]

theorem Parameter.read?_encode {parameter : Parameter Ty}
    (small : (Ty.encodeParameter parameter).depth ≤ room) :
    read? read (Ty.encodeParameter parameter) = some parameter := by
  obtain ⟨name, type, default, rest, optional, comment⟩ := parameter
  have parts := fields_depth small
  simp only [List.forall_mem_cons] at parts
  obtain ⟨-, typeSmall, defaultSmall, -⟩ := parts
  simp [read?, Ty.encodeParameter, nullable_encodeOption reads typeSmall,
    nullable_encodeOption reads defaultSmall]

theorem DocTag.read?_encode {tag : DocTag Ty} (small : (Ty.encodeTag tag).depth ≤ room) :
    read? read (Ty.encodeTag tag) = some tag := by
  obtain ⟨word, comment, argument, type⟩ := tag
  have parts := fields_depth small
  simp only [List.forall_mem_cons] at parts
  obtain ⟨-, -, -, typeSmall, -⟩ := parts
  simp [read?, Ty.encodeTag, nullable_encodeOption reads typeSmall]

theorem DocBlock.read?_encode {doc : DocBlock Ty} (small : (Ty.encodeDoc doc).depth ≤ room) :
    read? read (Ty.encodeDoc doc) = some doc := by
  -- Missing tags are left out, but an empty list of tags is written.
  obtain ⟨comment, _ | tags⟩ := doc
  · simp [read?, Ty.encodeDoc, Ty.tagsField]
  · have parts := fields_depth small
    simp only [Ty.tagsField, List.forall_mem_cons, Ty.encodeTags_eq_map] at parts
    obtain ⟨-, tagsSmall, -⟩ := parts
    have tagsRead := list?_of_depth (Nat.le_of_lt tagsSmall) fun {tag} tagSmall =>
      DocTag.read?_encode reads (Nat.le_of_lt tagSmall)
    simp [read?, Ty.encodeDoc, Ty.tagsField, Ty.encodeTags_eq_map, tagsRead]

theorem nullable_encodeDoc? {doc : Option (DocBlock Ty)}
    (small : (Ty.encodeDoc? doc).depth ≤ room) :
    (Slot.present (Ty.encodeDoc? doc)).nullable (DocBlock.read? read) = some doc := by
  cases doc with
  | none => rfl
  | some doc =>
      have noNull : Ty.encodeDoc doc ≠ .null := by
        obtain ⟨comment, tags⟩ := doc
        nofun
      rw [Ty.encodeDoc?, Slot.nullable.eq_2 _ _ noNull, DocBlock.read?_encode reads small,
        Option.map_some]

theorem Member.read?_encode {member : Member Ty} (small : (Ty.encodeMember member).depth ≤ room) :
    read? read (Ty.encodeMember member) = some member := by
  have named : ∀ isIndex, named? memberWord [true, false] (.string (memberWord isIndex)) =
      some isIndex := fun isIndex => named?_word (by decide) (by cases isIndex <;> decide)
  have property : named? memberWord [true, false] (.string "property") = some false := named false
  have indexSignature : named? memberWord [true, false] (.string "indexSignature") = some true :=
    named true
  cases member with
  | property signature =>
      obtain ⟨name, type, optional, fixed, location, doc⟩ := signature
      have parts := fields_depth small
      simp only [List.forall_mem_cons] at parts
      obtain ⟨-, -, typeSmall, -, -, -, docSmall, -⟩ := parts
      simp [read?, Ty.encodeMember, Ty.encodeProperty, property,
        nullable_encodeOption reads typeSmall, nullable_encodeDoc? reads (Nat.le_of_lt docSmall)]
  | index signature =>
      obtain ⟨keyName, keyType, type, fixed⟩ := signature
      have parts := fields_depth small
      simp only [List.forall_mem_cons] at parts
      obtain ⟨-, -, keySmall, typeSmall, -⟩ := parts
      simp [read?, Ty.encodeMember, Ty.encodeIndex, indexSignature,
        nullable_encodeOption reads keySmall, nullable_encodeOption reads typeSmall]

end

namespace Ty

/-- The variant of a type. -/
def tag : Ty → Tag
  | keyword word => .keyword word
  | numberLiteral _ => .numberLiteral
  | stringLiteral _ => .stringLiteral
  | reference _ _ => .reference
  | arrow _ _ _ => .arrow
  | object _ => .object
  | union _ => .union
  | intersection _ => .intersection
  | tuple _ => .tuple
  | array _ => .array
  | unique _ => .unique
  | keyof _ => .keyof
  | readonly _ => .readonly
  | written _ => .written

theorem Tag.mem_all (tag : Tag) : tag ∈ all := by
  cases tag with
  | keyword word => cases word <;> decide
  | _ => decide

/-- The document of a type begins with the word for its variant. -/
theorem exists_encode_eq (type : Ty) : ∃ fields, "kind" ∉ fields.map (·.1) ∧
    type.encode = .object (("kind", .string type.tag.word) :: fields) := by
  cases type with
  | reference target arguments =>
      refine ⟨_, ?_, rfl⟩
      cases arguments <;> simp [encodeList, Json.listField]
  | arrow parameters result typeParameters =>
      refine ⟨_, ?_, rfl⟩
      cases typeParameters <;> simp [encodeTypeParameters, Json.listField]
  | _ => exact ⟨_, by simp, rfl⟩

theorem required?_kind (type : Ty) :
    type.encode.required? "kind" (named? Tag.word Tag.all) = some type.tag := by
  have distinct : (Tag.all.map Tag.word).Nodup := by decide
  obtain ⟨fields, fresh, written⟩ := type.exists_encode_eq
  rw [written, required?_first fresh, named?_word distinct type.tag.mem_all]

/-- What is written for a type reads back if there is room for it. -/
theorem readWithin?_encode {room : Nat} : ∀ {type : Ty},
    type.encode.depth < room → readWithin? room type.encode = some type := by
  induction room with
  | zero => intro type deep; cases deep
  | succ room ih =>
      intro type small
      have small := Nat.le_of_lt_succ small
      -- Most variants have one part, which follows the word for the variant.
      have second : ∀ {kind : String × Json} {key : String} {value : Json},
          (Json.object [kind, (key, value)]).depth ≤ room → value.depth < room :=
        fun {kind key value} small => fields_depth small (key, value) (by simp)
      have typesRead : ∀ {types : List Ty}, (Json.array (types.map encode)).depth < room →
          list? (readWithin? room) (.array (types.map encode)) = some types :=
        fun small => list?_of_depth (Nat.le_of_lt small) ih
      rw [readWithin?, readStep?, required?_kind]
      cases type with
      | keyword word => rfl
      | numberLiteral value => simp [tag, encode]
      | stringLiteral value => simp [tag, encode]
      | reference target arguments =>
          rw [encode, encodeList_eq_map] at small ⊢
          obtain ⟨front, argumentsSmall⟩ := List.forall_mem_append.1 (fields_depth small)
          have targetSmall := front ("target", target.encode) (by simp)
          have targetRead := Reference.readWithin?_encode targetSmall
          simp only [tag, Option.bind_eq_bind, Option.bind_some, required?,
            field?_append_listField (show "typeArguments" ≠ "target" by decide)]
          rw [listed?_listField argumentsSmall ih]
          · simp [targetRead]
          · simp
      | arrow parameters result typeParameters =>
          rw [encode, encodeParameters_eq_map, encodeTypeParameters_eq_map] at small ⊢
          obtain ⟨front, typeParametersSmall⟩ := List.forall_mem_append.1 (fields_depth small)
          simp only [List.forall_mem_cons] at front
          obtain ⟨-, parametersSmall, resultSmall, -⟩ := front
          have parametersRead := list?_of_depth (Nat.le_of_lt parametersSmall) fun parameterSmall =>
            Parameter.read?_encode ih (Nat.le_of_lt parameterSmall)
          simp only [tag, Option.bind_eq_bind, Option.bind_some, required?, nullable?,
            field?_append_listField (show "typeParameters" ≠ "parameters" by decide),
            field?_append_listField (show "typeParameters" ≠ "returnType" by decide)]
          rw [listed?_listField typeParametersSmall fun parameterSmall =>
            TypeParameter.read?_encode ih (Nat.le_of_lt parameterSmall)]
          · simp [parametersRead, nullable_encodeOption ih resultSmall]
          · simp
      | object members =>
          rw [encode, encodeMembers_eq_map] at small ⊢
          have membersRead := list?_of_depth (Nat.le_of_lt (second small)) fun memberSmall =>
            Member.read?_encode ih (Nat.le_of_lt memberSmall)
          simp [tag, membersRead]
      | union types =>
          rw [encode, encodeList_eq_map] at small ⊢
          simp [tag, typesRead (second small)]
      | intersection types =>
          rw [encode, encodeList_eq_map] at small ⊢
          simp [tag, typesRead (second small)]
      | tuple types =>
          rw [encode, encodeList_eq_map] at small ⊢
          simp [tag, typesRead (second small)]
      | array element => simp [tag, encode, ih (second small)]
      | unique inner => simp [tag, encode, ih (second small)]
      | keyof inner => simp [tag, encode, ih (second small)]
      | readonly inner => simp [tag, encode, ih (second small)]
      | written text => simp [tag, encode]

end Ty

/-! ## Recovery -/

/-- **Nothing is lost in the documents of types.**  A type is recovered from its document, with the
fields of objects in any order, and so are a reference and a member.  Two of them have the same
document, up to the order of fields, only if they are equal. -/
theorem types_recovered :
    (∀ {type : Ty} {document : Json}, document.Alike type.encode →
      Ty.read? document = some type) ∧
    (∀ {first second : Ty}, first.encode.Alike second.encode → first = second) ∧
    (∀ {reference : Reference} {document : Json}, document.Alike reference.encode →
      Reference.read? document = some reference) ∧
    (∀ {first second : Reference}, first.encode.Alike second.encode → first = second) ∧
    (∀ {member : Member Ty} {document : Json}, document.Alike (Ty.encodeMember member) →
      Ty.readMember? document = some member) ∧
    ∀ {first second : Member Ty},
      (Ty.encodeMember first).Alike (Ty.encodeMember second) → first = second := by
  have types : ∀ {type : Ty} {document : Json}, document.Alike type.encode →
      Ty.read? document = some type := by
    intro type document alike
    rw [Ty.read?, Ty.respectful_readWithin? _ alike, alike.depth_eq]
    exact Ty.readWithin?_encode (Nat.lt_succ_self _)
  have references : ∀ {reference : Reference} {document : Json},
      document.Alike reference.encode → Reference.read? document = some reference := by
    intro reference document alike
    rw [Reference.read?, Reference.respectful_readWithin? _ alike, alike.depth_eq]
    exact Reference.readWithin?_encode (Nat.lt_succ_self _)
  have members : ∀ {member : Member Ty} {document : Json},
      document.Alike (Ty.encodeMember member) → Ty.readMember? document = some member := by
    intro member document alike
    rw [Ty.readMember?, respectful_member (Ty.respectful_readWithin? _) alike, alike.depth_eq]
    exact Member.read?_encode Ty.readWithin?_encode (Nat.le_refl _)
  refine ⟨types, ?_, references, ?_, members, ?_⟩
  · intro first second alike
    exact Option.some.inj ((types (.refl _)).symm.trans (types alike))
  · intro first second alike
    exact Option.some.inj ((references (.refl _)).symm.trans (references alike))
  · intro first second alike
    exact Option.some.inj ((members (.refl _)).symm.trans (members alike))

/-- A member of an enum whose kind of declaration is not known. -/
def redReference : Reference :=
  .enumMember (.declaration { name := "Color", path := ["paint"], external := false, kind := none })
    "Red"

/-- A property with a type argument, without a position and with an empty list of tags. -/
def redMember : Member Ty :=
  .property
    { name := "red"
      type := some (.reference redReference [.array (.keyword .string)])
      optional := true
      readonly := false
      location := { link := some "link#L1" }
      doc := some { comment := none, tags := some [] } }

/-- The reference and the member are read from documents with the fields turned around, and so is
the type of the member, from its own document. -/
theorem types_recovered_red :
    Reference.read? (.object [("member", .string "Red"),
      ("target", .object [("kind", .string "declaration"), ("name", .string "Color"),
        ("path", .strings ["paint"]), ("external", .bool false)]),
      ("kind", .string "enumMember")]) = some redReference ∧
    Ty.read? (.object [("kind", .string "reference"), ("target", redReference.encode),
      ("typeArguments", .array [.object [("kind", .string "array"),
        ("element", .object [("kind", .string "string")])]])]) =
      some (.reference redReference [.array (.keyword .string)]) ∧
    Ty.readMember? (.object [("jsdoc", .object [("comment", .null), ("tags", .array [])]),
      ("loc", .object [("sourceFile", .string "link#L1")]), ("readonly", .bool false),
      ("optional", .bool true),
      ("type", (Ty.reference redReference [.array (.keyword .string)]).encode),
      ("name", .string "red"), ("kind", .string "property")]) = some redMember ∧
    ¬(Ty.reference redReference []).encode.Alike (Ty.reference redReference [.keyword .any]).encode
      := by
  have turned : ∀ fields : List (String × Json),
      (Json.object fields).Alike (Json.object fields.reverse) := fun fields =>
    .object fields.reverse_perm.symm rfl (List.forall₂_same.2 fun _ _ => .refl _)
  obtain ⟨types, distinct, references, -, members, -⟩ := types_recovered
  exact ⟨references (turned _), types (.refl _), members (turned _), fun alike =>
    nomatch distinct alike⟩

end ApiDocs
