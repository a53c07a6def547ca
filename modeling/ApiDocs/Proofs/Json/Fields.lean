import ApiDocs.Json.Fields
import ApiDocs.Proofs.Json.RoundTrip
import Mathlib.Data.List.Forall2

/-!
# Written records read back

A record is written as an object with each of its fields under its own name.  Such an object has
**every field in its slot**, and what was written for a word, a list or an optional value is read by
the rule of its field.

## Main statements

* `slots?_object` — the slots of a written record.
* `list?_of_forall₂`, `list?_map` — a list of values reads back if each of its values does.
* `nullable_ofOption`, `optional_ofOption` — an optional value reads back if no value is written as
  `null`.
* `plain_array`, `plain_object` — what is built from plain documents is plain.
* `depth_lt_array`, `depth_lt_object` — a part is nested less deep than the whole.
-/

namespace ApiDocs

namespace Json

/-! ## Slots -/

/-- A key that is not repeated has one value. -/
theorem valuesOf_of_nodup {fields : List (String × Json)} (distinct : (fields.map (·.1)).Nodup)
    {field : String × Json} (member : field ∈ fields) : valuesOf field.1 fields = [field.2] := by
  induction fields with
  | nil => cases member
  | cons first fields ih =>
      obtain ⟨fresh, distinct⟩ := List.nodup_cons.1 distinct
      rw [List.mem_map] at fresh
      rcases List.mem_cons.1 member with rfl | later
      · have noOther : fields.filter (·.1 = field.1) = [] := by
          refine List.filter_eq_nil_iff.2 fun other isOther => ?_
          simpa using fun same => fresh ⟨other, isOther, same⟩
        simp [valuesOf, noOther]
      · have different : first.1 ≠ field.1 := fun same => fresh ⟨field, later, same.symm⟩
        have values := ih distinct later
        simpa [valuesOf, List.filter_cons, different] using values

/-- **A record written with distinct keys has each field in its slot.** -/
theorem slots?_object {names : List String} {fields : List (String × Json)}
    (written : fields.map (·.1) = names) (distinct : names.Nodup) :
    slots? names (object fields) = some (fields.map fun field => .present field.2) := by
  subst written
  refine mapM_map_eq_some _ fun field member => ?_
  rw [slot?, valuesOf_of_nodup distinct member]

@[simp] theorem required_present {α : Type} (decode? : Json → Option α) (document : Json) :
    (Slot.present document).required decode? = decode? document := rfl

@[simp] theorem withDefault_present {α : Type} (default : α) (decode? : Json → Option α)
    (document : Json) : (Slot.present document).withDefault default decode? = decode? document :=
  rfl

section

variable {α : Type} {encode : α → Json} {decode? : Json → Option α} {value : Option α}
  (decodes : ∀ inner ∈ value, decode? (encode inner) = some inner)
  (noNull : ∀ inner, encode inner ≠ null)
include decodes noNull

theorem nullable_ofOption :
    (Slot.present (ofOption encode value)).nullable decode? = some value := by
  cases value with
  | none => rfl
  | some inner =>
      rw [ofOption, Slot.nullable.eq_2 _ _ (noNull inner), decodes inner rfl, Option.map_some]

theorem optional_ofOption :
    (Slot.present (ofOption encode value)).optional decode? = some value := by
  cases value with
  | none => rfl
  | some inner =>
      rw [ofOption, Slot.optional.eq_2 _ _ (noNull inner), decodes inner rfl, Option.map_some]

end

/-! ## Values -/

@[simp] theorem text?_string (text : String) : (string text).text? = some text := rfl

@[simp] theorem bool?_bool (value : Bool) : (bool value).bool? = some value := rfl

@[simp] theorem word?_word (value : UInt32) : (word value).word? = some value := by
  have bound : value.toNat < wordCount := value.toNat_lt
  simp [word, word?, bound]

@[simp] theorem halfWord?_nat (value : UInt16) : (nat value.toNat).halfWord? = some value := by
  have bound : value.toNat < halfWordCount := value.toNat_lt
  simp [halfWord?, bound]

theorem list?_of_forall₂ {α : Type} {decode? : Json → Option α} {list : List α}
    {documents : List Json}
    (decodes : List.Forall₂ (fun value document => decode? document = some value) list documents) :
    list? decode? (array documents) = some list := by
  rw [list?]
  induction decodes with
  | nil => rfl
  | cons here _ ih =>
      rw [List.mapM_cons, here, ih]
      rfl

theorem list?_map {α : Type} {encode : α → Json} {decode? : Json → Option α} {list : List α}
    (decodes : ∀ value ∈ list, decode? (encode value) = some value) :
    list? decode? (array (list.map encode)) = some list :=
  list?_of_forall₂ (List.forall₂_map_right_iff.2 (List.forall₂_same.2 decodes))

/-! ## Plain documents -/

attribute [simp] Plain.null Plain.bool Plain.nat Plain.string

@[simp] theorem plain_array {items : List Json} :
    Plain (array items) ↔ ∀ item ∈ items, Plain item :=
  ⟨fun | .array each => each, .array⟩

@[simp] theorem plain_object {fields : List (String × Json)} :
    Plain (object fields) ↔ ∀ field ∈ fields, Plain field.2 :=
  ⟨fun | .object each => each, .object⟩

@[simp] theorem plain_word (value : UInt32) : Plain (word value) := .nat _

theorem plain_array_of_forall₂ {α : Type} {writesAs : α → Json → Prop}
    (plain : ∀ {value document}, writesAs value document → Plain document) {list : List α}
    {documents : List Json} (written : List.Forall₂ writesAs list documents) :
    Plain (array documents) := by
  rw [plain_array]
  induction written with
  | nil => exact fun _ member => by cases member
  | cons here _ ih => exact List.forall_mem_cons.2 ⟨plain here, ih⟩

theorem plain_ofOption {α : Type} {encode : α → Json} (plain : ∀ value, Plain (encode value))
    (value : Option α) : Plain (ofOption encode value) := by
  cases value with
  | none => exact .null
  | some value => exact plain value

/-! ## Depth -/

theorem depth_lt_array {item : Json} {items : List Json} (member : item ∈ items) :
    item.depth < (array items).depth := by
  have below : ∀ items : List Json, item ∈ items → item.depth ≤ depth.itemsDepth items := by
    intro items member
    induction items with
    | nil => cases member
    | cons first items ih =>
        rw [depth.itemsDepth]
        rcases List.mem_cons.1 member with rfl | later
        · exact Nat.le_max_left ..
        · exact Nat.le_trans (ih later) (Nat.le_max_right ..)
  exact Nat.lt_succ_of_le (below items member)

theorem depth_lt_object {key : String} {value : Json} {fields : List (String × Json)}
    (member : (key, value) ∈ fields) : value.depth < (object fields).depth := by
  have below : ∀ fields : List (String × Json), (key, value) ∈ fields →
      value.depth ≤ depth.fieldsDepth fields := by
    intro fields member
    induction fields with
    | nil => cases member
    | cons first fields ih =>
        rw [depth.fieldsDepth]
        rcases List.mem_cons.1 member with rfl | later
        · exact Nat.le_max_left ..
        · exact Nat.le_trans (ih later) (Nat.le_max_right ..)
  exact Nat.lt_succ_of_le (below fields member)

end Json

end ApiDocs
