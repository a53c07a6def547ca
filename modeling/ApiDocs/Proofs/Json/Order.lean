import ApiDocs.Proofs.Json.Fields
import Mathlib.Data.List.Perm.Basic

/-!
# Documents up to the order of their fields

The order in which an object lists its fields carries no meaning.  Two documents are **alike** if
they differ in such orders only, at any depth.  A reader that looks fields up by name gives the same
answer on documents that are alike, and so what it reads is a property of the meaning of a document.

## Main definitions

* `Json.Alike` — equality up to the order of fields.
* `Json.field?` — a field of an object, read by a rule for its slot.
* `Json.Respectful` — a reader that does not see the order of fields.

## Main statements

* `Alike.depth_eq` — documents that are alike are nested equally deep.
* `respectful_field?`, `respectful_list?`, `Respectful.bind` — readers put together from respectful
  parts are respectful.
-/

namespace ApiDocs

namespace Json

/-- Documents that differ in the order of the fields of objects only. -/
inductive Alike : Json → Json → Prop
  | refl (document : Json) : Alike document document
  | array {items others : List Json} (each : List.Forall₂ Alike items others) :
      Alike (array items) (array others)
  | object {fields reordered others : List (String × Json)} (order : fields.Perm reordered)
      (names : reordered.map (·.1) = others.map (·.1))
      (values : List.Forall₂ Alike (reordered.map (·.2)) (others.map (·.2))) :
      Alike (object fields) (object others)

/-! ## Depth -/

theorem itemsDepth_eq_foldr (items : List Json) :
    depth.itemsDepth items = (items.map depth).foldr max 0 := by
  induction items with
  | nil => rfl
  | cons item items ih => rw [depth.itemsDepth, ih, List.map_cons, List.foldr_cons]

theorem fieldsDepth_eq_foldr (fields : List (String × Json)) :
    depth.fieldsDepth fields = ((fields.map (·.2)).map depth).foldr max 0 := by
  induction fields with
  | nil => rfl
  | cons field fields ih =>
      rw [depth.fieldsDepth, ih, List.map_cons, List.map_cons, List.foldr_cons]

/-- What holds of alike documents whenever it holds of their alike parts holds of all of them. -/
theorem Alike.induction (holds : Json → Json → Prop) (same : ∀ document, holds document document)
    (items : ∀ {list others}, List.Forall₂ holds list others →
      holds (Json.array list) (Json.array others))
    (fields : ∀ {list reordered others : List (String × Json)}, list.Perm reordered →
      reordered.map (·.1) = others.map (·.1) →
      List.Forall₂ holds (reordered.map (·.2)) (others.map (·.2)) →
      holds (Json.object list) (Json.object others))
    {document other : Json} (alike : document.Alike other) : holds document other :=
  @Alike.rec (fun document other _ => holds document other)
    (fun documents others _ => List.Forall₂ holds documents others) same
    (fun _ each => items each) (fun order names _ values => fields order names values) .nil
    (fun _ _ here rest => .cons here rest) document other alike

/-- Documents that are alike are nested equally deep. -/
theorem Alike.depth_eq {document other : Json} (alike : document.Alike other) :
    document.depth = other.depth := by
  have listed : ∀ {items others : List Json},
      List.Forall₂ (fun document other => document.depth = other.depth) items others →
      items.map depth = others.map depth := by
    intro items others each
    rwa [← List.forall₂_eq_eq_eq, List.forall₂_map_left_iff, List.forall₂_map_right_iff]
  refine Alike.induction (fun document other => document.depth = other.depth) (fun _ => rfl) ?_ ?_
    alike
  · intro items others each
    rw [depth, depth, itemsDepth_eq_foldr, itemsDepth_eq_foldr, listed each]
  · intro fields reordered others order _ values
    rw [depth, depth, fieldsDepth_eq_foldr, fieldsDepth_eq_foldr, ← listed values]
    exact congrArg (· + 1) (((order.map _).map _).foldr_eq 0)

/-! ## Readers -/

/-- The slot of a field of an object; none if the document is no object or repeats the field. -/
def slotOf? (name : String) : Json → Option Slot
  | object fields => slot? fields name
  | _ => none

/-- A field of an object, read by a rule for its slot. -/
def field? {α : Type} (name : String) (rule : Slot → Option α) (document : Json) : Option α :=
  (document.slotOf? name).bind rule

/-- A field that has to be there. -/
def required? {α : Type} (name : String) (read : Json → Option α) : Json → Option α :=
  field? name (Slot.required read)

/-- A field that may be `null`. -/
def nullable? {α : Type} (name : String) (read : Json → Option α) : Json → Option (Option α) :=
  field? name (Slot.nullable read)

/-- A field that may be left out. -/
def leftOut? {α : Type} (name : String) (read : Json → Option α) : Json → Option (Option α) :=
  field? name (Slot.withDefault none fun document => (read document).map some)

/-- A list that may be left out. -/
def listed? {α : Type} (name : String) (read : Json → Option α) : Json → Option (List α) :=
  field? name (Slot.withDefault [] (list? read))

/-- A natural number. -/
def nat? : Json → Option Nat
  | nat value => some value
  | _ => none

/-- One of the given values, by its word. -/
def named? {α : Type} (word : α → String) (all : List α) (document : Json) : Option α :=
  document.text?.bind fun text => all.find? (word · = text)

/-- A reader that gives the same answer on documents that are alike. -/
def Respectful {α : Type} (read : Json → Option α) : Prop :=
  ∀ ⦃document other : Json⦄, document.Alike other → read document = read other

/-- A rule that gives the same answer if the values written for a field are alike. -/
def RespectfulRule {α : Type} (rule : Slot → Option α) : Prop :=
  ∀ ⦃value other : Json⦄, value.Alike other → rule (.present value) = rule (.present other)

theorem respectful_text? : Respectful text? := by
  intro document other alike
  cases alike <;> rfl

theorem respectful_bool? : Respectful bool? := by
  intro document other alike
  cases alike <;> rfl

theorem respectful_nat? : Respectful nat? := by
  intro document other alike
  cases alike <;> rfl

theorem respectful_named? {α : Type} (word : α → String) (all : List α) :
    Respectful (named? word all) := by
  intro document other alike
  rw [named?, named?, respectful_text? alike]

/-- A value is found by its word if no other has the same. -/
theorem named?_word {α : Type} {word : α → String} {all : List α} (distinct : (all.map word).Nodup)
    {value : α} (member : value ∈ all) : named? word all (string (word value)) = some value := by
  rw [named?, text?_string, Option.bind_some]
  induction all with
  | nil => cases member
  | cons first all ih =>
      rw [List.map_cons, List.nodup_cons] at distinct
      rcases List.mem_cons.1 member with rfl | later
      · rw [List.find?_cons_of_pos (by simp)]
      · rw [List.find?_cons_of_neg, ih distinct.2 later]
        intro same
        rw [decide_eq_true_eq] at same
        exact distinct.1 (same ▸ List.mem_map_of_mem later)

section

variable {α β : Type} {read : Json → Option α}

theorem respectful_list? (respects : Respectful read) : Respectful (list? read) := by
  intro document other alike
  cases alike with
  | refl => rfl
  | object order names values => rfl
  | array each =>
      rw [list?, list?]
      induction each with
      | nil => rfl
      | cons here _ ih => rw [List.mapM_cons, List.mapM_cons, respects here, ih]

theorem respectful_const (answer : Option α) : Respectful fun _ => answer := by
  intro document other alike
  rfl

/-- Reading one thing after another. -/
theorem Respectful.bind (first : Respectful read) {next : α → Json → Option β}
    (second : ∀ value, Respectful (next value)) :
    Respectful fun document => (read document).bind fun value => next value document := by
  intro document other alike
  dsimp only
  rw [first alike]
  exact congrArg _ (funext fun value => second value alike)

theorem Respectful.map (first : Respectful read) (change : α → β) :
    Respectful fun document => (read document).map change := by
  intro document other alike
  dsimp only
  rw [first alike]

/-- What objects that are alike write for a field. -/
theorem forall₂_valuesOf (name : String) {fields : List (String × Json)} :
    ∀ {others : List (String × Json)}, fields.map (·.1) = others.map (·.1) →
      List.Forall₂ Alike (fields.map (·.2)) (others.map (·.2)) →
      List.Forall₂ Alike (valuesOf name fields) (valuesOf name others) := by
  induction fields with
  | nil =>
      intro others names values
      obtain rfl : others = [] := List.map_eq_nil_iff.1 names.symm
      exact .nil
  | cons field fields ih =>
      rintro (_ | ⟨other, others⟩) names values
      · cases names
      · obtain ⟨key, sameNames⟩ := List.cons.inj names
        obtain ⟨here, rest⟩ := List.forall₂_cons.1 values
        have later := ih sameNames rest
        rw [valuesOf, valuesOf] at later ⊢
        have sameKey : field.1 = other.1 := key
        rw [List.filter_cons, List.filter_cons, sameKey]
        split
        · exact .cons here later
        · exact later

/-- A field of alike documents, read by a respectful rule. -/
theorem respectful_field? (name : String) {rule : Slot → Option α}
    (respects : RespectfulRule rule) : Respectful (field? name rule) := by
  intro document other alike
  cases alike with
  | refl => rfl
  | array each => rfl
  | @object fields reordered others order names values =>
      have values := forall₂_valuesOf name names values
      have permuted : (valuesOf name fields).Perm (valuesOf name reordered) :=
        (order.filter _).map _
      rw [field?, field?, slotOf?, slotOf?, slot?, slot?]
      generalize valuesOf name fields = written at permuted
      generalize valuesOf name reordered = middle at permuted values
      generalize valuesOf name others = otherWritten at values
      cases values with
      | nil => rw [permuted.eq_nil]
      | cons here rest =>
          cases rest with
          | nil =>
              rw [List.perm_singleton.1 permuted]
              exact respects here
          | cons next rest =>
              -- Both objects repeat the field.
              have repeated := permuted.length_eq
              rcases written with _ | ⟨first, _ | ⟨second, more⟩⟩
              · cases repeated
              · cases repeated
              · rfl

theorem Respectful.required? (respects : Respectful read) (name : String) :
    Respectful (Json.required? name read) :=
  respectful_field? name respects

theorem Respectful.nullable? (respects : Respectful read) (name : String) :
    Respectful (Json.nullable? name read) := by
  refine respectful_field? name fun value other alike => ?_
  have same := respects alike
  cases alike with
  | refl => rfl
  | array each => simp only [Slot.nullable, same]
  | object order names values => simp only [Slot.nullable, same]

theorem Respectful.listed? (respects : Respectful read) (name : String) :
    Respectful (Json.listed? name read) :=
  respectful_field? name (respectful_list? respects)

theorem Respectful.leftOut? (respects : Respectful read) (name : String) :
    Respectful (Json.leftOut? name read) :=
  respectful_field? name (respects.map some)

end

end Json

end ApiDocs
