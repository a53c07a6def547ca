import ApiDocs.Proofs.Table.Merging
import ApiDocs.Extract

/-!
# What the documentation mentions

References stand at any depth of the documentation: in types, in the types of parameters and their
defaults, in the members of objects, in lists of base types and in the tags of comments.  Every such
place is reached in two moves.  A record **contains** some types, and a type **mentions** the
reference it points at and whatever its parts mention.

## Main definitions

* `Typed` — the types that a record contains, outermost ones only.
* `Ty.parts`, `Ty.target?` — the types directly inside a type, and the reference it points at.
* `Ty.Contains` — a type that occurs in a type, at any depth.
* `Ty.Mentions`, `Documentation.Mentions` — a reference that occurs somewhere.
* `Ty.Throughout`, `Respects` — a property holds of all types that occur in a type, or in a record.

## Main statements

* `Ty.throughout_iff` — a property of all these types, checked part by part.
* `respects_list` and its companions — the same for records, checked field by field.
-/

namespace ApiDocs

/-- Records that contain types. -/
class Typed (α : Type) where
  /-- The types that a record contains, outermost ones only. -/
  types : α → List Ty

open Typed (types)

/-! ## The types in a record -/

section

variable {α κ : Type} [Typed α]

instance : Typed Ty := ⟨fun type => [type]⟩

instance : Typed (Option α) := ⟨fun value => value.toList.flatMap types⟩

instance : Typed (List α) := ⟨fun list => list.flatMap types⟩

instance : Typed (Table κ α) := ⟨fun table => types table.values⟩

end

instance : Typed (TypeParameter Ty) where
  types parameter := types parameter.constraint ++ types parameter.default

instance : Typed (Parameter Ty) where
  types parameter := types parameter.type ++ types parameter.default

instance : Typed (DocTag Ty) where
  types tag := types tag.type

instance : Typed (DocBlock Ty) where
  types doc := types doc.tags

instance : Typed (PropertySignature Ty) where
  types signature := types signature.type ++ types signature.doc

instance : Typed (IndexSignature Ty) where
  types signature := types signature.keyType ++ types signature.type

instance : Typed (Member Ty) where
  types
    | .property signature => types signature
    | .index signature => types signature

instance : Typed TypeReference where
  types reference := [reference.toTy]

instance : Typed FunctionSignature where
  types signature := types signature.parameters ++ types signature.typeParameters ++
    types signature.result ++ types signature.doc

instance : Typed FunctionRecord where
  types record := types record.doc ++ types record.signatures

instance : Typed ClassProperty where
  types property := types property.type ++ types property.doc

instance : Typed ClassMethod where
  types method := types method.signatures

instance : Typed ClassBody where
  types body := types body.properties ++ types body.methods ++ types body.constructorParameters

instance : Typed ClassRecord where
  types record := types record.typeParameters ++ types record.body ++ types record.base ++
    types record.implemented ++ types record.doc

instance : Typed InterfaceRecord where
  types record := types record.typeParameters ++ types record.members ++ types record.bases ++
    types record.docs

instance : Typed EnumMember where
  types member := types member.doc

instance : Typed EnumRecord where
  types record := types record.members ++ types record.docs

instance : Typed AliasRecord where
  types record := types record.typeParameters ++ types record.value ++ types record.doc

instance : Typed ConstantRecord where
  types record := types record.type ++ types record.doc

instance : Typed DocModule where
  types module := types module.classes ++ types module.interfaces ++ types module.enums ++
    types module.aliases ++ types module.functions ++ types module.constants

/-! ## Mentioned references -/

namespace Ty

/-- The reference that a type points at. -/
def target? : Ty → Option Reference
  | reference target _ => some target
  | _ => none

/-- The types directly inside a type. -/
def parts : Ty → List Ty
  | reference _ arguments => types arguments
  | arrow parameters result typeParameters =>
    types parameters ++ types result ++ types typeParameters
  | object members => types members
  | union list => types list
  | intersection list => types list
  | tuple list => types list
  | array element => types element
  | unique inner => types inner
  | keyof inner => types inner
  | readonly inner => types inner
  | _ => []

/-- A type occurs in a type, at any depth. -/
inductive Contains : Ty → Ty → Prop
  | here {type : Ty} : Contains type type
  | inside {type part inner : Ty} (isPart : part ∈ type.parts) (deeper : Contains part inner) :
      Contains type inner

/-- A reference occurs in a type, at any depth. -/
inductive Mentions : Ty → Reference → Prop
  | here {type : Ty} {target : Reference} (points : type.target? = some target) :
      Mentions type target
  | inside {type part : Ty} {target : Reference} (isPart : part ∈ type.parts)
      (deeper : Mentions part target) : Mentions type target

/-- What a type mentions, some type that occurs in it points at. -/
theorem Mentions.exists_contains {type : Ty} {target : Reference}
    (mentions : type.Mentions target) :
    ∃ inner, type.Contains inner ∧ inner.target? = some target := by
  induction mentions with
  | here points => exact ⟨_, .here, points⟩
  | inside isPart _ ih =>
      obtain ⟨inner, deeper, points⟩ := ih
      exact ⟨inner, .inside isPart deeper, points⟩

/-- A property holds of all types that occur in a type. -/
def Throughout (holds : Ty → Prop) (type : Ty) : Prop :=
  ∀ inner, type.Contains inner → holds inner

/-- What holds throughout a type is checked part by part. -/
theorem throughout_iff {holds : Ty → Prop} {type : Ty} :
    type.Throughout holds ↔ holds type ∧ ∀ part ∈ type.parts, part.Throughout holds := by
  constructor
  · intro all
    exact ⟨all type .here, fun part isPart inner deeper => all inner (.inside isPart deeper)⟩
  · rintro ⟨own, parts⟩ inner contains
    cases contains with
    | here => exact own
    | inside isPart deeper => exact parts _ isPart inner deeper

end Ty

/-- A reference occurs in a documentation: in a type of one of its modules. -/
def Documentation.Mentions (documentation : Documentation) (target : Reference) : Prop :=
  ∃ id module type, documentation.tree.get? id = some module ∧ type ∈ types module ∧
    type.Mentions target

/-- A property holds throughout the types in a record. -/
def Respects {α : Type} [Typed α] (holds : Ty → Prop) (value : α) : Prop :=
  ∀ type ∈ types value, type.Throughout holds

/-! ## Records, field by field -/

section

variable {α : Type} [Typed α] {holds : Ty → Prop}

@[simp] theorem respects_ty {type : Ty} : Respects holds type ↔ type.Throughout holds := by
  simp [Respects, types]

@[simp] theorem respects_none : Respects holds (none : Option α) ↔ True := by
  simp [Respects, types]

@[simp] theorem respects_some {value : α} : Respects holds (some value) ↔ Respects holds value := by
  simp [Respects, types]

@[simp] theorem respects_list {list : List α} :
    Respects holds list ↔ ∀ value ∈ list, Respects holds value := by
  simp only [Respects, types, List.mem_flatMap]
  exact ⟨fun all value member type inside => all type ⟨value, member, inside⟩,
    fun each type ⟨value, member, inside⟩ => each value member type inside⟩

end

section

variable {holds : Ty → Prop}

@[simp] theorem respects_typeParameter {parameter : TypeParameter Ty} :
    Respects holds parameter ↔
      Respects holds parameter.constraint ∧ Respects holds parameter.default :=
  List.forall_mem_append

@[simp] theorem respects_parameter {parameter : Parameter Ty} :
    Respects holds parameter ↔
      Respects holds parameter.type ∧ Respects holds parameter.default :=
  List.forall_mem_append

@[simp] theorem respects_docBlock {doc : DocBlock Ty} :
    Respects holds doc ↔ Respects holds doc.tags :=
  Iff.rfl

@[simp] theorem respects_member_property {signature : PropertySignature Ty} :
    Respects holds (Member.property signature) ↔
      Respects holds signature.type ∧ Respects holds signature.doc :=
  List.forall_mem_append

@[simp] theorem respects_member_index {signature : IndexSignature Ty} :
    Respects holds (Member.index signature) ↔
      Respects holds signature.keyType ∧ Respects holds signature.type :=
  List.forall_mem_append

@[simp] theorem respects_functionSignature {signature : FunctionSignature} :
    Respects holds signature ↔
      Respects holds signature.parameters ∧ Respects holds signature.typeParameters ∧
        Respects holds signature.result ∧ Respects holds signature.doc := by
  simp only [Respects, types, List.forall_mem_append, and_assoc]

@[simp] theorem respects_classProperty {property : ClassProperty} :
    Respects holds property ↔ Respects holds property.type ∧ Respects holds property.doc :=
  List.forall_mem_append

@[simp] theorem respects_classMethod {method : ClassMethod} :
    Respects holds method ↔ Respects holds method.signatures :=
  Iff.rfl

@[simp] theorem respects_classBody {body : ClassBody} :
    Respects holds body ↔
      Respects holds body.properties ∧ Respects holds body.methods ∧
        Respects holds body.constructorParameters := by
  simp only [Respects, types, List.forall_mem_append, and_assoc]

@[simp] theorem respects_classRecord {record : ClassRecord} :
    Respects holds record ↔
      Respects holds record.typeParameters ∧ Respects holds record.body ∧
        Respects holds record.base ∧ Respects holds record.implemented ∧
        Respects holds record.doc := by
  simp only [Respects, types, List.forall_mem_append, and_assoc]

@[simp] theorem respects_enumMember {member : EnumMember} :
    Respects holds member ↔ Respects holds member.doc :=
  Iff.rfl

@[simp] theorem respects_aliasRecord {record : AliasRecord} :
    Respects holds record ↔
      Respects holds record.typeParameters ∧ Respects holds record.value ∧
        Respects holds record.doc := by
  simp only [Respects, types, List.forall_mem_append, and_assoc]

@[simp] theorem respects_constantRecord {record : ConstantRecord} :
    Respects holds record ↔ Respects holds record.type ∧ Respects holds record.doc :=
  List.forall_mem_append

end

end ApiDocs
