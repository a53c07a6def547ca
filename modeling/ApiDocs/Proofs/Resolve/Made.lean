import ApiDocs.Proofs.Model.Mention

/-!
# What resolved types are made of

Resolution makes a type in one of three ways.  It makes references to what the names of a file stand
for, it makes object types from the type literals of the file, and everything else it puts together
from types that it has made before.  So what is to hold of **every type that occurs in a resolved
type, at any depth**, needs to be checked for these three ways only.

## Main definitions

* `Yields` — the value of a computation has a property.
* `Resolver.Names` — a reference is what some name of a file stands for.
* `Resolver.Makes` — a type is made in one of the three ways.

## Main statements

* `makes_typeStep`, `makes_type` — all types in a resolved type are made in one of these ways, by
  induction on the depth of resolution.

## Design notes

**Makers do not look inside.**  `Resolver.Makes` says how the outermost layer of a type came about;
the layers below have reasons of their own, which `Respects` collects part by part.
-/

namespace ApiDocs

open Typed (types)

/-! ## Values of computations -/

/-- The value of a computation has a property. -/
def Yields {α : Type} (property : α → Prop) (computation : Id α) : Prop :=
  property computation.run

namespace Yields

variable {α β : Type} {property : α → Prop} {next : β → Prop}

protected theorem pure {value : α} (holds : property value) :
    Yields property (Pure.pure value) :=
  holds

protected theorem bind {computation : Id α} {continuation : α → Id β}
    (first : Yields property computation)
    (rest : ∀ value, property value → Yields next (continuation value)) :
    Yields next (computation >>= continuation) :=
  rest computation.run first

protected theorem map {computation : Id α} {change : α → β}
    (first : Yields property computation)
    (changed : ∀ value, property value → next (change value)) :
    Yields next (Id.instMonad.map change computation) :=
  changed computation.run first

variable [Typed β] {holds : Ty → Prop}

protected theorem mapM {compute : α → Id β}
    (each : ∀ element, Yields (Respects holds) (compute element)) (list : List α) :
    Yields (Respects holds) (list.mapM compute) := by
  induction list with
  | nil =>
      rw [List.mapM_nil]
      exact .pure (by simp)
  | cons element rest ih =>
      rw [List.mapM_cons]
      refine (each element).bind fun first firstHolds => ih.bind fun others othersHold => .pure ?_
      exact respects_list.2 (List.forall_mem_cons.2 ⟨firstHolds, respects_list.1 othersHold⟩)

protected theorem collectM {answer? : α → Id (Option β)}
    (each : ∀ element, Yields (Respects holds) (answer? element)) (list : List α) :
    Yields (Respects holds) (collectM answer? list) := by
  induction list with
  | nil => exact .pure (by simp)
  | cons element rest ih =>
      refine (each element).bind fun first firstHolds => ih.bind fun others othersHold => .pure ?_
      cases first with
      | none => exact othersHold
      | some value =>
          exact respects_list.2 (List.forall_mem_cons.2
            ⟨respects_some.1 firstHolds, respects_list.1 othersHold⟩)

end Yields

/-! ## Three ways to make a type -/

/-- A type that is neither a reference nor an object type. -/
def Ty.isPlain : Ty → Bool
  | reference _ _ => false
  | object _ => false
  | _ => true

namespace Resolver

/-- A reference is what some name of a file stands for, or a text that stands for nothing. -/
inductive Names (resolver : Resolver Id) (scope : Scope) : Reference → Prop
  | written (text : String) : Names resolver scope (.written text)
  | symbol (id : SymbolId) (text : String) :
      Names resolver scope (resolver.symbolReference id text).run
  | typeName (index : NodeIndex) : Names resolver scope (resolver.typeName scope index).run
  | valueName (index : NodeIndex) : Names resolver scope (resolver.valueName scope index).run
  | baseName (index : NodeIndex) : Names resolver scope (resolver.heritageName scope index).run
  | moduleMember {index : NodeIndex} {target : Reference}
      (known : (resolver.moduleAccess? scope index).run = some target) :
      Names resolver scope target

/-- The ways in which the resolver makes the outermost layer of a type: as a reference to what a
name of the file stands for, as an object type with the members of a type literal of the file, or as
any other form. -/
inductive Makes (resolver : Resolver Id) (scope : Scope) : Ty → Prop
  | plain {type : Ty} (isPlain : type.isPlain = true) : Makes resolver scope type
  | reference {target : Reference} (named : resolver.Names scope target) (arguments : List Ty) :
      Makes resolver scope (.reference target arguments)
  | object (type : NodeIndex → Id Ty) {literal : NodeIndex} {list : NodeList}
      (isLiteral : scope.source.arena.payload? literal = some (.typeLiteral list)) :
      Makes resolver scope (.object (resolver.members type scope list).run)

variable {resolver : Resolver Id} {scope : Scope}

theorem throughout_of_plain {type : Ty} (isPlain : type.isPlain = true)
    (parts : ∀ part ∈ type.parts, part.Throughout (resolver.Makes scope)) :
    type.Throughout (resolver.Makes scope) :=
  Ty.throughout_iff.2 ⟨.plain isPlain, parts⟩

@[simp] theorem throughout_written (text : String) :
    (Ty.written text).Throughout (resolver.Makes scope) :=
  throughout_of_plain rfl (List.forall_mem_nil _)

@[simp] theorem throughout_keyword (word : Keyword) :
    (Ty.keyword word).Throughout (resolver.Makes scope) :=
  throughout_of_plain rfl (List.forall_mem_nil _)

@[simp] theorem throughout_numberLiteral (value : String) :
    (Ty.numberLiteral value).Throughout (resolver.Makes scope) :=
  throughout_of_plain rfl (List.forall_mem_nil _)

@[simp] theorem throughout_stringLiteral (value : String) :
    (Ty.stringLiteral value).Throughout (resolver.Makes scope) :=
  throughout_of_plain rfl (List.forall_mem_nil _)

theorem throughout_reference {target : Reference} (named : resolver.Names scope target)
    {arguments : List Ty} (parts : Respects (resolver.Makes scope) arguments) :
    (Ty.reference target arguments).Throughout (resolver.Makes scope) :=
  Ty.throughout_iff.2 ⟨.reference named arguments, parts⟩

theorem throughout_arrow {parameters : List (Parameter Ty)} {result : Option Ty}
    {typeParameters : List (TypeParameter Ty)}
    (one : Respects (resolver.Makes scope) parameters)
    (two : Respects (resolver.Makes scope) result)
    (three : Respects (resolver.Makes scope) typeParameters) :
    (Ty.arrow parameters result typeParameters).Throughout (resolver.Makes scope) :=
  throughout_of_plain rfl
    (List.forall_mem_append.2 ⟨List.forall_mem_append.2 ⟨one, two⟩, three⟩)

theorem throughout_literalType (index : NodeIndex) :
    (literalType scope index).Throughout (resolver.Makes scope) := by
  rw [literalType]
  split
  case h_4 => split <;> simp
  all_goals simp

/-! ## Parts of types -/

section

variable {type : NodeIndex → Id Ty}
variable (each : ∀ index, Yields (Respects (resolver.Makes scope)) (type index))
include each

theorem makes_optionalType (index : NodeIndex) :
    Yields (Respects (resolver.Makes scope)) (optionalType type index) := by
  rw [optionalType]
  cases index.toOption with
  | none => exact .pure (by simp)
  | some index => exact (each index).map fun _ => respects_some.2

theorem makes_typeList (list : Option NodeList) :
    Yields (Respects (resolver.Makes scope)) (typeList type list) :=
  .mapM each (list.getD [])

theorem makes_doc? (index : NodeIndex) :
    Yields (Respects (resolver.Makes scope)) (doc? type scope index) := by
  rw [doc?]
  cases (scope.source.comments index).getLast? with
  | none => exact .pure (by simp)
  | some comment =>
      have tags : Yields (Respects (resolver.Makes scope))
          (comment.tags.mapM (docTag type)) := by
        refine .mapM (fun tag => ?_) comment.tags
        exact (makes_optionalType each tag.type).bind fun _ => .pure
      have block : Yields (Respects (resolver.Makes scope)) (docBlock type comment) := by
        refine tags.bind fun found foundHolds => .pure ?_
        rw [respects_docBlock]
        split
        · exact respects_none.2 trivial
        · exact respects_some.2 foundHolds
      exact block.map fun _ => respects_some.2

theorem makes_heritage (index : NodeIndex) :
    Yields (Respects (resolver.Makes scope)) (resolver.heritage type scope index) := by
  have named : ∀ index, Yields (resolver.Names scope) (resolver.heritageName scope index) :=
    .baseName
  simp only [heritage]
  split
  · refine (named _).bind fun target isNamed => ?_
    refine (makes_typeList each _).bind fun arguments argumentsHold => .pure ?_
    exact List.forall_mem_singleton.2 (throughout_reference isNamed argumentsHold)
  · exact .pure (List.forall_mem_singleton.2 (throughout_reference (.written _) (by simp)))

theorem makes_expression (index : NodeIndex) :
    Yields (Respects (resolver.Makes scope)) (resolver.expression type scope index) := by
  have named : ∀ index, Yields (resolver.Names scope) (resolver.valueName scope index) :=
    .valueName
  have member : Yields (fun answer => ∀ target, answer = some target →
      resolver.Names scope target) (resolver.moduleAccess? scope index) :=
    fun _ => .moduleMember
  simp only [expression]
  split
  case h_10 =>
    split
    · refine (named _).bind fun target isNamed => ?_
      refine (makes_typeList each _).bind fun arguments argumentsHold => .pure ?_
      exact respects_ty.2 (throughout_reference isNamed argumentsHold)
    · exact .pure (by simp)
  case h_11 =>
    refine member.bind fun answer isNamed => ?_
    cases answer with
    | none => exact .pure (by simp)
    | some target =>
        exact .pure (respects_ty.2 (throughout_reference (isNamed target rfl) (by simp)))
  case h_8 => split <;> exact .pure (by simp)
  case h_9 => split <;> exact .pure (by simp)
  all_goals exact .pure (by simp)

theorem makes_typeParameters (list : Option NodeList) :
    Yields (Respects (resolver.Makes scope)) (typeParameters type scope list) := by
  refine .collectM (fun index => ?_) (list.getD [])
  simp only [typeParameter?]
  split
  · refine (makes_optionalType each _).bind fun constraint constraintHolds => ?_
    refine (makes_optionalType each _).bind fun default defaultHolds => .pure ?_
    rw [respects_some, respects_typeParameter]
    exact ⟨constraintHolds, defaultHolds⟩
  · exact .pure (by simp)

theorem makes_parameters (list : NodeList) :
    Yields (Respects (resolver.Makes scope)) (resolver.parameters type scope list) := by
  refine .collectM (fun index => ?_) list
  simp only [parameter?]
  split
  · refine (makes_optionalType each _).bind fun typeNode typeHolds => ?_
    refine (makes_optionalType (makes_expression each) _).bind
      fun default defaultHolds => .pure ?_
    rw [respects_some, respects_parameter]
    exact ⟨typeHolds, defaultHolds⟩
  · exact .pure (by simp)

omit each

mutual

theorem makes_inferredType? (resolver : Resolver Id) (scope : Scope) :
    ∀ inferred : InferredType,
      Yields (Respects (resolver.Makes scope)) (resolver.inferredType? inferred)
  | ⟨text, none, arguments⟩ => by
      simp only [inferredType?]
      exact .pure (by simp)
  | ⟨text, some symbol, arguments⟩ => by
      have named : Yields (resolver.Names scope) (resolver.symbolReference symbol text) :=
        .symbol symbol text
      simp only [inferredType?]
      refine named.bind fun target isNamed => ?_
      refine (makes_inferredArguments resolver scope arguments).bind
        fun found foundHold => .pure ?_
      exact respects_some.2 (respects_ty.2 (throughout_reference isNamed foundHold))

theorem makes_inferredArguments (resolver : Resolver Id) (scope : Scope) :
    ∀ arguments : List InferredType,
      Yields (Respects (resolver.Makes scope)) (resolver.inferredArguments arguments)
  | [] => by
      simp only [inferredArguments]
      exact .pure (by simp)
  | argument :: arguments => by
      simp only [inferredArguments]
      refine (makes_inferredType? resolver scope argument).bind fun first firstHolds => ?_
      refine (makes_inferredArguments resolver scope arguments).bind
        fun others othersHold => .pure ?_
      refine respects_list.2 (List.forall_mem_cons.2 ⟨?_, respects_list.1 othersHold⟩)
      cases first with
      | none => simp
      | some type => exact respects_some.1 firstHolds

end

include each

theorem makes_resultType? (declaration typeNode : NodeIndex) :
    Yields (Respects (resolver.Makes scope))
      (resolver.resultType? type scope declaration typeNode) := by
  simp only [resultType?]
  split
  · exact (each _).map fun _ => respects_some.2
  · split
    · exact makes_inferredType? resolver scope _
    · exact .pure (by simp)

theorem makes_signature? (index : NodeIndex) :
    Yields (Respects (resolver.Makes scope)) (resolver.signature? type scope index) := by
  simp only [signature?]
  split
  · refine (makes_parameters each _).bind fun parameters parametersHold => ?_
    refine (makes_typeParameters each _).bind fun typeParameters typeParametersHold => ?_
    refine (makes_resultType? each index _).bind fun result resultHolds => ?_
    refine (makes_doc? each index).bind fun doc docHolds => .pure ?_
    rw [respects_some, respects_functionSignature]
    exact ⟨parametersHold, typeParametersHold, resultHolds, docHolds⟩
  · exact .pure (by simp)

theorem makes_propertyMember (index : NodeIndex) (data : PropertyPayload) :
    Yields (Respects (resolver.Makes scope)) (propertyMember type scope index data) := by
  refine (makes_optionalType each _).bind fun typeNode typeHolds => ?_
  refine (makes_doc? each index).bind fun doc docHolds => .pure ?_
  exact respects_member_property.2 ⟨typeHolds, docHolds⟩

theorem makes_methodMember (index : NodeIndex) (data : FunctionPayload) :
    Yields (Respects (resolver.Makes scope)) (resolver.methodMember type scope index data) := by
  refine (makes_parameters each _).bind fun parameters parametersHold => ?_
  refine (makes_resultType? each index _).bind fun result resultHolds => ?_
  refine (makes_typeParameters each _).bind fun typeParameters typeParametersHold => ?_
  refine (makes_doc? each index).bind fun doc docHolds => .pure ?_
  have arrow := throughout_arrow parametersHold resultHolds typeParametersHold
  exact respects_member_property.2 ⟨respects_some.2 (respects_ty.2 arrow), docHolds⟩

theorem makes_indexMember (data : IndexSignaturePayload) :
    Yields (Respects (resolver.Makes scope)) (indexMember type scope data) := by
  refine (makes_optionalType each _).bind fun keyType keyHolds => ?_
  refine (makes_optionalType each _).bind fun value valueHolds => .pure ?_
  exact respects_member_index.2 ⟨keyHolds, valueHolds⟩

theorem makes_members (list : NodeList) :
    Yields (Respects (resolver.Makes scope)) (resolver.members type scope list) := by
  refine .collectM (fun index => ?_) list
  simp only [member?]
  split
  · exact .pure (by simp)
  · split
    · exact (makes_propertyMember each index _).map fun _ => respects_some.2
    · exact (makes_propertyMember each index _).map fun _ => respects_some.2
    · exact (makes_methodMember each index _).map fun _ => respects_some.2
    · exact (makes_indexMember each _).map fun _ => respects_some.2
    · exact .pure (by simp)

/-! ## Types -/

omit each in
theorem makes_thisType (index : NodeIndex) (text : String) :
    Yields (Respects (resolver.Makes scope))
      (structuralType.thisType resolver scope index (.written text)) := by
  simp only [structuralType.thisType]
  split
  · have named : ∀ id text, Yields (resolver.Names scope) (resolver.symbolReference id text) :=
      .symbol
    refine (named _ _).bind fun target isNamed => .pure ?_
    exact respects_ty.2 (throughout_reference isNamed (by simp))
  · exact .pure (by simp)

theorem makes_functionType (node : Node) (text : String) :
    Yields (Respects (resolver.Makes scope))
      (structuralType.functionType resolver scope type node (.written text)) := by
  simp only [structuralType.functionType]
  split
  · refine (makes_parameters each _).bind fun parameters parametersHold => ?_
    refine (makes_optionalType each _).bind fun result resultHolds => ?_
    refine (makes_typeParameters each _).bind fun typeParameters typeParametersHold => .pure ?_
    exact respects_ty.2 (throughout_arrow parametersHold resultHolds typeParametersHold)
  · exact .pure (by simp)

/-- Unions, intersections and tuples have the listed types as their parts. -/
theorem makes_composite (node : Node) (text : String) {combine : List Ty → Ty}
    (isPlain : ∀ list, (combine list).isPlain = true)
    (parts : ∀ list, (combine list).parts = types list) :
    Yields (Respects (resolver.Makes scope))
      (structuralType.composite type node (.written text) combine) := by
  simp only [structuralType.composite]
  split
  · refine (makes_typeList each _).map fun list listHolds => respects_ty.2 ?_
    exact throughout_of_plain (isPlain list) (parts list ▸ listHolds)
  · exact .pure (by simp)

/-- Arrays and operators have one type as their part. -/
theorem makes_operation (operand : NodeIndex) {operate : Ty → Ty}
    (isPlain : ∀ part, (operate part).isPlain = true)
    (parts : ∀ part, (operate part).parts = types part) :
    Yields (Respects (resolver.Makes scope)) (Id.instMonad.map operate (type operand)) := by
  refine (each operand).map fun part partHolds => respects_ty.2 ?_
  exact throughout_of_plain (isPlain part) (parts part ▸ partHolds)

/-- Every kind of type is made in one of the three ways from types that are. -/
theorem makes_structuralType {index : NodeIndex} {node : Node}
    (found : scope.source.arena.get? index = some node) :
    Yields (Respects (resolver.Makes scope))
      (resolver.structuralType scope type index node) := by
  have named : ∀ index, Yields (resolver.Names scope) (resolver.typeName scope index) :=
    .typeName
  have literal : Respects (resolver.Makes scope) (literalType scope index) :=
    respects_ty.2 (throughout_literalType index)
  simp only [structuralType]
  split
  · split
    · refine (named _).bind fun target isNamed => ?_
      refine (makes_typeList each _).bind fun arguments argumentsHold => .pure ?_
      exact respects_ty.2 (throughout_reference isNamed argumentsHold)
    · exact .pure (by simp)
  · exact (named index).bind fun target isNamed =>
      .pure (respects_ty.2 (throughout_reference isNamed (by simp)))
  · exact (named index).bind fun target isNamed =>
      .pure (respects_ty.2 (throughout_reference isNamed (by simp)))
  · exact (makes_heritage each index).bind fun _ => .pure
  · exact makes_thisType index _
  · exact makes_thisType index _
  · exact makes_functionType each node _
  · exact makes_functionType each node _
  · split
    · rename_i list payloadIs
      have isLiteral : scope.source.arena.payload? index = some (.typeLiteral list) := by
        rw [Arena.payload?, found, Option.map_some, payloadIs]
      exact respects_ty.2 (Ty.throughout_iff.2 ⟨.object type isLiteral, makes_members each list⟩)
    · exact .pure (by simp)
  · exact makes_composite each node _ (fun _ => rfl) fun _ => rfl
  · exact makes_composite each node _ (fun _ => rfl) fun _ => rfl
  · exact makes_composite each node _ (fun _ => rfl) fun _ => rfl
  · split
    · exact makes_operation each _ (fun _ => rfl) fun _ => rfl
    · exact .pure (by simp)
  · split
    · split
      · rename_i operator operand _ _ operate isOperator
        cases operator <;> cases isOperator <;>
          exact makes_operation each _ (fun _ => rfl) fun _ => rfl
      · exact .pure (by simp)
    · exact .pure (by simp)
  · split
    · exact each _
    · exact .pure (by simp)
  · split
    · exact .pure (respects_ty.2 (throughout_literalType _))
    · exact .pure (by simp)
  · exact .pure literal
  · exact .pure literal
  · exact .pure literal
  · exact .pure literal
  · exact .pure (by simp)

/-- One step of resolution. -/
theorem makes_typeStep (index : NodeIndex) :
    Yields (Respects (resolver.Makes scope)) (resolver.typeStep scope type index) := by
  simp only [typeStep]
  split
  · exact .pure (by simp)
  · rename_i node found
    split
    · exact .pure (by simp)
    · exact makes_structuralType each found

end

/-- **All types that occur in a resolved type are made in one of the three ways.** -/
theorem makes_type (resolver : Resolver Id) (scope : Scope) (index : NodeIndex) :
    Yields (Respects (resolver.Makes scope)) (resolver.type scope index) := by
  have within : ∀ depth index,
      Yields (Respects (resolver.Makes scope)) (resolver.typeWithin scope depth index) := by
    intro depth
    induction depth with
    | zero => intro index; exact .pure (by simp)
    | succ depth ih => intro index; exact makes_typeStep ih index
  exact within _ index

end Resolver

end ApiDocs
