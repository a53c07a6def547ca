import ApiDocs.Proofs.Extract.Members
import ApiDocs.Proofs.Extract.Replacement
import ApiDocs.Proofs.Resolve.Made

/-!
# The types in declarations

Types get into the documentation with declarations, and filing a declaration brings no others: the
types that a module contains are **those of the declarations filed in it**.  And a declaration takes
its types from the resolver, so all types that occur in it are made in one of the three ways.

## Main definitions

* `Typed Declaration` — the types that occur in a declaration.
* `SourceFile.Has` — the node at an index has a kind and data.

## Main statements

* `types_ofDeclarations` — the types of a module are those of its declarations.
* `makes_declaration` — the types in a declaration are made by the resolver.
-/

namespace ApiDocs

open Typed (types)

instance : Typed Declaration where
  types
    | .classDecl record => types record
    | .interfaceDecl own =>
      types own.typeParameters ++ types own.members ++ types own.bases ++ types own.doc
    | .enumDecl own => types own.members ++ types own.doc
    | .aliasDecl record => types record
    | .functionDecl own => types own.signature
    | .constants records => types records

/-! ## The types in a record -/

section

variable {α : Type} [Typed α] {type : Ty}

theorem mem_types_list {list : List α} : type ∈ types list ↔ ∃ value ∈ list, type ∈ types value :=
  List.mem_flatMap

theorem mem_types_option {value : Option α} :
    type ∈ types value ↔ ∃ inner, value = some inner ∧ type ∈ types inner := by
  cases value with
  | none => simp [types]
  | some inner => simp [types]

/-- The types in what some elements of a list give. -/
theorem mem_types_filterMap {β : Type} {select : β → Option α} {list : List β}
    (member : type ∈ types (list.filterMap select)) :
    ∃ element ∈ list, type ∈ types (select element) := by
  obtain ⟨value, among, inside⟩ := mem_types_list.1 member
  obtain ⟨element, isElement, selected⟩ := List.mem_filterMap.1 among
  exact ⟨element, isElement, mem_types_option.2 ⟨value, selected, inside⟩⟩

theorem respects_filterMap {β : Type} {holds : Ty → Prop} {select : β → Option α} {list : List β}
    (each : ∀ element, Respects holds (select element)) :
    Respects holds (list.filterMap select) := by
  intro type member
  obtain ⟨element, -, inside⟩ := mem_types_filterMap member
  exact each element type inside

theorem mem_types_flatMap {β : Type} {select : β → List α} {list : List β}
    (member : type ∈ types (list.flatMap select)) :
    ∃ element ∈ list, type ∈ types (select element) := by
  obtain ⟨value, among, inside⟩ := mem_types_list.1 member
  obtain ⟨element, isElement, selected⟩ := List.mem_flatMap.1 among
  exact ⟨element, isElement, mem_types_list.2 ⟨value, selected, inside⟩⟩

end

theorem mem_types_interfaceRecord {record : InterfaceRecord} {type : Ty} :
    type ∈ types record ↔ type ∈ types record.typeParameters ∨ type ∈ types record.members ∨
      type ∈ types record.bases ∨ type ∈ types record.docs := by
  simp only [types, List.mem_append, or_assoc]

theorem mem_types_interfaceDecl {own : InterfaceDeclaration} {type : Ty} :
    type ∈ types (Declaration.interfaceDecl own) ↔ type ∈ types own.typeParameters ∨
      type ∈ types own.members ∨ type ∈ types own.bases ∨ type ∈ types own.doc := by
  simp only [types, List.mem_append, or_assoc]

theorem respects_interfaceDecl {own : InterfaceDeclaration} {holds : Ty → Prop} :
    Respects holds (Declaration.interfaceDecl own) ↔
      Respects holds own.typeParameters ∧ Respects holds own.members ∧
        Respects holds own.bases ∧ Respects holds own.doc := by
  simp only [Respects, types, List.forall_mem_append, and_assoc]

theorem respects_enumDecl {own : EnumDeclaration} {holds : Ty → Prop} :
    Respects holds (Declaration.enumDecl own) ↔
      Respects holds own.members ∧ Respects holds own.doc :=
  List.forall_mem_append

theorem mem_types_docModule {module : DocModule} {type : Ty} :
    type ∈ types module ↔ type ∈ types module.classes ∨ type ∈ types module.interfaces ∨
      type ∈ types module.enums ∨ type ∈ types module.aliases ∨ type ∈ types module.functions ∨
      type ∈ types module.constants := by
  simp only [types, List.mem_append, or_assoc]

/-! ## The records of a module -/

namespace Table

variable {κ α : Type} [DecidableEq κ] {table : Table κ α}

/-- Where keys are distinct, look-up answers every entry. -/
theorem find?_of_mem_entries (distinct : table.keys.Nodup) {key : κ} {value : α}
    (member : (key, value) ∈ table.entries) : table.find? key = some value := by
  obtain ⟨entries⟩ := table
  simp only [keys, find?] at distinct member ⊢
  induction entries with
  | nil => cases member
  | cons entry rest ih =>
      rw [List.map_cons, List.nodup_cons] at distinct
      rcases List.mem_cons.1 member with rfl | later
      · exact if_pos rfl
      · have different : entry.1 ≠ key := by
          rintro rfl
          exact distinct.1 (List.mem_map.2 ⟨_, later, rfl⟩)
        exact (if_neg different).trans (ih distinct.2 later)

/-- Where keys stand in the order of a list, look-up answers every value. -/
theorem find?_of_mem_values {table : Table String α} {names : List String}
    (order : table.keys = names.eraseDups) {value : α} (member : value ∈ table.values) :
    ∃ key, table.find? key = some value := by
  obtain ⟨⟨key, _⟩, inside, rfl⟩ := List.mem_map.1 member
  exact ⟨key, find?_of_mem_entries (order ▸ nodup_eraseDups names) inside⟩

theorem mem_values_of_find? {key : κ} {value : α} (found : table.find? key = some value) :
    value ∈ table.values := by
  obtain ⟨entries⟩ := table
  simp only [values, find?] at found ⊢
  induction entries with
  | nil => cases found
  | cons entry rest ih =>
      rw [lookup] at found
      split at found
      · exact List.mem_cons.2 (.inl (Option.some.inj found).symm)
      · exact List.mem_cons_of_mem _ (ih found)

end Table

namespace DocModule

variable {declarations : List Declaration}

theorem mem_of_mem_filter {δ : Type} {select : Declaration → Option δ} {name : δ → String}
    {key : String} {own : δ}
    (member : own ∈ (declarations.filterMap select).filter (name · = key)) :
    ∃ declaration ∈ declarations, select declaration = some own ∧ name own = key := by
  obtain ⟨among, isKey⟩ := List.mem_filter.1 member
  obtain ⟨declaration, inside, selected⟩ := List.mem_filterMap.1 among
  exact ⟨declaration, inside, selected, of_decide_eq_true isKey⟩

/-- A class of a module is declared as it is. -/
theorem mem_classes_ofDeclarations {record : ClassRecord}
    (member : record ∈ (ofDeclarations declarations).classes.values) :
    .classDecl record ∈ declarations := by
  obtain ⟨key, found⟩ := Table.find?_of_mem_values (keys_classes_ofDeclarations _) member
  rw [find?_classes_ofDeclarations] at found
  obtain ⟨declaration, inside, selected, -⟩ := mem_of_mem_filter (List.mem_of_getLast? found)
  cases declaration <;> cases selected
  exact inside

/-- A type alias of a module is declared as it is. -/
theorem mem_aliases_ofDeclarations {record : AliasRecord}
    (member : record ∈ (ofDeclarations declarations).aliases.values) :
    .aliasDecl record ∈ declarations := by
  obtain ⟨key, found⟩ := Table.find?_of_mem_values (keys_aliases_ofDeclarations _) member
  rw [find?_aliases_ofDeclarations] at found
  obtain ⟨declaration, inside, selected, -⟩ := mem_of_mem_filter (List.mem_of_getLast? found)
  cases declaration <;> cases selected
  exact inside

/-- An interface of a module is made of declarations of its name. -/
theorem mem_interfaces_ofDeclarations {record : InterfaceRecord}
    (member : record ∈ (ofDeclarations declarations).interfaces.values) :
    ∃ name own, record = .ofDeclarations name own ∧
      ∀ declaration ∈ own, .interfaceDecl declaration ∈ declarations ∧ declaration.name = name := by
  obtain ⟨key, found⟩ := Table.find?_of_mem_values (keys_interfaces_ofDeclarations _) member
  rw [find?_interfaces_ofDeclarations] at found
  split at found
  · cases found
  · refine ⟨key, _, (Option.some.inj found).symm, fun own among => ?_⟩
    obtain ⟨declaration, inside, selected, isKey⟩ := mem_of_mem_filter among
    cases declaration <;> cases selected
    exact ⟨inside, isKey⟩

/-- An enum of a module is made of declarations of its name. -/
theorem mem_enums_ofDeclarations {record : EnumRecord}
    (member : record ∈ (ofDeclarations declarations).enums.values) :
    ∃ name own, record = .ofDeclarations name own ∧
      ∀ declaration ∈ own, .enumDecl declaration ∈ declarations ∧ declaration.name = name := by
  obtain ⟨key, found⟩ := Table.find?_of_mem_values (keys_enums_ofDeclarations _) member
  rw [find?_enums_ofDeclarations] at found
  split at found
  · cases found
  · refine ⟨key, _, (Option.some.inj found).symm, fun own among => ?_⟩
    obtain ⟨declaration, inside, selected, isKey⟩ := mem_of_mem_filter among
    cases declaration <;> cases selected
    exact ⟨inside, isKey⟩

/-- A function of a module has the signatures of declarations of its name, and the location and the
documentation of one of them. -/
theorem mem_functions_ofDeclarations {record : FunctionRecord}
    (member : record ∈ (ofDeclarations declarations).functions.values) :
    ∃ own : List FunctionDeclaration,
      (∀ declaration ∈ own, .functionDecl declaration ∈ declarations ∧
        declaration.name = record.name) ∧
      record.signatures = own.map (·.signature) ∧
      ∃ first ∈ own, record.location = first.signature.location ∧
        record.doc = first.signature.doc := by
  have order := Table.keys_gather FunctionDeclaration.name
    (fun own => Contribution.newFunction own.name own.exported own.signature)
    (fun own record => { record with signatures := record.signatures ++ [own.signature] })
    (declarations.filterMap Declaration.function?)
  rw [← functions_ofDeclarations] at order
  obtain ⟨key, found⟩ := Table.find?_of_mem_values order member
  rw [find?_functions_ofDeclarations, Option.map_eq_some_iff] at found
  obtain ⟨first, isFirst, rfl⟩ := found
  refine ⟨_, fun own among => ?_, rfl, first, List.mem_of_head? isFirst, rfl, rfl⟩
  obtain ⟨declaration, inside, selected, isKey⟩ := mem_of_mem_filter among
  cases declaration <;> cases selected
  exact ⟨inside, isKey⟩

theorem mem_constants_ofDeclarations {record : ConstantRecord}
    (member : record ∈ (ofDeclarations declarations).constants) :
    ∃ records, .constants records ∈ declarations ∧ record ∈ records := by
  rw [constants_ofDeclarations, List.mem_flatten] at member
  obtain ⟨records, among, inside⟩ := member
  obtain ⟨declaration, isThere, selected⟩ := List.mem_filterMap.1 among
  cases declaration <;> cases selected
  exact ⟨records, isThere, inside⟩

/-! ## The types of a module -/

/-- The types of an interface are those of its declarations. -/
theorem types_interface {name : String} {own : List InterfaceDeclaration} {type : Ty}
    (member : type ∈ types (InterfaceRecord.ofDeclarations name own)) :
    ∃ declaration ∈ own, type ∈ types (Declaration.interfaceDecl declaration) := by
  simp only [mem_types_interfaceDecl]
  rcases mem_types_interfaceRecord.1 member with parameters | members | bases | docs
  · -- The first type parameters that are not empty are those of some declaration.
    obtain ⟨parameter, among, inside⟩ := mem_types_list.1 parameters
    rw [InterfaceRecord.ofDeclarations] at among
    cases found : (own.map (·.typeParameters)).find? (!·.isEmpty) with
    | none => simp [found] at among
    | some list =>
        rw [found, Option.getD_some] at among
        obtain ⟨one, isOne, rfl⟩ := List.mem_map.1 (List.mem_of_find?_eq_some found)
        exact ⟨one, isOne, .inl (mem_types_list.2 ⟨parameter, among, inside⟩)⟩
  · obtain ⟨one, isOne, inside⟩ := mem_types_flatMap members
    exact ⟨one, isOne, .inr (.inl inside)⟩
  · obtain ⟨one, isOne, inside⟩ := mem_types_flatMap bases
    exact ⟨one, isOne, .inr (.inr (.inl inside))⟩
  · obtain ⟨one, isOne, inside⟩ := mem_types_filterMap docs
    exact ⟨one, isOne, .inr (.inr (.inr inside))⟩

/-- The types of a module are those of its declarations. -/
theorem types_ofDeclarations {type : Ty} (member : type ∈ types (ofDeclarations declarations)) :
    ∃ declaration ∈ declarations, type ∈ types declaration := by
  rcases mem_types_docModule.1 member with classes | interfaces | enums | aliases | functions |
    constants
  · obtain ⟨record, isRecord, inside⟩ := mem_types_list.1 classes
    exact ⟨_, mem_classes_ofDeclarations isRecord, inside⟩
  · obtain ⟨record, isRecord, inside⟩ := mem_types_list.1 interfaces
    obtain ⟨name, own, rfl, declared⟩ := mem_interfaces_ofDeclarations isRecord
    obtain ⟨one, among, inside⟩ := types_interface inside
    exact ⟨_, (declared one among).1, inside⟩
  · obtain ⟨record, isRecord, inside⟩ := mem_types_list.1 enums
    obtain ⟨name, own, rfl, declared⟩ := mem_enums_ofDeclarations isRecord
    rcases List.mem_append.1 inside with members | docs
    · obtain ⟨one, among, inside⟩ := mem_types_flatMap members
      exact ⟨_, (declared one among).1, List.mem_append_left _ inside⟩
    · obtain ⟨one, among, inside⟩ := mem_types_filterMap docs
      exact ⟨_, (declared one among).1, List.mem_append_right _ inside⟩
  · obtain ⟨record, isRecord, inside⟩ := mem_types_list.1 aliases
    exact ⟨_, mem_aliases_ofDeclarations isRecord, inside⟩
  · obtain ⟨record, isRecord, inside⟩ := mem_types_list.1 functions
    obtain ⟨own, declared, signatures, first, isFirst, -, doc⟩ :=
      mem_functions_ofDeclarations isRecord
    rcases List.mem_append.1 inside with documented | signed
    · rw [doc] at documented
      exact ⟨_, (declared first isFirst).1, List.mem_append_right _ documented⟩
    · rw [signatures] at signed
      obtain ⟨signature, among, inside⟩ := mem_types_list.1 signed
      obtain ⟨one, isOne, rfl⟩ := List.mem_map.1 among
      exact ⟨_, (declared one isOne).1, inside⟩
  · obtain ⟨record, isRecord, inside⟩ := mem_types_list.1 constants
    obtain ⟨records, declared, isConstant⟩ := mem_constants_ofDeclarations isRecord
    exact ⟨_, declared, mem_types_list.2 ⟨record, isConstant, inside⟩⟩

end DocModule

/-! ## Nodes that declare members -/

namespace SourceFile

/-- The node at an index has a kind and data. -/
def Has (source : SourceFile) (index : NodeIndex) (kind : Kind) (payload : Payload) : Prop :=
  ∃ node, source.arena.get? index = some node ∧ node.kind = kind ∧ node.payload = payload

theorem Has.payload? {source : SourceFile} {index : NodeIndex} {kind : Kind} {payload : Payload}
    (has : source.Has index kind payload) : source.arena.payload? index = some payload := by
  obtain ⟨node, found, -, rfl⟩ := has
  rw [Arena.payload?, found, Option.map_some]

end SourceFile

namespace MethodDeclaration

/-- The signatures that a declaration starts an entry with are its own. -/
theorem signature_of_mem_start {declaration : MethodDeclaration} {signature : FunctionSignature}
    (listed : signature ∈ declaration.start.signatures) : declaration.signature = signature := by
  rw [start] at listed
  split at listed
  · cases listed
  · exact (List.mem_singleton.1 listed).symm

/-- No step that makes an entry takes a signature from elsewhere. -/
theorem signatures_merged {declared : List MethodDeclaration} {entry : ClassMethod}
    (made : Table.merged start change declared = some entry) :
    ∀ signature ∈ entry.signatures, ∃ declaration ∈ declared,
      declaration.signature = signature := by
  cases declared with
  | nil => cases made
  | cons first rest =>
      rw [← Option.some.inj made]
      let Holds (entry : ClassMethod) : Prop :=
        ∀ signature ∈ entry.signatures, ∃ declaration ∈ first :: rest,
          declaration.signature = signature
      have started : ∀ declaration ∈ first :: rest, Holds declaration.start :=
        fun declaration isDeclared signature listed =>
          ⟨declaration, isDeclared, signature_of_mem_start listed⟩
      refine List.foldlRecOn (motive := Holds) _ _ (started first List.mem_cons_self) ?_
      intro entry holds declaration isDeclared
      rw [change]
      split
      · intro signature listed
        rcases List.mem_append.1 listed with before | now
        · exact holds signature before
        · exact ⟨declaration, isDeclared, (List.mem_singleton.1 now).symm⟩
      · exact started declaration isDeclared

/-- The signatures of an entry are declared under its key. -/
theorem signatures_table {declared : List MethodDeclaration} {key : String} {entry : ClassMethod}
    (member : (key, entry) ∈ (table declared).entries) {signature : FunctionSignature}
    (listed : signature ∈ entry.signatures) :
    ∃ declaration ∈ declared, declaration.id.key = key ∧ declaration.signature = signature := by
  have order : (table declared).keys = (declared.map (·.id.key)).eraseDups :=
    Table.keys_gather _ start change declared
  have found := Table.find?_of_mem_entries (order ▸ nodup_eraseDups _) member
  rw [find?_table] at found
  obtain ⟨declaration, inside, isSignature⟩ := signatures_merged found signature listed
  obtain ⟨isDeclared, isKey⟩ := List.mem_filter.1 inside
  exact ⟨declaration, isDeclared, of_decide_eq_true isKey, isSignature⟩

end MethodDeclaration

namespace Resolver

variable {resolver : Resolver Id} {scope : Scope}

/-- The nodes behind the properties of a class: property declarations, and parameters of
constructors. -/
theorem mem_declaredProperties {member : NodeIndex} {property : ClassProperty}
    (declared : property ∈ resolver.declaredProperties scope member) :
    (∃ data, scope.source.Has member .propertyDeclaration (.property data) ∧
        property = resolver.declaredProperty scope member data) ∨
      ∃ constructor parameter data,
        scope.source.Has member .constructor (.functionDecl constructor) ∧
        parameter ∈ constructor.parameters ∧
        scope.source.propertyParameter? parameter = some data ∧
        property = resolver.parameterProperty scope parameter data := by
  rw [declaredProperties] at declared
  cases found : scope.source.arena.get? member with
  | none => simp [found] at declared
  | some node =>
      simp only [found] at declared
      split at declared
      · rename_i data kindIs payloadIs
        exact .inl ⟨data, ⟨node, found, kindIs, payloadIs⟩, List.mem_singleton.1 declared⟩
      · rename_i constructor kindIs payloadIs
        obtain ⟨parameter, isParameter, made⟩ := List.mem_filterMap.1 declared
        obtain ⟨data, accessible, rfl⟩ := Option.map_eq_some_iff.1 made
        exact .inr ⟨constructor, parameter, data, ⟨node, found, kindIs, payloadIs⟩, isParameter,
          accessible, rfl⟩
      · cases declared

/-- The node behind a method or accessor of a class. -/
theorem declaredMethod?_eq_some {member : NodeIndex} {declaration : MethodDeclaration}
    (declared : resolver.declaredMethod? scope member = some declaration) :
    ∃ kind role data, scope.source.Has member kind (.functionDecl data) ∧
      MethodRole.ofKind? kind = some role ∧
      declaration.id = ⟨role, scope.source.declarationName data.name⟩ ∧
      declaration.signature = resolver.declaredSignature scope member data := by
  rw [declaredMethod?] at declared
  cases found : scope.source.arena.get? member with
  | none => simp [found] at declared
  | some node =>
      simp only [found] at declared
      split at declared
      · rename_i role data isRole payloadIs
        cases declared
        exact ⟨node.kind, role, data, ⟨node, found, rfl, payloadIs⟩, isRole, rfl, rfl⟩
      · cases declared

/-! ## The types of a declaration -/

/-- The type of a property is annotated, or else it is made otherwise. -/
theorem makes_annotated {otherwise : Option Ty}
    (makes : Respects (resolver.Makes scope) otherwise) (typeNode : NodeIndex) :
    Respects (resolver.Makes scope)
      (if typeNode.isPresent then some (resolver.type scope typeNode).run else otherwise) := by
  split
  · exact respects_some.2 (makes_type resolver scope typeNode)
  · exact makes

theorem makes_declaredProperties {member : NodeIndex} {property : ClassProperty}
    (declared : property ∈ resolver.declaredProperties scope member) :
    Respects (resolver.Makes scope) property := by
  have each := makes_type resolver scope
  rw [respects_classProperty]
  rcases mem_declaredProperties declared with ⟨own, -, rfl⟩ | ⟨-, parameter, own, -, -, -, rfl⟩
  · refine ⟨makes_annotated ?_ own.typeNode, makes_doc? each member⟩
    split
    · exact respects_some.2 (makes_expression each own.initializer)
    · exact respects_none.2 trivial
  · refine ⟨makes_annotated (respects_none.2 trivial) own.typeNode, ?_⟩
    -- The comment of a parameter has no tags, so there are no types in it.
    rw [parameterProperty]
    cases parameterCommentWithin? scope (resolver.depth scope.source) parameter <;> simp

theorem makes_declaredMethod? {member : NodeIndex} {declaration : MethodDeclaration}
    (declared : resolver.declaredMethod? scope member = some declaration) :
    Respects (resolver.Makes scope) declaration.signature := by
  obtain ⟨kind, role, own, isMethod, -, -, isOwn⟩ := declaredMethod?_eq_some declared
  have signed := makes_signature? (makes_type resolver scope) member
  rw [Yields, resolver.signature?_run scope member isMethod.payload?] at signed
  rw [isOwn]
  exact respects_some.1 signed

theorem makes_declaredConstructor? {member : NodeIndex} {parameters : List (Parameter Ty)}
    (declared : resolver.declaredConstructor? scope member = some parameters) :
    Respects (resolver.Makes scope) parameters := by
  rw [declaredConstructor?] at declared
  cases found : scope.source.arena.get? member with
  | none => simp [found] at declared
  | some node =>
      simp only [found] at declared
      split at declared
      · cases declared
        exact makes_parameters (makes_type resolver scope) _
      · cases declared

/-- The types in the body of a class are made by the resolver. -/
theorem makes_classBody (members : NodeList) :
    Respects (resolver.Makes scope) (resolver.classBody scope members).run := by
  obtain ⟨properties, parameters, methods⟩ := resolver.classBody_run scope members
  rw [respects_classBody, properties, parameters, methods]
  refine ⟨respects_list.2 fun property among => ?_, respects_list.2 fun method among => ?_, ?_⟩
  · obtain ⟨member, -, declared⟩ := List.mem_flatMap.1 among
    exact makes_declaredProperties declared
  · rw [respects_classMethod]
    refine respects_list.2 fun signature isSignature => ?_
    obtain ⟨⟨key, _⟩, isEntry, rfl⟩ := List.mem_map.1 among
    obtain ⟨declaration, isDeclared, -, rfl⟩ :=
      MethodDeclaration.signatures_table isEntry isSignature
    obtain ⟨member, -, declared⟩ := List.mem_filterMap.1 isDeclared
    exact makes_declaredMethod? declared
  · cases last : (members.filterMap (resolver.declaredConstructor? scope)).getLast? with
    | none => exact respects_none.2 trivial
    | some list =>
        obtain ⟨member, -, declared⟩ := List.mem_filterMap.1 (List.mem_of_getLast? last)
        exact respects_some.2 (makes_declaredConstructor? declared)

/-- **The types in a declaration are made by the resolver.** -/
theorem makes_declaration {index : NodeIndex} {declaration : Declaration}
    (declared : resolver.declaration? scope index = some declaration) :
    Respects (resolver.Makes scope) declaration := by
  have each := makes_type resolver scope
  have doc : ∀ index, Respects (resolver.Makes scope) (resolver.docOf? scope index).run :=
    makes_doc? each
  have typeParameters : ∀ list : Option NodeList, Respects (resolver.Makes scope)
      ((list.getD []).filterMap fun parameter =>
        (typeParameter? (resolver.type scope) scope parameter).run) := by
    intro list
    rw [← collectM_run]
    exact makes_typeParameters each list
  have bases : ∀ entries : NodeList,
      Respects (resolver.Makes scope) (entries.map (resolver.baseType scope)) := by
    intro entries
    refine respects_list.2 (List.forall_mem_map.2 fun entry _ => ?_)
    exact makes_heritage each entry
  rw [declaration?] at declared
  cases found : scope.source.arena.get? index with
  | none => simp [found] at declared
  | some node =>
      simp only [found] at declared
      split at declared
      · rename_i data kindIs payloadIs
        cases declared
        refine respects_classRecord.2 ⟨typeParameters _, makes_classBody _, ?_, bases _, doc _⟩
        cases (scope.source.extendsEntries data.heritage).head? with
        | none => exact respects_none.2 trivial
        | some entry => exact respects_some.2 (makes_heritage each entry)
      · rename_i data kindIs payloadIs
        cases declared
        have members := makes_members each data.members
        rw [Yields, Resolver.members, collectM_run] at members
        exact respects_interfaceDecl.2 ⟨typeParameters _, members, bases _, doc _⟩
      · cases declared
        refine respects_enumDecl.2 ⟨respects_filterMap fun member => ?_, doc _⟩
        rw [declaredEnumMember?]
        split
        · exact respects_some.2 (respects_enumMember.2 (doc member))
        · exact respects_none.2 trivial
      · rename_i data kindIs payloadIs
        cases declared
        have value := makes_optionalType each data.value
        rw [Yields, optionalType_run] at value
        exact respects_aliasRecord.2 ⟨typeParameters _, value, doc _⟩
      · obtain ⟨signature, isSignature, rfl⟩ := Option.map_eq_some_iff.1 declared
        have signed := makes_signature? each index
        rw [Yields, isSignature] at signed
        exact respects_some.1 signed
      · split at declared
        · cases declared
          refine respects_filterMap fun declarator => ?_
          rw [constant?_eq]
          cases scope.source.initialized? declarator with
          | none => exact respects_none.2 trivial
          | some data =>
              have type := makes_optionalType each data.typeNode
              rw [Yields, optionalType_run] at type
              exact respects_some.2 (respects_constantRecord.2 ⟨type, doc index⟩)
        · cases declared
      · cases declared

end Resolver

end ApiDocs
