import ApiDocs.Proofs.Extract.Overloads
import ApiDocs.Proofs.Resolve.Memory

/-!
# Class bodies are collected whole

A visit of a class walks its members once and adds each of them to a body.  Properties are listed,
declarations of a method gather under its name, a repeated accessor replaces the earlier one, and
the last constructor counts.  Here the body is described without a walk: its parts are read off the
members by **what each member declares**.

## Main definitions

* `SourceFile.declaredFlags` — the flags of a member, by its modifiers and the kind of its name.
* `Resolver.declaredProperties`, `Resolver.declaredConstructor?`, `Resolver.declaredMethod?` — what
  a member declares.
* `MethodId` — what tells methods and accessors apart, with the key of their entry.
* `MethodId.entry?` — the entry that the declarations of a method or accessor make.
* `Resolver.LeavesClass` — what a visit of a class leaves behind in a module.

## Main statements

* `classBody_run` — the parts of a body, read off the members.
* `class_bodies_collected` — the body of every class whose methods have no name that could be the
  key of an accessor.

## Design notes

**Keys are not identities.**  The key of the getter `x` is the text `get x`, which a method may have
for a name.  The entries of a body are therefore described under keys in general, and under
identities only where the keys of a class tell its methods and accessors apart.
-/

namespace ApiDocs

/-! ## What members declare -/

/-- What tells the methods and accessors of a class apart. -/
@[ext]
structure MethodId where
  role : MethodRole
  name : String
deriving DecidableEq

/-- The key under which the entry of a method or accessor is kept. -/
def MethodId.key : MethodId → String
  | ⟨.plain, name⟩ => name
  | ⟨.getter, name⟩ => "get " ++ name
  | ⟨.setter, name⟩ => "set " ++ name

/-- What one declaration of a method or accessor says. -/
structure MethodDeclaration where
  id : MethodId
  flags : MemberFlags
  signature : FunctionSignature

/-- What a kind of member declares, if it declares a method or an accessor. -/
def MethodRole.ofKind? : Kind → Option MethodRole
  | .methodDeclaration => some .plain
  | .getAccessor => some .getter
  | .setAccessor => some .setter
  | _ => none

namespace SourceFile

variable (source : SourceFile) (index : NodeIndex)

/-- The data of the class that a statement declares; `none` for any other statement. -/
def classData? : Option ClassPayload :=
  match source.arena.get? index with
  | some node =>
    match node.kind, node.payload with
    | .classDeclaration, .classDecl data => some data
    | _, _ => none
  | none => none

/-- The data of a parameter that is `public`, `private`, `protected` or `readonly`. -/
def propertyParameter? : Option ParameterPayload :=
  match source.arena.payload? index with
  | some (.parameter data) =>
    if source.carries data.modifiers .publicKeyword ||
        source.carries data.modifiers .privateKeyword ||
        source.carries data.modifiers .protectedKeyword ||
        source.carries data.modifiers .readonlyKeyword then some data
    else none
  | _ => none

/-- The flags of a member with the given modifiers and name.  A member whose name begins with `#` is
private without the keyword. -/
def declaredFlags (modifiers : Option NodeList) (name : NodeIndex) : MemberFlags where
  isStatic := source.carries modifiers .staticKeyword
  isPrivate := source.carries modifiers .privateKeyword ||
    decide (source.arena.kind? name = some .privateIdentifier)
  isProtected := source.carries modifiers .protectedKeyword
  isReadonly := source.carries modifiers .readonlyKeyword
  isAbstract := source.carries modifiers .abstractKeyword

theorem memberFlags_eq (modifiers : Option NodeList) (name : NodeIndex) :
    memberFlags source.arena modifiers name = source.declaredFlags modifiers name := by
  simp only [memberFlags, declaredFlags, hasModifier_eq]

end SourceFile

namespace Resolver

variable (resolver : Resolver Id) (scope : Scope) (index : NodeIndex)

/-- The property that a property declaration makes.  Its type is the annotated one, or else that of
its initializer; without either it has none. -/
def declaredProperty (data : PropertyPayload) : ClassProperty where
  name := scope.source.declarationName data.name
  type :=
    if data.typeNode.isPresent then some (resolver.type scope data.typeNode).run
    else if data.initializer.isPresent then
      some (resolver.expression (resolver.type scope) scope data.initializer).run
    else none
  flags := scope.source.declaredFlags data.modifiers data.name
  optional := data.optional
  location := scope.location index
  doc := (resolver.docOf? scope index).run

/-- The property that a parameter of a constructor makes. -/
def parameterProperty (data : ParameterPayload) : ClassProperty where
  name := scope.source.declarationName data.name
  type :=
    if data.typeNode.isPresent then some (resolver.type scope data.typeNode).run else none
  flags := scope.source.declaredFlags data.modifiers data.name
  optional := data.optional
  location := scope.location index
  doc := (parameterCommentWithin? scope (resolver.depth scope.source) index).map
    fun comment => { comment := some comment }

/-- The properties that a member declares: one for a property declaration, and one for each
parameter of a constructor that has an access modifier. -/
def declaredProperties : List ClassProperty :=
  match scope.source.arena.get? index with
  | some node =>
    match node.kind, node.payload with
    | .propertyDeclaration, .property data => [resolver.declaredProperty scope index data]
    | .constructor, .functionDecl data =>
      data.parameters.filterMap fun parameter =>
        (scope.source.propertyParameter? parameter).map
          (resolver.parameterProperty scope parameter)
    | _, _ => []
  | none => []

/-- The parameters of the constructor that a member declares, if it declares one. -/
def declaredConstructor? : Option (List (Parameter Ty)) :=
  match scope.source.arena.get? index with
  | some node =>
    match node.kind, node.payload with
    | .constructor, .functionDecl data =>
      some (resolver.parameters (resolver.type scope) scope data.parameters).run
    | _, _ => none
  | none => none

/-- The signature that the declaration of a method or accessor makes. -/
def declaredSignature (data : FunctionPayload) : FunctionSignature where
  parameters := (resolver.parameters (resolver.type scope) scope data.parameters).run
  typeParameters := (typeParameters (resolver.type scope) scope data.typeParameters).run
  result := (resolver.resultType? (resolver.type scope) scope index data.typeNode).run
  location := scope.location index
  doc := (resolver.docOf? scope index).run

/-- The method or accessor that a member declares, if it declares one. -/
def declaredMethod? : Option MethodDeclaration :=
  match scope.source.arena.get? index with
  | some node =>
    match MethodRole.ofKind? node.kind, node.payload with
    | some role, .functionDecl data => some
        { id := ⟨role, scope.source.declarationName data.name⟩
          flags := scope.source.declaredFlags data.modifiers data.name
          signature := resolver.declaredSignature scope index data }
    | _, _ => none
  | none => none

end Resolver

/-! ## Contributions, one by one -/

namespace ClassPart

/-- The properties of a contribution. -/
def properties : ClassPart → List ClassProperty
  | .property own => [own]
  | .constructor own _ => own
  | _ => []

/-- The parameters of a constructor that is contributed. -/
def constructor? : ClassPart → Option (List (Parameter Ty))
  | .constructor _ parameters => some parameters
  | _ => none

/-- The declaration of a method or accessor that is contributed. -/
def method? : ClassPart → Option MethodDeclaration
  | .method name flags signature => some ⟨⟨.plain, name⟩, flags, signature⟩
  | .getter name flags signature => some ⟨⟨.getter, name⟩, flags, signature⟩
  | .setter name flags signature => some ⟨⟨.setter, name⟩, flags, signature⟩
  | _ => none

end ClassPart

namespace Resolver

variable (resolver : Resolver Id) (scope : Scope) (index : NodeIndex)

/-- The type at an optional node is there if the node is. -/
theorem optionalType_run_eq_ite (type : NodeIndex → Id Ty) :
    (optionalType type index).run =
      if index.isPresent then some (type index).run else none := by
  rw [optionalType_run, NodeIndex.toOption]
  split <;> rfl

theorem parameterProperty?_run :
    (resolver.parameterProperty? scope index).run =
      (scope.source.propertyParameter? index).map (resolver.parameterProperty scope index) := by
  rw [parameterProperty?, SourceFile.propertyParameter?]
  cases scope.source.arena.payload? index with
  | none => rfl
  | some payload =>
      cases payload with
      | parameter data =>
          simp only [propertyModifiers, List.any_cons, List.any_nil, Bool.or_false, Bool.or_assoc,
            SourceFile.hasModifier_eq, SourceFile.memberFlags_eq]
          split
          · rw [Id.run_bind, optionalType_run_eq_ite]
            rfl
          · rfl
      | _ => rfl

theorem propertyType?_run (data : PropertyPayload) :
    (resolver.propertyType? scope data).run =
      if data.typeNode.isPresent then some (resolver.type scope data.typeNode).run
      else if data.initializer.isPresent then
        some (resolver.expression (resolver.type scope) scope data.initializer).run
      else none := by
  rw [propertyType?, NodeIndex.toOption]
  by_cases annotated : data.typeNode.isPresent = true
  · simp only [annotated, if_true]
    rfl
  · simp only [annotated]
    exact optionalType_run_eq_ite data.initializer _

theorem signature?_run {data : FunctionPayload}
    (isFunction : scope.source.arena.payload? index = some (.functionDecl data)) :
    (resolver.signature? (resolver.type scope) scope index).run =
      some (resolver.declaredSignature scope index data) := by
  rw [signature?, isFunction]
  rfl

/-- What a member contributes is what it declares. -/
theorem classPart?_run :
    ((resolver.classPart? scope index).run.map ClassPart.properties).getD [] =
        resolver.declaredProperties scope index ∧
      (resolver.classPart? scope index).run.bind ClassPart.constructor? =
        resolver.declaredConstructor? scope index ∧
      (resolver.classPart? scope index).run.bind ClassPart.method? =
        resolver.declaredMethod? scope index := by
  rw [classPart?, declaredProperties, declaredConstructor?, declaredMethod?]
  cases found : scope.source.arena.get? index with
  | none => exact ⟨rfl, rfl, rfl⟩
  | some node =>
      dsimp only
      split
      case h_1 data kindIs payloadIs =>
        simp only [kindIs, payloadIs, Id.run_bind, propertyType?_run, SourceFile.memberFlags_eq]
        exact ⟨rfl, rfl, rfl⟩
      case h_5 data kindIs payloadIs =>
        simp only [kindIs, payloadIs, Id.run_bind, collectM_run, parameterProperty?_run]
        exact ⟨rfl, rfl, rfl⟩
      case h_6 noProperty noMethod noGetter noSetter noConstructor =>
        refine ⟨?_, ?_, ?_⟩
        · split
          · exact (noProperty _ ‹_› ‹_›).elim
          · exact (noConstructor _ ‹_› ‹_›).elim
          · rfl
        · split
          · exact (noConstructor _ ‹_› ‹_›).elim
          · rfl
        · split
          · rename_i role data isRole payloadIs
            unfold MethodRole.ofKind? at isRole
            split at isRole
            · exact (noMethod _ ‹_› payloadIs).elim
            · exact (noGetter _ ‹_› payloadIs).elim
            · exact (noSetter _ ‹_› payloadIs).elim
            · cases isRole
          · rfl
      all_goals
        rename_i data kindIs payloadIs
        have isFunction : scope.source.arena.payload? index = some (.functionDecl data) := by
          rw [Arena.payload?, found, Option.map_some, payloadIs]
        simp only [kindIs, payloadIs, signaturePart?, Id.run_bind, SourceFile.memberFlags_eq,
          resolver.signature?_run scope index isFunction]
        exact ⟨rfl, rfl, rfl⟩

end Resolver

/-! ## Bodies -/

namespace MethodDeclaration

/-- What a declaration starts the entry of its key from. -/
def start (declaration : MethodDeclaration) : ClassMethod where
  name := declaration.id.name
  flags := declaration.flags
  role := declaration.id.role
  signatures := if declaration.id.role = .plain then [] else [declaration.signature]

/-- What a declaration makes of the entry of its key: a method adds a signature, and an accessor
starts again. -/
def change (declaration : MethodDeclaration) (entry : ClassMethod) : ClassMethod :=
  if declaration.id.role = .plain then
    { entry with signatures := entry.signatures ++ [declaration.signature] }
  else declaration.start

/-- The methods and accessors that a list of declarations makes. -/
def table (declared : List MethodDeclaration) : Table String ClassMethod :=
  .gather (·.id.key) start change {} declared

end MethodDeclaration

namespace ClassBody

theorem properties_foldl (parts : List ClassPart) :
    ∀ body : ClassBody, (parts.foldl add body).properties =
      body.properties ++ parts.flatMap ClassPart.properties := by
  induction parts with
  | nil => intro body; simp
  | cons part parts ih =>
      intro body
      rw [List.foldl_cons, ih]
      cases part <;> simp [add, ClassPart.properties]

theorem methods_foldl (parts : List ClassPart) :
    ∀ body : ClassBody, (parts.foldl add body).methods =
      .gather (·.id.key) MethodDeclaration.start MethodDeclaration.change body.methods
        (parts.filterMap ClassPart.method?) := by
  induction parts with
  | nil => intro body; rfl
  | cons part parts ih =>
      intro body
      rw [List.foldl_cons, ih]
      cases part <;> rfl

theorem constructorParameters_foldl (parts : List ClassPart) :
    ∀ body : ClassBody, (parts.foldl add body).constructorParameters =
      (parts.filterMap ClassPart.constructor?).getLast?.or body.constructorParameters := by
  induction parts with
  | nil => intro body; rfl
  | cons part parts ih =>
      intro body
      rw [List.foldl_cons, ih]
      cases part with
      | constructor own parameters =>
          -- The parameters show unless a later constructor has its own.
          have here : (ClassPart.constructor own parameters :: parts).filterMap
              ClassPart.constructor? = parameters :: parts.filterMap ClassPart.constructor? := rfl
          rw [here, List.getLast?_cons]
          cases (parts.filterMap ClassPart.constructor?).getLast? <;> rfl
      | _ => rfl

end ClassBody

namespace Resolver

variable (resolver : Resolver Id) (scope : Scope) (members : NodeList)

/-- **The body of a class, read off its members.** -/
theorem classBody_run :
    (resolver.classBody scope members).run.properties =
        members.flatMap (resolver.declaredProperties scope) ∧
      (resolver.classBody scope members).run.constructorParameters =
        (members.filterMap (resolver.declaredConstructor? scope)).getLast? ∧
      (resolver.classBody scope members).run.methods =
        MethodDeclaration.table (members.filterMap (resolver.declaredMethod? scope)) := by
  have collected : (resolver.classBody scope members).run =
      (members.filterMap fun member => (resolver.classPart? scope member).run).foldl
        ClassBody.add {} := by
    rw [classBody, Id.run_bind, collectM_run]
    rfl
  rw [collected, ClassBody.properties_foldl, ClassBody.constructorParameters_foldl,
    ClassBody.methods_foldl]
  refine ⟨?_, ?_, ?_⟩
  · rw [List.nil_append, List.flatMap_def, List.map_filterMap, flatten_filterMap]
    exact List.flatMap_congr fun member _ => (resolver.classPart?_run scope member).1
  · rw [List.filterMap_filterMap, Option.or_none]
    refine congrArg List.getLast? (List.filterMap_congr fun member _ => ?_)
    exact (resolver.classPart?_run scope member).2.1
  · rw [List.filterMap_filterMap]
    refine congrArg MethodDeclaration.table (List.filterMap_congr fun member _ => ?_)
    exact (resolver.classPart?_run scope member).2.2

end Resolver

/-! ## Entries under keys -/

namespace MethodDeclaration

theorem find?_table (declared : List MethodDeclaration) (key : String) :
    (table declared).find? key =
      Table.merged start change (declared.filter (·.id.key = key)) :=
  Table.find?_gather _ start change declared key

/-- Methods add their signatures to an entry, one after the other. -/
theorem foldl_change {list : List MethodDeclaration} :
    ∀ {entry : ClassMethod}, (∀ declaration ∈ list, declaration.id.role = .plain) →
      list.foldl (fun entry declaration => declaration.change entry) entry =
        { entry with signatures := entry.signatures ++ list.map (·.signature) } := by
  induction list with
  | nil => intro entry methods; simp
  | cons first rest ih =>
      intro entry methods
      rw [List.forall_mem_cons] at methods
      rw [List.foldl_cons, ih methods.2, change, if_pos methods.1]
      simp

/-- An entry that methods alone make: the first gives the flags, and each gives a signature. -/
theorem merged_methods {list : List MethodDeclaration}
    (methods : ∀ declaration ∈ list, declaration.id.role = .plain) :
    Table.merged start change list =
      list.head?.map fun first =>
        { first.start with signatures := list.map (·.signature) } := by
  cases list with
  | nil => rfl
  | cons first rest =>
      have blank : first.start.signatures = [] := if_pos (methods first List.mem_cons_self)
      rw [Table.merged, foldl_change methods, blank]
      rfl

/-- An entry that an accessor takes part in: the last accessor starts it again, and the methods
after it add their signatures. -/
theorem merged_accessor {before after : List MethodDeclaration} {accessor : MethodDeclaration}
    (isAccessor : accessor.id.role ≠ .plain)
    (methods : ∀ declaration ∈ after, declaration.id.role = .plain) :
    Table.merged start change (before ++ accessor :: after) =
      some { accessor.start with
        signatures := accessor.signature :: after.map (·.signature) } := by
  have restarts : ∀ entry : ClassMethod,
      (before ++ accessor :: after).foldl (fun entry declaration => declaration.change entry)
          entry =
        { accessor.start with
          signatures := accessor.signature :: after.map (·.signature) } := by
    intro entry
    rw [List.foldl_append, List.foldl_cons, foldl_change methods, change, if_neg isAccessor]
    simp [start, isAccessor]
  cases before with
  | nil => exact congrArg some (restarts accessor.start)
  | cons first rest => exact congrArg some (restarts first.start)

end MethodDeclaration

/-! ## Keys that tell methods and accessors apart -/

/-- Whether a name could be the key of an accessor. -/
def LooksLikeAccessor (name : String) : Prop :=
  "get ".toList <+: name.toList ∨ "set ".toList <+: name.toList

instance (name : String) : Decidable (LooksLikeAccessor name) :=
  inferInstanceAs (Decidable (_ ∨ _))

theorem MethodId.key_looksLikeAccessor {id : MethodId} (isAccessor : id.role ≠ .plain) :
    LooksLikeAccessor id.key := by
  obtain ⟨role, name⟩ := id
  cases role with
  | plain => exact (isAccessor rfl).elim
  | getter => exact .inl ⟨name.toList, String.toList_append.symm⟩
  | setter => exact .inr ⟨name.toList, String.toList_append.symm⟩

theorem MethodId.key_of_plain {id : MethodId} (isPlain : id.role = .plain) : id.key = id.name := by
  obtain ⟨role, name⟩ := id
  cases isPlain
  rfl

/-- Two accessors with one key are the same. -/
theorem MethodId.eq_of_accessor_key_eq {first second : MethodId} (same : first.key = second.key)
    (isAccessor : first.role ≠ .plain) (isAccessorToo : second.role ≠ .plain) :
    first = second := by
  obtain ⟨role, name⟩ := first
  obtain ⟨otherRole, otherName⟩ := second
  have letters := congrArg String.toList same
  cases role with
  | plain => exact (isAccessor rfl).elim
  | getter =>
      cases otherRole with
      | plain => exact (isAccessorToo rfl).elim
      | getter =>
          simp only [key, String.toList_append, List.append_cancel_left_eq, String.toList_inj]
            at letters
          rw [letters]
      | setter => simp [key, String.toList_append] at letters
  | setter =>
      cases otherRole with
      | plain => exact (isAccessorToo rfl).elim
      | getter => simp [key, String.toList_append] at letters
      | setter =>
          simp only [key, String.toList_append, List.append_cancel_left_eq, String.toList_inj]
            at letters
          rw [letters]

/-- Methods and accessors with one key are the same, unless a method is named like an accessor. -/
theorem MethodId.eq_of_key_eq {first second : MethodId} (same : first.key = second.key)
    (named : first.role = .plain → ¬LooksLikeAccessor first.name)
    (namedToo : second.role = .plain → ¬LooksLikeAccessor second.name) : first = second := by
  by_cases isPlain : first.role = .plain
  · by_cases isPlainToo : second.role = .plain
    · rw [key_of_plain isPlain, key_of_plain isPlainToo] at same
      exact MethodId.ext (isPlain.trans isPlainToo.symm) same
    · rw [key_of_plain isPlain] at same
      exact (named isPlain (same ▸ key_looksLikeAccessor isPlainToo)).elim
  · by_cases isPlainToo : second.role = .plain
    · rw [key_of_plain isPlainToo] at same
      exact (namedToo isPlainToo (same ▸ key_looksLikeAccessor isPlain)).elim
    · exact eq_of_accessor_key_eq same isPlain isPlainToo

/-- A function that tells the elements of a list apart also tells apart what is left of it without
repetitions. -/
theorem eraseDups_map {α β : Type} [DecidableEq α] [DecidableEq β] (tag : α → β) :
    ∀ {list : List α}, (∀ first ∈ list, ∀ second ∈ list, tag first = tag second → first = second) →
      (list.map tag).eraseDups = list.eraseDups.map tag
  | [], _ => rfl
  | first :: rest, apart => by
    have later : (rest.map tag).filter (fun other => !other == tag first) =
        (rest.filter fun other => !other == first).map tag := by
      rw [List.filter_map]
      refine congrArg (List.map tag) (List.filter_congr fun other member => ?_)
      by_cases same : other = first
      · simp [same]
      · have different : tag other ≠ tag first := fun tagged =>
          same (apart other (by simp [member]) first (by simp) tagged)
        simp [same, different]
    rw [List.map_cons, List.eraseDups_cons, List.eraseDups_cons, List.map_cons, later,
      eraseDups_map tag]
    intro one isOne two isTwo
    exact apart one (by simp [(List.mem_filter.1 isOne).1]) two
      (by simp [(List.mem_filter.1 isTwo).1])
termination_by list => list.length
decreasing_by exact Nat.lt_succ_of_le (List.length_filter_le ..)

/-- The entry that the declarations of a method or accessor make: a method has the flags of its
first declaration and the signatures of all, and an accessor is that of its last declaration. -/
def MethodId.entry? (id : MethodId) (declared : List MethodDeclaration) : Option ClassMethod :=
  let own := declared.filter (·.id = id)
  if id.role = .plain then
    own.head?.map fun first =>
      { name := id.name
        flags := first.flags
        role := id.role
        signatures := own.map (·.signature) }
  else
    own.getLast?.map fun last =>
      { name := id.name
        flags := last.flags
        role := id.role
        signatures := [last.signature] }

namespace MethodDeclaration

variable {declared : List MethodDeclaration}

/-- The keys of a list of declarations tell its methods and accessors apart. -/
def Apart (declared : List MethodDeclaration) : Prop :=
  ∀ first ∈ declared, ∀ second ∈ declared, first.id.key = second.id.key → first.id = second.id

theorem keys_table (apart : Apart declared) :
    (table declared).keys = (declared.map (·.id)).eraseDups.map MethodId.key := by
  rw [table, Table.keys_gather, ← eraseDups_map, List.map_map]
  · rfl
  · intro first isFirst second isSecond same
    obtain ⟨declaration, member, rfl⟩ := List.mem_map.1 isFirst
    obtain ⟨other, otherMember, rfl⟩ := List.mem_map.1 isSecond
    exact apart declaration member other otherMember same

/-- Where no other method or accessor has its key, a method or accessor has the entry that its
declarations make. -/
theorem find?_table_eq_entry? {id : MethodId}
    (alone : ∀ other ∈ declared, other.id.key = id.key → other.id = id) :
    (table declared).find? id.key = id.entry? declared := by
  have own : declared.filter (·.id.key = id.key) = declared.filter (·.id = id) := by
    refine List.filter_congr fun other otherMember => decide_eq_decide.2 ⟨?_, ?_⟩
    · exact alone other otherMember
    · exact fun same => congrArg MethodId.key same
  have identity : ∀ other ∈ declared.filter (·.id = id), other.id = id := by
    intro other isOwn
    simpa using (List.mem_filter.1 isOwn).2
  rw [find?_table, own, MethodId.entry?]
  by_cases isPlain : id.role = .plain
  · rw [if_pos isPlain, merged_methods fun other isOwn => by rw [identity other isOwn, isPlain]]
    cases split : declared.filter (·.id = id) with
    | nil => rfl
    | cons first rest =>
        have isFirst := identity first (by simp [split])
        simp [start, isFirst]
  · rw [if_neg isPlain]
    -- All of them are accessors, so the last one starts the entry for the last time.
    rcases List.eq_nil_or_concat (declared.filter (·.id = id)) with
      none | ⟨earlier, last, split⟩
    · rw [none]
      rfl
    · have isLast := identity last (by simp [split])
      rw [split, List.concat_eq_append, merged_accessor (by rwa [isLast]) (by simp)]
      simp [start, isLast]

end MethodDeclaration

/-! ## Visits of classes -/

theorem SourceFile.node_of_classData? {source : SourceFile} {index : NodeIndex}
    {data : ClassPayload} (isClass : source.classData? index = some data) :
    ∃ node, source.arena.get? index = some node ∧ node.kind = .classDeclaration ∧
      node.payload = .classDecl data := by
  unfold classData? at isClass
  split at isClass
  · rename_i node found
    split at isClass
    · rename_i kindIs payloadIs
      cases isClass
      exact ⟨node, found, kindIs, payloadIs⟩
    · cases isClass
  · cases isClass

/-- A visit of the class at an index, in a module that has its record, leaves this record behind. -/
def Resolver.LeavesClass (resolver : Resolver (StateM ReferenceIndex.Memory))
    (memory : ReferenceIndex.Memory) (scope : Scope) (index : NodeIndex) (data : ClassPayload)
    (module : DocModule) (record : ClassRecord) : Prop :=
  ∃ contribution, (resolver.contribution? scope index memory).1 = some contribution ∧
    (contribution.apply module).classes.find? (scope.source.declarationName data.name) =
      some record

/-- A visit of a class leaves a record behind, with the body that is collected from its members. -/
theorem Resolver.exists_leavesClass (program : Program) (base : String) (builtins : List String)
    {memory : ReferenceIndex.Memory}
    (reached : ReferenceIndex.Reached program base builtins memory) {scope : Scope}
    {index : NodeIndex} {data : ClassPayload}
    (isClass : scope.source.classData? index = some data) {module : DocModule}
    (prepared : module.hasRecord (scope.source.declarationName data.name) .classRecord = true) :
    ∃ record, (remembering program base builtins).LeavesClass memory scope index data module
        record ∧
      record.body = ((direct program base builtins).classBody scope data.members).run := by
  obtain ⟨node, found, kindIs, payloadIs⟩ := SourceFile.node_of_classData? isClass
  obtain ⟨skeleton, isSkeleton⟩ := Option.isSome_iff_exists.1 prepared
  have own : ∃ typeParameters bases implemented,
      ((direct program base builtins).contribution? scope index).run =
        some (.classDecl (scope.source.declarationName data.name) typeParameters bases implemented
          ((direct program base builtins).classBody scope data.members).run) := by
    rw [contribution?]
    simp only [found, kindIs, payloadIs]
    exact ⟨_, _, _, rfl⟩
  obtain ⟨typeParameters, bases, implemented, derived⟩ := own
  have learnt := (agrees_contribution? program base builtins scope index memory
    reached.recalls).1.trans derived
  refine ⟨{ skeleton with
      typeParameters
      base := bases
      implemented
      body := ((direct program base builtins).classBody scope data.members).run },
    ⟨_, learnt, ?_⟩, rfl⟩
  rw [Contribution.apply, Table.find?_update, if_pos rfl, isSkeleton]
  rfl

/-- **Class bodies are collected whole.**  Let a class be visited in a module that has its record,
from any memory that look-ups lead to, and let no method of it be named like an accessor.  Its
properties are those that its members declare, in order, and its constructor is the last one.  It
has one entry for each method, each getter and each setter, in the order in which they are first
declared: a method has the flags of its first declaration and the signatures of all, and an accessor
is that of its last declaration. -/
theorem class_bodies_collected (program : Program) (base : String) (builtins : List String)
    {memory : ReferenceIndex.Memory}
    (reached : ReferenceIndex.Reached program base builtins memory) {scope : Scope}
    {index : NodeIndex} {data : ClassPayload}
    (isClass : scope.source.classData? index = some data) {module : DocModule}
    (prepared : module.hasRecord (scope.source.declarationName data.name) .classRecord = true)
    (named : ∀ method ∈ data.members.filterMap
      ((Resolver.direct program base builtins).declaredMethod? scope),
      method.id.role = .plain → ¬LooksLikeAccessor method.id.name) :
    let resolver := Resolver.direct program base builtins
    let declared := data.members.filterMap (resolver.declaredMethod? scope)
    ∃ record,
      (Resolver.remembering program base builtins).LeavesClass memory scope index data module
          record ∧
        record.body.properties = data.members.flatMap (resolver.declaredProperties scope) ∧
        record.body.constructorParameters =
          (data.members.filterMap (resolver.declaredConstructor? scope)).getLast? ∧
        record.body.methods.keys = (declared.map (·.id)).eraseDups.map MethodId.key ∧
        ∀ method ∈ declared,
          record.body.methods.find? method.id.key = method.id.entry? declared := by
  intro resolver declared
  obtain ⟨record, leaves, body⟩ :=
    Resolver.exists_leavesClass program base builtins reached isClass prepared
  obtain ⟨properties, constructor, methods⟩ := resolver.classBody_run scope data.members
  have apart : MethodDeclaration.Apart declared := by
    intro first isFirst second isSecond same
    exact MethodId.eq_of_key_eq same (named first isFirst) (named second isSecond)
  rw [← body] at properties constructor methods
  refine ⟨record, leaves, properties, constructor, ?_, fun method member => ?_⟩
  · rw [methods]
    exact MethodDeclaration.keys_table apart
  · rw [methods]
    exact MethodDeclaration.find?_table_eq_entry? fun other otherMember =>
      apart other otherMember method member

/-- A module after a first pass that met classes with the given names. -/
def DocModule.ofClasses (names : List String) : DocModule where
  name := "index"
  classes := ⟨names.map fun name =>
    (name, { name, location := {}, doc := none, exported := false, abstract := false })⟩

/-- The class `Tally`, with a property, a constructor whose parameter is a property as well, and a
getter and a method that are declared twice each, in turn and with different modifiers. -/
def tallyClass : ClassPayload where
  modifiers := none
  name := ⟨0⟩
  typeParameters := none
  heritage := none
  members := [⟨3⟩, ⟨7⟩, ⟨9⟩, ⟨12⟩, ⟨15⟩, ⟨17⟩]

/-- A file that declares this class. -/
def tallyFile : SourceFile :=
  .ofNodes "/project/tally.ts"
    ("class Tally \x7b #n = 0; constructor(readonly by); get sum(); static add(); " ++
      "protected get sum(); add(); \x7d")
    #[{ kind := .identifier, start := 6, stop := 11, payload := .identifier "Tally" },
      { kind := .privateIdentifier, start := 14, stop := 16, payload := .identifier "#n" },
      { kind := .numericLiteral, start := 19, stop := 20, payload := .literal "0" },
      { kind := .propertyDeclaration, start := 14, stop := 21
        payload := .property
          { modifiers := none, name := ⟨1⟩, optional := false
            typeNode := .absent, initializer := ⟨2⟩ } },
      { kind := .readonlyKeyword, start := 34, stop := 42 },
      { kind := .identifier, start := 43, stop := 45, payload := .identifier "by" },
      { kind := .parameter, start := 34, stop := 45
        payload := .parameter
          { modifiers := some [⟨4⟩], rest := false, name := ⟨5⟩, optional := false
            typeNode := .absent, initializer := .absent } },
      { kind := .constructor, start := 22, stop := 47
        payload := .functionDecl
          { modifiers := none, name := .absent, optional := false, typeParameters := none
            parameters := [⟨6⟩], typeNode := .absent, body := .absent } },
      { kind := .identifier, start := 52, stop := 55, payload := .identifier "sum" },
      { kind := .getAccessor, start := 48, stop := 58
        payload := .functionDecl
          { modifiers := none, name := ⟨8⟩, optional := false, typeParameters := none
            parameters := [], typeNode := .absent, body := .absent } },
      { kind := .staticKeyword, start := 59, stop := 65 },
      { kind := .identifier, start := 66, stop := 69, payload := .identifier "add" },
      { kind := .methodDeclaration, start := 59, stop := 72
        payload := .functionDecl
          { modifiers := some [⟨10⟩], name := ⟨11⟩, optional := false, typeParameters := none
            parameters := [], typeNode := .absent, body := .absent } },
      { kind := .protectedKeyword, start := 73, stop := 82 },
      { kind := .identifier, start := 87, stop := 90, payload := .identifier "sum" },
      { kind := .getAccessor, start := 73, stop := 93
        payload := .functionDecl
          { modifiers := some [⟨13⟩], name := ⟨14⟩, optional := false, typeParameters := none
            parameters := [], typeNode := .absent, body := .absent } },
      { kind := .identifier, start := 94, stop := 97, payload := .identifier "add" },
      { kind := .methodDeclaration, start := 94, stop := 100
        payload := .functionDecl
          { modifiers := none, name := ⟨16⟩, optional := false, typeParameters := none
            parameters := [], typeNode := .absent, body := .absent } },
      { kind := .classDeclaration, start := 0, stop := 102, payload := .classDecl tallyClass }]
    [⟨18⟩]

/-- The program with this file. -/
def tallyProgram : Program where
  files := #[tallyFile]

/-- The record that a visit of this class leaves behind: the property is private for its name, the
second getter replaces the first one, and the second declaration of the method joins the first one,
which gives the flags. -/
theorem class_bodies_collected_tally :
    ∃ record,
      (Resolver.remembering tallyProgram "/project" []).LeavesClass {}
          { file := ⟨0⟩, source := tallyFile } ⟨18⟩ tallyClass (.ofClasses ["Tally"]) record ∧
        record.body.properties.map
            (fun own => (own.name, own.flags.isPrivate, own.flags.isReadonly)) =
          [("#n", true, false), ("by", false, true)] ∧
        record.body.properties.map (·.type matches some (.numberLiteral "0")) = [true, false] ∧
        record.body.constructorParameters.map List.length = some 1 ∧
        record.body.methods.keys = ["get sum", "add"] ∧
        (record.method? "get sum").map (fun own => (own.flags.isProtected, own.signatures.length)) =
          some (true, 1) ∧
        (record.method? "add").map (fun own => (own.flags.isStatic, own.signatures.length)) =
          some (true, 2) := by
  let scope : Scope := { file := ⟨0⟩, source := tallyFile }
  let resolver := Resolver.direct tallyProgram "/project" []
  let declared := tallyClass.members.filterMap (resolver.declaredMethod? scope)
  have isClass : scope.source.classData? ⟨18⟩ = some tallyClass := rfl
  have prepared : (DocModule.ofClasses ["Tally"]).hasRecord
      (scope.source.declarationName tallyClass.name) .classRecord = true := by decide +kernel
  have ids : declared.map (·.id) =
      [⟨.getter, "sum"⟩, ⟨.plain, "add"⟩, ⟨.getter, "sum"⟩, ⟨.plain, "add"⟩] := by
    decide +kernel
  have named : ∀ id ∈ declared.map (·.id), id.role = .plain → ¬LooksLikeAccessor id.name := by
    rw [ids]
    decide
  obtain ⟨record, leaves, properties, constructor, keys, entries⟩ :=
    class_bodies_collected tallyProgram "/project" [] .empty isClass prepared
      (List.forall_mem_map.1 named)
  have find : ∀ id ∈ declared.map (·.id), record.method? id.key = id.entry? declared :=
    List.forall_mem_map.2 entries
  rw [ids] at find
  refine ⟨record, leaves, ?_, ?_, ?_, ?_, ?_, ?_⟩
  · rw [properties]
    decide +kernel
  · rw [properties]
    decide +kernel
  · rw [constructor]
    decide +kernel
  · exact keys.trans (by rw [ids]; decide)
  · rw [show "get sum" = MethodId.key ⟨.getter, "sum"⟩ from rfl, find _ (by simp)]
    decide +kernel
  · rw [show "add" = MethodId.key ⟨.plain, "add"⟩ from rfl, find _ (by simp)]
    decide +kernel

end ApiDocs
