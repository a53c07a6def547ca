import ApiDocs.Proofs.Extract.Members

/-!
# Accessors and methods of a class share their keys

The entry of the getter `x` is kept under the text `get x`, in the table that keeps methods under
their names, and the name of a method may be any text.  Where no method of a class has the key of an
accessor for its name, an accessor has one signature and a method has all of its own.  This module
says what happens **in every class**: the last accessor of a key takes the entry over, the methods
of that name before it are lost, and those after it add their signatures to the accessor.

## Main definitions

* `MethodDeclaration.AccessorAt` — whether the declarations of a class have an accessor with a key.

## Main statements

* `methods_or_last_accessor` — declarations are all of methods, or there is a last accessor.
* `accessors_and_methods_apart_iff` — which accessors have one signature, which methods keep their
  signatures, and which names find an accessor.
-/

namespace ApiDocs

namespace MethodDeclaration

variable {declared : List MethodDeclaration} {key : String} {entry : ClassMethod}

/-- Whether a list of declarations has an accessor with a key. -/
def AccessorAt (declared : List MethodDeclaration) (key : String) : Prop :=
  ∃ accessor ∈ declared, accessor.id.role ≠ .plain ∧ accessor.id.key = key

/-- A list of declarations has methods only, or it has a last accessor. -/
theorem methods_or_last_accessor (list : List MethodDeclaration) :
    (∀ declaration ∈ list, declaration.id.role = .plain) ∨
      ∃ before accessor after, list = before ++ accessor :: after ∧ accessor.id.role ≠ .plain ∧
        ∀ declaration ∈ after, declaration.id.role = .plain := by
  induction list with
  | nil => exact .inl (by simp)
  | cons first rest ih =>
      rcases ih with methods | ⟨before, accessor, after, rfl, isAccessor, methods⟩
      · by_cases isPlain : first.id.role = .plain
        · exact .inl (List.forall_mem_cons.2 ⟨isPlain, methods⟩)
        · exact .inr ⟨[], first, rest, rfl, isPlain, methods⟩
      · exact .inr ⟨first :: before, accessor, after, rfl, isAccessor, methods⟩

theorem mem_filter_key {declaration : MethodDeclaration} :
    declaration ∈ declared.filter (·.id.key = key) ↔
      declaration ∈ declared ∧ declaration.id.key = key := by
  rw [List.mem_filter, decide_eq_true_iff]

/-- The entry of a key that no accessor has: a method with the signatures of all. -/
theorem find?_table_of_methods (noAccessor : ¬AccessorAt declared key) :
    (table declared).find? key =
      (declared.filter (·.id.key = key)).head?.map fun first =>
        { first.start with
          signatures := (declared.filter (·.id.key = key)).map (·.signature) } := by
  rw [find?_table]
  refine merged_methods fun declaration isOwn => ?_
  obtain ⟨member, same⟩ := mem_filter_key.1 isOwn
  by_contra isAccessor
  exact noAccessor ⟨declaration, member, isAccessor, same⟩

/-- The entry of a key that an accessor has: the last one, with the signatures of the methods after
it. -/
theorem find?_table_of_accessorAt (hasAccessor : AccessorAt declared key) :
    ∃ before accessor after,
      declared.filter (·.id.key = key) = before ++ accessor :: after ∧
        accessor.id.role ≠ .plain ∧ (∀ declaration ∈ after, declaration.id.role = .plain) ∧
        (table declared).find? key = some { accessor.start with
          signatures := accessor.signature :: after.map (·.signature) } := by
  obtain ⟨some, member, isAccessor, same⟩ := hasAccessor
  rcases methods_or_last_accessor (declared.filter (·.id.key = key)) with
    methods | ⟨before, accessor, after, split, isLast, methods⟩
  · exact (isAccessor (methods some (mem_filter_key.2 ⟨member, same⟩))).elim
  · refine ⟨before, accessor, after, split, isLast, methods, ?_⟩
    rw [find?_table, split, merged_accessor isLast methods]

/-- The entries of accessors are under the keys of accessors. -/
theorem exists_find?_table_accessor_iff :
    (∃ entry, (table declared).find? key = some entry ∧ entry.role ≠ .plain) ↔
      AccessorAt declared key := by
  constructor
  · rintro ⟨entry, found, isAccessor⟩
    by_contra noAccessor
    rw [find?_table_of_methods noAccessor] at found
    obtain ⟨first, isFirst, rfl⟩ := Option.map_eq_some_iff.1 found
    obtain ⟨member, same⟩ := mem_filter_key.1 (List.mem_of_head? isFirst)
    exact noAccessor ⟨first, member, isAccessor, same⟩
  · intro hasAccessor
    obtain ⟨before, accessor, after, -, isLast, -, found⟩ := find?_table_of_accessorAt hasAccessor
    exact ⟨_, found, isLast⟩

/-- The entry of an accessor has one signature if no method follows the last accessor. -/
theorem length_signatures_eq_one_iff (found : (table declared).find? key = some entry)
    (isAccessor : entry.role ≠ .plain) :
    entry.signatures.length = 1 ↔
      ∃ last, (declared.filter (·.id.key = key)).getLast? = some last ∧
        last.id.role ≠ .plain := by
  obtain ⟨before, accessor, after, split, isLast, methods, foundToo⟩ :=
    find?_table_of_accessorAt (exists_find?_table_accessor_iff.1 ⟨entry, found, isAccessor⟩)
  obtain rfl := Option.some.inj (found.symm.trans foundToo)
  rw [split]
  rcases List.eq_nil_or_concat after with rfl | ⟨between, method, rfl⟩
  · simp [isLast]
  · have isMethod := methods method (by simp)
    have ends : (before ++ accessor :: between.concat method).getLast? = some method := by
      rw [List.concat_eq_append, ← List.cons_append, ← List.append_assoc, List.getLast?_concat]
    rw [ends]
    simp [isMethod]

/-- A method that shares its key with no accessor has an entry with all of its signatures. -/
theorem exists_find?_table_method {method : MethodDeclaration} (member : method ∈ declared)
    (isMethod : method.id.role = .plain) (noAccessor : ¬AccessorAt declared method.id.name) :
    ∃ entry, (table declared).find? method.id.name = some entry ∧ entry.role = .plain ∧
      entry.name = method.id.name ∧
      entry.signatures = (declared.filter (·.id = method.id)).map (·.signature) := by
  have sameKey : method.id.key = method.id.name := MethodId.key_of_plain isMethod
  have alone : ∀ other ∈ declared, other.id.key = method.id.key → other.id = method.id := by
    intro other otherMember same
    rw [sameKey] at same
    have isPlain : other.id.role = .plain := by
      by_contra isAccessor
      exact noAccessor ⟨other, otherMember, isAccessor, same⟩
    rw [MethodId.key_of_plain isPlain] at same
    exact MethodId.ext (isPlain.trans isMethod.symm) same
  have isOwn : method ∈ declared.filter (·.id = method.id) := by simp [member]
  rw [← sameKey, find?_table_eq_entry? alone, MethodId.entry?, if_pos isMethod]
  cases split : declared.filter (·.id = method.id) with
  | nil =>
      rw [split] at isOwn
      cases isOwn
  | cons first rest => exact ⟨_, rfl, isMethod, sameKey.symm, rfl⟩

/-- A method that shares its key with an accessor has no entry of its own. -/
theorem role_ne_plain_of_accessorAt {name : String} (hasAccessor : AccessorAt declared name)
    (found : (table declared).find? key = some entry) (named : entry.name = name) :
    entry.role ≠ .plain := by
  intro isPlain
  -- A plain entry is kept under its name, which is the key of the accessor.
  have noAccessor : ¬AccessorAt declared key := by
    intro hasOther
    obtain ⟨before, accessor, after, -, isLast, -, foundToo⟩ := find?_table_of_accessorAt hasOther
    obtain rfl := Option.some.inj (found.symm.trans foundToo)
    exact isLast isPlain
  rw [find?_table_of_methods noAccessor] at found
  obtain ⟨first, isFirst, rfl⟩ := Option.map_eq_some_iff.1 found
  obtain ⟨-, same⟩ := mem_filter_key.1 (List.mem_of_head? isFirst)
  have keyIsName : key = name := by
    rw [← same, MethodId.key_of_plain isPlain]
    exact named
  rw [keyIsName] at noAccessor
  exact noAccessor hasAccessor

end MethodDeclaration

/-- **When accessors and methods keep apart.**  Let a class be visited in a module that has its
record, from any memory that look-ups lead to.  The entry of an accessor has one signature if no
method of that key follows the last accessor.  The signatures of a method are all in an entry of its
name, unless an accessor has that name for its key; then no entry of that name is a method.  A
look-up finds an accessor under the key of every accessor. -/
theorem accessors_and_methods_apart_iff (program : Program) (base : String)
    (builtins : List String) {memory : ReferenceIndex.Memory}
    (reached : ReferenceIndex.Reached program base builtins memory) {scope : Scope}
    {index : NodeIndex} {data : ClassPayload}
    (isClass : scope.source.classData? index = some data) {module : DocModule}
    (prepared : module.hasRecord (scope.source.declarationName data.name) .classRecord = true) :
    let declared := data.members.filterMap
      ((Resolver.direct program base builtins).declaredMethod? scope)
    ∃ record,
      (Resolver.remembering program base builtins).LeavesClass memory scope index data module
          record ∧
        (∀ key entry, record.method? key = some entry → entry.role ≠ .plain →
          (entry.signatures.length = 1 ↔
            ∃ last, (declared.filter (·.id.key = key)).getLast? = some last ∧
              last.id.role ≠ .plain)) ∧
        (∀ method ∈ declared, method.id.role = .plain →
          (¬MethodDeclaration.AccessorAt declared method.id.name →
            ∃ entry, record.method? method.id.name = some entry ∧ entry.role = .plain ∧
              entry.name = method.id.name ∧
              entry.signatures = (declared.filter (·.id = method.id)).map (·.signature)) ∧
          (MethodDeclaration.AccessorAt declared method.id.name →
            ∀ key entry, record.method? key = some entry → entry.name = method.id.name →
              entry.role ≠ .plain)) ∧
        ∀ name, (∃ entry, record.method? name = some entry ∧ entry.role ≠ .plain) ↔
          MethodDeclaration.AccessorAt declared name := by
  intro declared
  obtain ⟨record, leaves, body⟩ :=
    Resolver.exists_leavesClass program base builtins reached isClass prepared
  have lookUp : ∀ key, record.method? key = (MethodDeclaration.table declared).find? key := by
    intro key
    rw [ClassRecord.method?, body, (Resolver.classBody_run _ scope data.members).2.2]
  refine ⟨record, leaves, ?_, ?_, ?_⟩
  · intro key entry found isAccessor
    exact MethodDeclaration.length_signatures_eq_one_iff ((lookUp key).symm.trans found) isAccessor
  · intro method member isMethod
    constructor
    · intro noAccessor
      rw [lookUp]
      exact MethodDeclaration.exists_find?_table_method member isMethod noAccessor
    · intro hasAccessor key entry found named
      exact MethodDeclaration.role_ne_plain_of_accessorAt hasAccessor
        ((lookUp key).symm.trans found) named
  · intro name
    rw [lookUp]
    exact MethodDeclaration.exists_find?_table_accessor_iff

/-- The class `Box`: a method `get x` before and after the getter `x`, and a method `size`. -/
def boxClass : ClassPayload where
  modifiers := none
  name := ⟨0⟩
  typeParameters := none
  heritage := none
  members := [⟨2⟩, ⟨4⟩, ⟨6⟩, ⟨8⟩]

/-- A file that declares this class. -/
def boxFile : SourceFile :=
  .ofNodes "/project/box.ts"
    "class Box \x7b \"get x\"() \x7b\x7d get x() \x7b\x7d \"get x\"() \x7b\x7d size() \x7b\x7d \x7d"
    #[{ kind := .identifier, start := 6, stop := 9, payload := .identifier "Box" },
      { kind := .stringLiteral, start := 12, stop := 19, payload := .literal "get x" },
      { kind := .methodDeclaration, start := 12, stop := 24
        payload := .functionDecl
          { modifiers := none, name := ⟨1⟩, optional := false, typeParameters := none
            parameters := [], typeNode := .absent, body := .absent } },
      { kind := .identifier, start := 29, stop := 30, payload := .identifier "x" },
      { kind := .getAccessor, start := 25, stop := 35
        payload := .functionDecl
          { modifiers := none, name := ⟨3⟩, optional := false, typeParameters := none
            parameters := [], typeNode := .absent, body := .absent } },
      { kind := .stringLiteral, start := 36, stop := 43, payload := .literal "get x" },
      { kind := .methodDeclaration, start := 36, stop := 48
        payload := .functionDecl
          { modifiers := none, name := ⟨5⟩, optional := false, typeParameters := none
            parameters := [], typeNode := .absent, body := .absent } },
      { kind := .identifier, start := 49, stop := 53, payload := .identifier "size" },
      { kind := .methodDeclaration, start := 49, stop := 58
        payload := .functionDecl
          { modifiers := none, name := ⟨7⟩, optional := false, typeParameters := none
            parameters := [], typeNode := .absent, body := .absent } },
      { kind := .classDeclaration, start := 0, stop := 60, payload := .classDecl boxClass }]
    [⟨9⟩]

/-- The program with this file. -/
def boxProgram : Program where
  files := #[boxFile]

/-- In this class the getter has a signature too many, and a look-up of the method `get x` finds the
getter; no entry is left of this method, and `size` is as it should be. -/
theorem accessors_and_methods_apart_iff_box :
    ∃ record,
      (Resolver.remembering boxProgram "/project" []).LeavesClass {}
          { file := ⟨0⟩, source := boxFile } ⟨9⟩ boxClass (.ofClasses ["Box"]) record ∧
        (∃ entry, record.method? "get x" = some entry ∧ entry.role ≠ .plain ∧
          entry.signatures.length ≠ 1) ∧
        (∀ key entry, record.method? key = some entry → entry.name = "get x" →
          entry.role ≠ .plain) ∧
        ∃ entry, record.method? "size" = some entry ∧ entry.role = .plain := by
  let scope : Scope := { file := ⟨0⟩, source := boxFile }
  let declared := boxClass.members.filterMap
    ((Resolver.direct boxProgram "/project" []).declaredMethod? scope)
  have isClass : scope.source.classData? ⟨9⟩ = some boxClass := rfl
  have prepared : (DocModule.ofClasses ["Box"]).hasRecord
      (scope.source.declarationName boxClass.name) .classRecord = true := by decide +kernel
  have ids : declared.map (·.id) =
      [⟨.plain, "get x"⟩, ⟨.getter, "x"⟩, ⟨.plain, "get x"⟩, ⟨.plain, "size"⟩] := by
    decide +kernel
  obtain ⟨record, leaves, single, methods, accessors⟩ :=
    accessors_and_methods_apart_iff boxProgram "/project" [] .empty isClass prepared
  have atKey : ∀ key, MethodDeclaration.AccessorAt declared key ↔ "get x" = key := by
    intro key
    have byId : MethodDeclaration.AccessorAt declared key ↔
        ∃ id ∈ declared.map (·.id), id.role ≠ .plain ∧ id.key = key := by
      simp [MethodDeclaration.AccessorAt]
    rw [byId, ids]
    simp [MethodId.key]
  have last : (declared.filter (·.id.key = "get x")).getLast?.map (·.id) =
      some ⟨.plain, "get x"⟩ := by decide +kernel
  have ofMethod : ∀ name, (⟨.plain, name⟩ : MethodId) ∈ declared.map (·.id) →
      ∃ method ∈ declared, method.id = ⟨.plain, name⟩ := fun name => List.mem_map.1
  refine ⟨record, leaves, ?_, ?_, ?_⟩
  · obtain ⟨entry, found, isAccessor⟩ := (accessors "get x").2 ((atKey _).2 rfl)
    refine ⟨entry, found, isAccessor, fun one => ?_⟩
    obtain ⟨method, isLast, notPlain⟩ := (single "get x" entry found isAccessor).1 one
    rw [isLast, Option.map_some, Option.some.injEq] at last
    exact notPlain (congrArg MethodId.role last)
  · obtain ⟨method, member, same⟩ := ofMethod "get x" (by simp [ids])
    have lost := (methods method member (by rw [same])).2
    rw [same] at lost
    exact lost ((atKey _).2 rfl)
  · obtain ⟨method, member, same⟩ := ofMethod "size" (by simp [ids])
    have kept := (methods method member (by rw [same])).1
    rw [same] at kept
    obtain ⟨entry, found, isPlain, -⟩ := kept fun taken => absurd ((atKey _).1 taken) (by decide)
    exact ⟨entry, found, isPlain⟩

end ApiDocs
