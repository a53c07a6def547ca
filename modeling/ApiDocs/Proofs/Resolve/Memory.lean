import ApiDocs.Proofs.Reference.Memory

/-!
# Resolution with a memory

The resolver never looks at the memory of its index: each of its functions, run with an index that
remembers, agrees with the same function run with an index that derives.  There is one lemma for
each function, and each follows the text of its function: what is decided by the syntax is decided
alike on both sides, and every step that consults the index agrees.

## Main definitions

* `Resolver.remembering`, `Resolver.direct` — the resolver over either index.

## Main statements

* `agrees_type` — types agree, by induction on the depth of resolution.
* `agrees_skeleton?`, `agrees_contribution?` — what both passes learn from a statement agrees.
-/

namespace ApiDocs

namespace Resolver

open ReferenceIndex (Agrees Memory agrees_bySymbol agrees_byName)

/-- The resolver with an index that remembers its answers. -/
def remembering (program : Program) (base : String) (builtins : List String) :
    Resolver (StateM Memory) where
  program
  index := .remembering program base builtins

/-- The resolver with an index that derives every answer. -/
def direct (program : Program) (base : String) (builtins : List String) : Resolver Id where
  program
  index := .direct program base builtins

variable (program : Program) (base : String) (builtins : List String)

/-! ## Names -/

theorem agrees_qualifiedName? (dotted : String) :
    Agrees program base ((remembering program base builtins).qualifiedName? dotted)
      ((direct program base builtins).qualifiedName? dotted) := by
  simp only [qualifiedName?]
  split
  · exact agrees_byName program base builtins _ _
  · exact .pure none

theorem agrees_symbolReference (id : SymbolId) (fallback : String) :
    Agrees program base ((remembering program base builtins).symbolReference id fallback)
      ((direct program base builtins).symbolReference id fallback) := by
  simp only [symbolReference, remembering, direct]
  split
  · exact .pure _
  · split
    · exact .pure _
    · split
      · split
        · refine (agrees_bySymbol program base builtins _).bind fun owner => ?_
          cases owner with
          | some owner => exact .pure _
          | none => exact .pure _
        · exact .pure _
      · exact (agrees_bySymbol program base builtins id).bind fun _ => .pure _

theorem agrees_typeName (scope : Scope) (index : NodeIndex) :
    Agrees program base ((remembering program base builtins).typeName scope index)
      ((direct program base builtins).typeName scope index) := by
  have sameSymbol : (remembering program base builtins).symbolAt? scope index =
      (direct program base builtins).symbolAt? scope index := rfl
  simp only [typeName, sameSymbol]
  split
  · exact .pure _
  · rename_i symbol _
    have sameInternal : (remembering program base builtins).isInternal symbol =
        (direct program base builtins).isInternal symbol := rfl
    rw [sameInternal]
    split
    · exact (agrees_qualifiedName? program base builtins _).bind fun _ => .pure _
    · exact agrees_symbolReference program base builtins symbol _

theorem agrees_dottedHeritageName (scope : Scope) (index : NodeIndex) :
    Agrees program base ((remembering program base builtins).dottedHeritageName scope index)
      ((direct program base builtins).dottedHeritageName scope index) := by
  have sameSymbol : ((remembering program base builtins).symbolAt? scope index).filter
        (!(remembering program base builtins).isInternal ·) =
      ((direct program base builtins).symbolAt? scope index).filter
        (!(direct program base builtins).isInternal ·) := rfl
  simp only [dottedHeritageName, sameSymbol]
  split
  · exact agrees_symbolReference program base builtins _ _
  · exact (agrees_qualifiedName? program base builtins _).bind fun _ => .pure _

theorem agrees_valueName (scope : Scope) (index : NodeIndex) :
    Agrees program base ((remembering program base builtins).valueName scope index)
      ((direct program base builtins).valueName scope index) := by
  have sameSymbol : (remembering program base builtins).symbolAt? scope index =
      (direct program base builtins).symbolAt? scope index := rfl
  simp only [valueName, sameSymbol]
  split
  · exact agrees_symbolReference program base builtins _ _
  · exact .pure _

theorem agrees_heritageName (scope : Scope) (index : NodeIndex) :
    Agrees program base ((remembering program base builtins).heritageName scope index)
      ((direct program base builtins).heritageName scope index) := by
  simp only [heritageName]
  split
  · exact agrees_dottedHeritageName program base builtins scope index
  · exact agrees_dottedHeritageName program base builtins scope index
  · exact agrees_valueName program base builtins scope index
  · exact .pure _

theorem agrees_moduleAccess? (scope : Scope) (index : NodeIndex) :
    Agrees program base ((remembering program base builtins).moduleAccess? scope index)
      ((direct program base builtins).moduleAccess? scope index) := by
  have sameSymbol : (remembering program base builtins).symbolAt? scope index =
      (direct program base builtins).symbolAt? scope index := rfl
  simp only [moduleAccess?, sameSymbol]
  split
  · rename_i expression _ _
    have sameAccess : (remembering program base builtins).accessesModule scope expression =
        (direct program base builtins).accessesModule scope expression := rfl
    rw [sameAccess]
    split
    · split
      · exact (agrees_symbolReference program base builtins _ _).map _
      · exact agrees_qualifiedName? program base builtins _
    · exact .pure none
  · exact .pure none

/-! ## Parts of types -/

section

variable {program base builtins}
variable {types : NodeIndex → StateM Memory Ty} {plain : NodeIndex → Id Ty}

theorem agrees_optionalType (agree : ∀ index, Agrees program base (types index) (plain index))
    (index : NodeIndex) :
    Agrees program base (optionalType types index) (optionalType plain index) := by
  simp only [optionalType]
  split
  · exact (agree _).map some
  · exact .pure none

theorem agrees_typeList (agree : ∀ index, Agrees program base (types index) (plain index))
    (list : Option NodeList) :
    Agrees program base (typeList types list) (typeList plain list) :=
  .mapM agree (list.getD [])

theorem agrees_docBlock (agree : ∀ index, Agrees program base (types index) (plain index))
    (comment : Comment) :
    Agrees program base (docBlock types comment) (docBlock plain comment) := by
  refine (Agrees.mapM (fun tag => ?_) comment.tags).bind fun _ => .pure _
  exact (agrees_optionalType agree tag.type).bind fun _ => .pure _

theorem agrees_doc? (agree : ∀ index, Agrees program base (types index) (plain index))
    (scope : Scope) (index : NodeIndex) :
    Agrees program base (doc? types scope index) (doc? plain scope index) := by
  simp only [doc?]
  split
  · exact (agrees_docBlock agree _).map some
  · exact .pure none

theorem agrees_heritage (agree : ∀ index, Agrees program base (types index) (plain index))
    (scope : Scope) (index : NodeIndex) :
    Agrees program base ((remembering program base builtins).heritage types scope index)
      ((direct program base builtins).heritage plain scope index) := by
  simp only [heritage]
  split
  · refine (agrees_heritageName program base builtins scope _).bind fun target => ?_
    exact (agrees_typeList agree _).bind fun _ => .pure _
  · exact .pure _

theorem agrees_expression (agree : ∀ index, Agrees program base (types index) (plain index))
    (scope : Scope) (index : NodeIndex) :
    Agrees program base ((remembering program base builtins).expression types scope index)
      ((direct program base builtins).expression plain scope index) := by
  simp only [expression]
  split
  -- Only a `new` expression and a property access consult the index.
  case h_10 =>
    split
    · refine (agrees_valueName program base builtins scope _).bind fun target => ?_
      exact (agrees_typeList agree _).bind fun _ => .pure _
    · exact .pure _
  case h_11 =>
    refine (agrees_moduleAccess? program base builtins scope index).bind fun reference => ?_
    cases reference with
    | some target => exact .pure _
    | none => exact .pure _
  case h_8 => split <;> exact .pure _
  case h_9 => split <;> exact .pure _
  all_goals exact .pure _

theorem agrees_parameter? (agree : ∀ index, Agrees program base (types index) (plain index))
    (scope : Scope) (index : NodeIndex) :
    Agrees program base ((remembering program base builtins).parameter? types scope index)
      ((direct program base builtins).parameter? plain scope index) := by
  simp only [parameter?]
  split
  · refine (agrees_optionalType agree _).bind fun typeNode => ?_
    exact (agrees_optionalType (agrees_expression agree scope) _).bind fun _ => .pure _
  · exact .pure none

theorem agrees_parameters (agree : ∀ index, Agrees program base (types index) (plain index))
    (scope : Scope) (list : NodeList) :
    Agrees program base ((remembering program base builtins).parameters types scope list)
      ((direct program base builtins).parameters plain scope list) :=
  .collectM (agrees_parameter? agree scope) list

theorem agrees_typeParameters (agree : ∀ index, Agrees program base (types index) (plain index))
    (scope : Scope) (list : Option NodeList) :
    Agrees program base (typeParameters types scope list) (typeParameters plain scope list) := by
  refine .collectM (fun index => ?_) (list.getD [])
  simp only [typeParameter?]
  split
  · refine (agrees_optionalType agree _).bind fun constraint => ?_
    exact (agrees_optionalType agree _).bind fun _ => .pure _
  · exact .pure none

mutual

theorem agrees_inferredType? : ∀ inferred : InferredType,
    Agrees program base ((remembering program base builtins).inferredType? inferred)
      ((direct program base builtins).inferredType? inferred)
  | ⟨text, none, arguments⟩ => by
      simp only [inferredType?]
      exact .pure none
  | ⟨text, some symbol, arguments⟩ => by
      simp only [inferredType?]
      refine (agrees_symbolReference program base builtins symbol text).bind fun target => ?_
      exact (agrees_inferredArguments arguments).bind fun _ => .pure _

theorem agrees_inferredArguments : ∀ arguments : List InferredType,
    Agrees program base ((remembering program base builtins).inferredArguments arguments)
      ((direct program base builtins).inferredArguments arguments)
  | [] => by
      simp only [inferredArguments]
      exact .pure []
  | argument :: arguments => by
      simp only [inferredArguments]
      refine (agrees_inferredType? argument).bind fun first => ?_
      exact (agrees_inferredArguments arguments).bind fun _ => .pure _

end

theorem agrees_resultType? (agree : ∀ index, Agrees program base (types index) (plain index))
    (scope : Scope) (declaration typeNode : NodeIndex) :
    Agrees program base
      ((remembering program base builtins).resultType? types scope declaration typeNode)
      ((direct program base builtins).resultType? plain scope declaration typeNode) := by
  have sameSignature :
      ((remembering program base builtins).program.signatureAt? scope.file declaration).bind
          (·.returnType) =
        ((direct program base builtins).program.signatureAt? scope.file declaration).bind
          (·.returnType) := rfl
  simp only [resultType?, sameSignature]
  split
  · exact (agree _).map some
  · split
    · exact agrees_inferredType? _
    · exact .pure none

theorem agrees_signature? (agree : ∀ index, Agrees program base (types index) (plain index))
    (scope : Scope) (index : NodeIndex) :
    Agrees program base ((remembering program base builtins).signature? types scope index)
      ((direct program base builtins).signature? plain scope index) := by
  simp only [signature?]
  split
  · refine (agrees_parameters agree scope _).bind fun parameters => ?_
    refine (agrees_typeParameters agree scope _).bind fun typeParameters => ?_
    refine (agrees_resultType? agree scope index _).bind fun result => ?_
    exact (agrees_doc? agree scope index).bind fun _ => .pure _
  · exact .pure none

theorem agrees_member? (agree : ∀ index, Agrees program base (types index) (plain index))
    (scope : Scope) (index : NodeIndex) :
    Agrees program base ((remembering program base builtins).member? types scope index)
      ((direct program base builtins).member? plain scope index) := by
  have property : ∀ data, Agrees program base (propertyMember types scope index data)
      (propertyMember plain scope index data) := by
    intro data
    refine (agrees_optionalType agree _).bind fun typeNode => ?_
    exact (agrees_doc? agree scope index).bind fun _ => .pure _
  simp only [member?]
  split
  · exact .pure none
  · split
    · exact (property _).map some
    · exact (property _).map some
    · refine Agrees.map some ?_
      refine (agrees_parameters agree scope _).bind fun parameters => ?_
      refine (agrees_resultType? agree scope index _).bind fun result => ?_
      refine (agrees_typeParameters agree scope _).bind fun typeParameters => ?_
      exact (agrees_doc? agree scope index).bind fun _ => .pure _
    · refine Agrees.map some ?_
      refine (agrees_optionalType agree _).bind fun keyType => ?_
      exact (agrees_optionalType agree _).bind fun _ => .pure _
    · exact .pure none

theorem agrees_members (agree : ∀ index, Agrees program base (types index) (plain index))
    (scope : Scope) (list : NodeList) :
    Agrees program base ((remembering program base builtins).members types scope list)
      ((direct program base builtins).members plain scope list) :=
  .collectM (agrees_member? agree scope) list

end

/-! ## Types -/

theorem agrees_structuralType {types : NodeIndex → StateM Memory Ty} {plain : NodeIndex → Id Ty}
    (agree : ∀ index, Agrees program base (types index) (plain index)) (scope : Scope)
    (index : NodeIndex) (node : Node) :
    Agrees program base
      ((remembering program base builtins).structuralType scope types index node)
      ((direct program base builtins).structuralType scope plain index node) := by
  have this : ∀ raw, Agrees program base
      (structuralType.thisType (remembering program base builtins) scope index raw)
      (structuralType.thisType (direct program base builtins) scope index raw) := by
    intro raw
    simp only [structuralType.thisType, remembering, direct]
    split
    · exact (agrees_symbolReference program base builtins _ _).bind fun _ => .pure _
    · exact .pure _
  have function : ∀ raw, Agrees program base
      (structuralType.functionType (remembering program base builtins) scope types node raw)
      (structuralType.functionType (direct program base builtins) scope plain node raw) := by
    intro raw
    simp only [structuralType.functionType]
    split
    · refine (agrees_parameters agree scope _).bind fun parameters => ?_
      refine (agrees_optionalType agree _).bind fun result => ?_
      exact (agrees_typeParameters agree scope _).bind fun _ => .pure _
    · exact .pure _
  have composite : ∀ raw combine, Agrees program base
      (structuralType.composite types node raw combine)
      (structuralType.composite plain node raw combine) := by
    intro raw combine
    simp only [structuralType.composite]
    split
    · exact (agrees_typeList agree _).map combine
    · exact .pure _
  simp only [structuralType]
  split
  · split
    · refine (agrees_typeName program base builtins scope _).bind fun target => ?_
      exact (agrees_typeList agree _).bind fun _ => .pure _
    · exact .pure _
  · exact (agrees_typeName program base builtins scope index).bind fun _ => .pure _
  · exact (agrees_typeName program base builtins scope index).bind fun _ => .pure _
  · exact (agrees_heritage agree scope index).bind fun _ => .pure _
  · exact this _
  · exact this _
  · exact function _
  · exact function _
  · split
    · exact (agrees_members agree scope _).map Ty.object
    · exact .pure _
  · exact composite _ _
  · exact composite _ _
  · exact composite _ _
  · split
    · exact (agree _).map Ty.array
    · exact .pure _
  · split
    · split
      · exact (agree _).map _
      · exact .pure _
    · exact .pure _
  · split
    · exact agree _
    · exact .pure _
  · split
    · exact .pure _
    · exact .pure _
  all_goals exact .pure _

theorem agrees_typeStep {types : NodeIndex → StateM Memory Ty} {plain : NodeIndex → Id Ty}
    (agree : ∀ index, Agrees program base (types index) (plain index)) (scope : Scope)
    (index : NodeIndex) :
    Agrees program base ((remembering program base builtins).typeStep scope types index)
      ((direct program base builtins).typeStep scope plain index) := by
  simp only [typeStep]
  split
  · exact .pure _
  · split
    · exact .pure _
    · exact agrees_structuralType program base builtins agree scope index _

theorem agrees_typeWithin (scope : Scope) (depth : Nat) :
    ∀ index, Agrees program base
      ((remembering program base builtins).typeWithin scope depth index)
      ((direct program base builtins).typeWithin scope depth index) := by
  induction depth with
  | zero => intro index; exact .pure _
  | succ depth ih => intro index; exact agrees_typeStep program base builtins ih scope index

theorem agrees_type (scope : Scope) (index : NodeIndex) :
    Agrees program base ((remembering program base builtins).type scope index)
      ((direct program base builtins).type scope index) :=
  agrees_typeWithin program base builtins scope _ index

/-! ## Statements -/

theorem agrees_docOf? (scope : Scope) (index : NodeIndex) :
    Agrees program base ((remembering program base builtins).docOf? scope index)
      ((direct program base builtins).docOf? scope index) :=
  agrees_doc? (agrees_type program base builtins scope) scope index

/-- What the first pass learns does not depend on the memory. -/
theorem agrees_skeleton? (scope : Scope) (index : NodeIndex) :
    Agrees program base ((remembering program base builtins).skeleton? scope index)
      ((direct program base builtins).skeleton? scope index) := by
  have doc := agrees_docOf? program base builtins scope
  have members : ∀ list, Agrees program base
      (collectM ((remembering program base builtins).enumMember? scope) list)
      (collectM ((direct program base builtins).enumMember? scope) list) := by
    refine Agrees.collectM fun member => ?_
    simp only [enumMember?]
    split
    · exact (doc member).bind fun _ => .pure _
    · exact .pure none
  simp only [skeleton?]
  split
  · exact .pure none
  · split
    · exact (doc index).bind fun _ => .pure _
    · exact (doc index).bind fun _ => .pure _
    · exact (doc index).bind fun _ => (members _).bind fun _ => .pure _
    · exact (doc index).bind fun _ => .pure _
    · exact .pure none

theorem agrees_heritageClauses (scope : Scope) (clauses : Option NodeList) :
    Agrees program base ((remembering program base builtins).heritageClauses scope clauses)
      ((direct program base builtins).heritageClauses scope clauses) := by
  refine Agrees.bind (.collectM (fun index => ?_) (clauses.getD [])) fun _ => .pure _
  simp only [heritageClause?]
  split
  · refine Agrees.bind (.mapM ?_ _) fun _ => .pure _
    exact agrees_heritage (agrees_type program base builtins scope) scope
  · exact .pure none

theorem agrees_classBody (scope : Scope) (members : NodeList) :
    Agrees program base ((remembering program base builtins).classBody scope members)
      ((direct program base builtins).classBody scope members) := by
  have type := agrees_type program base builtins scope
  have signaturePart : ∀ index data part, Agrees program base
      ((remembering program base builtins).signaturePart? scope index data part)
      ((direct program base builtins).signaturePart? scope index data part) :=
    fun index _ _ => (agrees_signature? type scope index).bind fun _ => .pure _
  refine Agrees.bind (.collectM (fun index => ?_) members) fun _ => .pure _
  simp only [classPart?]
  split
  · exact .pure none
  · split
    · refine Agrees.bind ?_ fun propertyType => ?_
      · simp only [propertyType?]
        split
        · exact (type _).map some
        · exact agrees_optionalType (agrees_expression type scope) _
      · exact (agrees_doc? type scope index).bind fun _ => .pure _
    · exact signaturePart index _ _
    · exact signaturePart index _ _
    · exact signaturePart index _ _
    · refine Agrees.bind (.collectM (fun parameter => ?_) _) fun properties => ?_
      · simp only [parameterProperty?]
        split
        · split
          · exact (agrees_optionalType type _).bind fun _ => .pure _
          · exact .pure none
        · exact .pure none
      · exact (agrees_parameters type scope _).bind fun _ => .pure _
    · exact .pure none

/-- What the second pass learns does not depend on the memory. -/
theorem agrees_contribution? (scope : Scope) (index : NodeIndex) :
    Agrees program base ((remembering program base builtins).contribution? scope index)
      ((direct program base builtins).contribution? scope index) := by
  have type := agrees_type program base builtins scope
  have heritage := agrees_heritageClauses program base builtins scope
  simp only [contribution?]
  split
  · exact .pure none
  · split
    · refine (agrees_typeParameters type scope _).bind fun typeParameters => ?_
      refine (heritage _).bind fun clauses => ?_
      exact (agrees_classBody program base builtins scope _).bind fun _ => .pure _
    · refine (agrees_typeParameters type scope _).bind fun typeParameters => ?_
      refine (agrees_members type scope _).bind fun members => ?_
      exact (heritage _).bind fun _ => .pure _
    · refine (agrees_typeParameters type scope _).bind fun typeParameters => ?_
      exact (agrees_optionalType type _).bind fun _ => .pure _
    · exact (agrees_signature? type scope index).bind fun _ => .pure _
    · split
      · refine (agrees_doc? type scope index).bind fun doc => ?_
        refine Agrees.bind (.collectM (fun declarator => ?_) _) fun _ => .pure _
        simp only [constant?]
        split
        · split
          · exact (agrees_optionalType type _).bind fun _ => .pure _
          · exact .pure none
        · exact .pure none
      · exact .pure none
    · exact .pure none

end Resolver

namespace Extraction

open ReferenceIndex (Agrees Memory)

/-! ## Extractions -/

variable (program : Program) (settings : Settings)

theorem agrees_prepareEntries (file : FileId) (source : SourceFile) (base : ModuleId)
    (entries : List Entry) :
    ∀ tree, Agrees program settings.baseDirectory
      ((remembering program settings).prepareEntries file source base tree entries)
      ((direct program settings).prepareEntries file source base tree entries) := by
  induction entries with
  | nil => intro tree; exact .pure tree
  | cons entry entries ih =>
      intro tree
      refine Agrees.bind ?_ ih
      simp only [prepareEntry]
      split
      · refine (Resolver.agrees_skeleton? program settings.baseDirectory settings.builtins _
          _).bind fun skeleton => ?_
        cases skeleton with
        | some skeleton => exact .pure _
        | none => exact .pure _
      · exact .pure _

theorem agrees_visitEntries (file : FileId) (source : SourceFile) (base : ModuleId)
    (entries : List Entry) :
    ∀ tree, Agrees program settings.baseDirectory
      ((remembering program settings).visitEntries file source base tree entries)
      ((direct program settings).visitEntries file source base tree entries) := by
  induction entries with
  | nil => intro tree; exact .pure _
  | cons entry entries ih =>
      intro tree
      refine Agrees.bind ?_ fun pass => ?_
      · simp only [visitEntry]
        split
        · split
          · exact .pure _
          · refine (Resolver.agrees_contribution? program settings.baseDirectory settings.builtins _
              _).bind fun contribution => ?_
            cases contribution with
            | some contribution => exact .pure _
            | none => exact .pure _
        · exact .pure _
      · cases pass.error with
        | some error => exact .pure pass
        | none => exact ih pass.tree

theorem agrees_prepareFile (tree : ModuleTree) (file : FileId) :
    Agrees program settings.baseDirectory ((remembering program settings).prepareFile tree file)
      ((direct program settings).prepareFile tree file) := by
  simp only [prepareFile]
  cases found : program.file? file with
  | none =>
      simp only [remembering, direct, found]
      exact .pure _
  | some source =>
      simp only [remembering, direct, found]
      exact (agrees_prepareEntries program settings file source _ source.entries _).bind
        fun _ => .pure _

theorem agrees_visitFile (tree : ModuleTree) (file : FileId) :
    Agrees program settings.baseDirectory ((remembering program settings).visitFile tree file)
      ((direct program settings).visitFile tree file) := by
  simp only [visitFile]
  cases found : program.file? file with
  | none =>
      simp only [remembering, direct, found]
      exact .pure _
  | some source =>
      simp only [remembering, direct, found]
      exact agrees_visitEntries program settings file source _ source.entries _

theorem agrees_overFiles {base : String} {remembering : ModuleTree → FileId → StateM Memory Pass}
    {direct : ModuleTree → FileId → Id Pass}
    (each : ∀ tree file, Agrees program base (remembering tree file) (direct tree file))
    (files : List FileId) :
    ∀ tree, Agrees program base (overFiles remembering tree files)
      (overFiles direct tree files) := by
  induction files with
  | nil => intro tree; exact .pure _
  | cons file files ih =>
      intro tree
      refine (each tree file).bind fun reached => ?_
      cases reached.error with
      | some error => exact .pure reached
      | none => exact ih reached.tree

theorem agrees_run (files : List FileId) :
    Agrees program settings.baseDirectory ((remembering program settings).run files)
      ((direct program settings).run files) := by
  refine (agrees_overFiles program (agrees_prepareFile program settings) files _).bind
    fun prepared => ?_
  cases prepared.error with
  | some error => exact .pure _
  | none =>
      refine (agrees_overFiles program (agrees_visitFile program settings) files _).bind
        fun visited => ?_
      cases visited.error with
      | some error => exact .pure _
      | none => exact .pure _

end Extraction

/-- **The memory is invisible**: the documentation is that of an extraction which derives every
answer. -/
theorem extractFiles_eq_direct (program : Program) (settings : Settings) (files : List FileId) :
    extractFiles program settings files = (Extraction.direct program settings).run files :=
  (Extraction.agrees_run program settings files {}
    (ReferenceIndex.recalls_empty program settings.baseDirectory)).1

end ApiDocs
