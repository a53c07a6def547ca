import ApiDocs.Extract
import ApiDocs.Proofs.Reference.Settling
import ApiDocs.Proofs.Resolve.Settling

/-!
# Extraction ends on acyclic programs

A program is loaded from indexes that nothing checks: a node may hold itself as a child, and a
symbol may be its own parent.  The passes of the extraction run through these indexes in several
recursions, each with a limit of its own.  On a program without cycles **no limit is ever reached**.

## Main definitions

* `SourceFile.entryStep` — one step of the walk through a file.
* `Program.Acyclic` — a program without cycles.
* `SourceFile.Settled`, `Program.LookUpsSettle` — all that ends in a file and in the table of
  symbols.

## Main statements

* `skeleton?_congr`, `contribution?_congr` — what the passes learn depends on settled answers only.
* `settles_entriesWithin` — the walk through a file settles.
* `run_depth` — an extraction that goes deeper has the same result.
* `extraction_settles` — on an acyclic program everything settles.

## Design notes

**More than a larger limit.**  That a larger limit changes nothing would also be true of a type that
only wraps itself.  `Settles` says more: whatever is put in place of the calls beyond the limit, the
answer stays the same.
-/

namespace ApiDocs

open Relation (TransGen)

namespace Resolver

/-! ## Statements -/

section

variable {m : Type → Type} [Monad m] {scope : Scope} {one other : Resolver m}
variable (alike : Alike scope one other) (sameType : one.type scope = other.type scope)
include sameType

theorem enumMember?_congr : one.enumMember? scope = other.enumMember? scope := by
  funext index
  simp only [enumMember?, docOf?, sameType]

/-- What the first pass learns depends on the types of a scope only. -/
theorem skeleton?_congr : one.skeleton? scope = other.skeleton? scope := by
  funext index
  simp only [skeleton?, docOf?, sameType, enumMember?_congr sameType]

include alike

theorem heritageClauses_congr : one.heritageClauses scope = other.heritageClauses scope := by
  have clause : one.heritageClause? scope = other.heritageClause? scope := by
    funext index
    have entries : one.heritage (other.type scope) scope =
        other.heritage (other.type scope) scope :=
      funext fun entry => heritage_congr alike (.refl _ entry)
    simp only [heritageClause?, sameType, entries]
  funext clauses
  simp only [heritageClauses, clause]

theorem classBody_congr : one.classBody scope = other.classBody scope := by
  have property : one.parameterProperty? scope = other.parameterProperty? scope := by
    funext index
    simp only [parameterProperty?, sameType, alike.comment]
  have expression : one.expression (other.type scope) scope =
      other.expression (other.type scope) scope :=
    funext fun index => expression_congr alike (.refl _ index)
  have signature : one.signature? (other.type scope) scope =
      other.signature? (other.type scope) scope :=
    funext fun index => signature?_congr alike (.refl _ index)
  have parameters : one.parameters (other.type scope) scope =
      other.parameters (other.type scope) scope :=
    funext fun list => parameters_congr alike fun index _ => .refl _ index
  have part : one.classPart? scope = other.classPart? scope := by
    funext index
    simp only [classPart?, propertyType?, signaturePart?, property, expression, signature,
      parameters, sameType]
  funext members
  simp only [classBody, part]

/-- What the second pass learns depends on the types, names and comments of a scope only. -/
theorem contribution?_congr : one.contribution? scope = other.contribution? scope := by
  have signature : one.signature? (other.type scope) scope =
      other.signature? (other.type scope) scope :=
    funext fun index => signature?_congr alike (.refl _ index)
  have members : one.members (other.type scope) scope = other.members (other.type scope) scope :=
    funext fun list => members_congr alike fun index _ => .refl _ index
  have constant : one.constant? scope = other.constant? scope := by
    funext doc index
    simp only [constant?, sameType]
  funext index
  simp only [contribution?, heritageClauses_congr alike sameType, classBody_congr alike sameType,
    signature, members, constant, sameType]

end

end Resolver

/-! ## The walk through a file -/

namespace SourceFile

/-- One step of the walk through a file, given the entries of the statements inside namespaces. -/
def entryStep (source : SourceFile) (inner : NodeIndex → List String → List Entry)
    (index : NodeIndex) (namespaces : List String) : List Entry :=
  match source.arena.get? index with
  | none => []
  | some node =>
    if node.kind = .moduleDeclaration then
      match source.namespaceOf? node with
      | none => []
      | some (name, body) =>
        let opened := namespaces ++ [name]
        ⟨opened, none⟩ :: (source.bodyStatements body).flatMap fun next => inner next opened
    else [⟨namespaces, some index⟩]

variable {source : SourceFile}

theorem namespaceOf?_body {index : NodeIndex} {node : Node} {name : String} {body : NodeIndex}
    (found : source.arena.get? index = some node)
    (opens : source.namespaceOf? node = some (name, body)) : source.Links index body := by
  rw [namespaceOf?] at opens
  split at opens
  · rename_i data isNamespace
    split at opens
    · cases opens
    · split at opens
      · obtain ⟨-, rfl⟩ := Prod.mk.inj (Option.some.inj opens)
        exact ⟨node, found, .inl (by simp [isNamespace, Payload.indexes])⟩
      · cases opens
  · cases opens

/-- The statements in the body of a namespace: the body itself, or links of the body. -/
theorem mem_bodyStatements {body next : NodeIndex} (inBody : next ∈ source.bodyStatements body) :
    next = body ∨ source.Links body next := by
  rw [bodyStatements] at inBody
  split at inBody
  · rename_i node found
    split at inBody
    · exact .inl (List.mem_singleton.1 inBody)
    · rename_i statements _ isBlock
      exact .inr ⟨node, found, .inl (by rw [isBlock]; exact inBody)⟩
    · cases inBody
  · cases inBody

theorem follows_entryStep (source : SourceFile) : Follows source.entryStep source.Links := by
  intro first second index agree
  funext namespaces
  simp only [entryStep]
  split
  · rfl
  · rename_i node found
    split
    · split
      · rfl
      · rename_i name body opens
        have toBody := namespaceOf?_body found opens
        have same : ∀ next ∈ source.bodyStatements body, first next = second next := by
          intro next inBody
          rcases mem_bodyStatements inBody with rfl | link
          · exact agree next (.single toBody)
          · exact agree next (.head toBody (.single link))
        rw [List.flatMap_congr fun next inBody => congrFun (same next inBody) _]
    · rfl

theorem settles_entriesWithin (acyclic : source.Acyclic) {depth : Nat}
    (deep : source.arena.depthBound ≤ depth) (index : NodeIndex) :
    Settles source.entryStep source.arena.depthBound index
      fun namespaces => source.entriesWithin depth namespaces index :=
  acyclic.links.settles source.follows_entryStep
    (fun n index namespaces => source.entriesWithin n namespaces index) (fun _ => rfl)
    (Nat.lt_succ_of_le (AcyclicLinks.height_le index)) deep

/-- A walk that goes deeper meets the same statements. -/
theorem entriesTo_eq (acyclic : source.Acyclic) {depth : Nat}
    (deep : source.arena.depthBound ≤ depth) : source.entriesTo depth = source.entries := by
  have same : ∀ index, source.entriesWithin depth [] index =
      source.entriesWithin source.arena.depthBound [] index := by
    intro index
    exact congrFun ((settles_entriesWithin acyclic deep index).unique
      (settles_entriesWithin acyclic (Nat.le_refl _) index)) []
  simp only [entries, entriesTo, funext same]

end SourceFile

/-! ## Extraction -/

namespace Extraction

variable {m : Type → Type} [Monad m] (extraction : Extraction m) {depth : SourceFile → Nat}

section

variable {source : SourceFile} (acyclic : source.Acyclic)
variable (usual : source.arena.depthBound ≤ extraction.depth source)
variable (deep : source.arena.depthBound ≤ depth source)
include acyclic usual deep

/-- In an acyclic file a resolver that goes deeper learns the same from every statement. -/
theorem learns_depth (file : FileId) (module : DocModule) :
    ({ extraction with depth }).resolver.skeleton? (.ofModule file source module) =
        extraction.resolver.skeleton? (.ofModule file source module) ∧
      ({ extraction with depth }).resolver.contribution? (.ofModule file source module) =
        extraction.resolver.contribution? (.ofModule file source module) := by
  have alike : Resolver.Alike (.ofModule file source module) ({ extraction with depth }).resolver
      extraction.resolver :=
    .of_acyclic acyclic rfl rfl deep usual
  have sameType := alike.type_eq acyclic deep usual
  exact ⟨Resolver.skeleton?_congr sameType, Resolver.contribution?_congr alike sameType⟩

theorem prepareEntries_depth (file : FileId) (base : ModuleId) (entries : List Entry) :
    ∀ tree, ({ extraction with depth }).prepareEntries file source base tree entries =
      extraction.prepareEntries file source base tree entries := by
  have learns := fun module => (extraction.learns_depth acyclic usual deep file module).1
  induction entries with
  | nil => intro tree; rfl
  | cons entry entries ih =>
      intro tree
      simp only [prepareEntries, prepareEntry, learns, ih]

theorem visitEntries_depth (file : FileId) (base : ModuleId) (entries : List Entry) :
    ∀ tree, ({ extraction with depth }).visitEntries file source base tree entries =
      extraction.visitEntries file source base tree entries := by
  have learns := fun module => (extraction.learns_depth acyclic usual deep file module).2
  induction entries with
  | nil => intro tree; rfl
  | cons entry entries ih =>
      intro tree
      simp only [visitEntries, visitEntry, learns, ih]

omit [Monad m] in
theorem entries_depth :
    ({ extraction with depth }).entries source = extraction.entries source := by
  rw [entries, entries, SourceFile.entriesTo_eq acyclic deep,
    SourceFile.entriesTo_eq acyclic usual]

end

/-- **Going deeper changes nothing** about an extraction from acyclic files. -/
theorem run_depth (acyclic : ∀ source ∈ extraction.program.files, source.Acyclic)
    (usual : ∀ source ∈ extraction.program.files,
      source.arena.depthBound ≤ extraction.depth source)
    (deep : ∀ source ∈ extraction.program.files, source.arena.depthBound ≤ depth source)
    (files : List FileId) :
    ({ extraction with depth }).run files = extraction.run files := by
  have prepare : ({ extraction with depth }).prepareFile = extraction.prepareFile := by
    funext tree file
    simp only [prepareFile]
    split
    · rfl
    · rename_i source known
      have listed : source ∈ extraction.program.files := Array.mem_of_getElem? known
      rw [extraction.entries_depth (acyclic _ listed) (usual _ listed) (deep _ listed),
        extraction.prepareEntries_depth (acyclic _ listed) (usual _ listed) (deep _ listed)]
      rfl
  have visit : ({ extraction with depth }).visitFile = extraction.visitFile := by
    funext tree file
    simp only [visitFile]
    split
    · rfl
    · rename_i source known
      have listed : source ∈ extraction.program.files := Array.mem_of_getElem? known
      rw [extraction.entries_depth (acyclic _ listed) (usual _ listed) (deep _ listed),
        extraction.visitEntries_depth (acyclic _ listed) (usual _ listed) (deep _ listed)]
      rfl
  simp only [run, prepare, visit]
  rfl

end Extraction

/-! ## Acyclic programs -/

/-- Nothing in a program leads back to where it started: neither the references between the nodes
of a file, nor their parents, nor the parents of symbols. -/
structure Program.Acyclic (program : Program) : Prop where
  files : ∀ source ∈ program.files, source.Acyclic
  symbols : ∀ id, ∃ n, program.above^[n] (some id) = none

/-- Two resolvers give the same answers to every question about a node. -/
structure Resolver.SameAnswers {m : Type → Type} [Monad m] (scope : Scope)
    (one other : Resolver m) : Prop where
  type : ∀ index, one.type scope index = other.type scope index
  expression : ∀ index, one.expression (one.type scope) scope index =
    other.expression (other.type scope) scope index
  heritage : ∀ index, one.heritage (one.type scope) scope index =
    other.heritage (other.type scope) scope index
  parameter : ∀ index, one.parameter? (one.type scope) scope index =
    other.parameter? (other.type scope) scope index
  signature : ∀ index, one.signature? (one.type scope) scope index =
    other.signature? (other.type scope) scope index
  member : ∀ index, one.member? (one.type scope) scope index =
    other.member? (other.type scope) scope index

theorem Resolver.Alike.sameAnswers {m : Type → Type} [Monad m] {scope : Scope}
    {one other : Resolver m} (alike : Alike scope one other)
    (sameType : one.type scope = other.type scope) : SameAnswers scope one other := by
  constructor
  all_goals intro index; rw [sameType]
  · exact expression_congr alike (.refl _ index)
  · exact heritage_congr alike (.refl _ index)
  · exact parameter?_congr alike (.refl _ index)
  · exact signature?_congr alike (.refl _ index)
  · exact member?_congr alike (.refl _ index)

/-- What ends in a file.  The recursions through types, dotted names, parents and namespaces settle
within the size of the file, and whoever goes deeper than that gets the same answers. -/
structure SourceFile.Settled (source : SourceFile) : Prop where
  type : ∀ {m : Type → Type} [Monad m] (resolver : Resolver m) (scope : Scope) (index : NodeIndex),
    scope.source = source → source.arena.depthBound ≤ resolver.depth source →
    Settles (resolver.typeStep scope) source.arena.depthBound index (resolver.type scope index)
  answers : ∀ {m : Type → Type} [Monad m] (resolver : Resolver m) (scope : Scope)
    (depth : SourceFile → Nat), scope.source = source →
    source.arena.depthBound ≤ resolver.depth source → source.arena.depthBound ≤ depth source →
    Resolver.SameAnswers scope { resolver with depth } resolver
  entityName : ∀ (scope : Scope) (depth : Nat) (index : NodeIndex), scope.source = source →
    source.arena.depthBound ≤ depth →
    Settles scope.entityNameStep source.arena.depthBound index (scope.entityNameWithin depth index)
  comment : ∀ (name : String) (height : Nat) (index : NodeIndex), source.arena.depthBound ≤ height →
    Settles (source.commentStep name) source.arena.depthBound index
      (commentAbove? source name height index)
  parameterComment : ∀ (scope : Scope) (height : Nat) (index : NodeIndex), scope.source = source →
    source.arena.depthBound ≤ height →
    parameterCommentWithin? scope height index = parameterComment? scope index
  walk : ∀ (depth : Nat) (index : NodeIndex), source.arena.depthBound ≤ depth →
    Settles source.entryStep source.arena.depthBound index
      fun namespaces => source.entriesWithin depth namespaces index

theorem SourceFile.Acyclic.settled {source : SourceFile} (acyclic : source.Acyclic) :
    source.Settled where
  type := by
    rintro m _ resolver scope index rfl deep
    exact Resolver.settles_type acyclic deep index
  answers := by
    rintro m _ resolver scope depth rfl usual deep
    have alike : Resolver.Alike scope { resolver with depth } resolver :=
      .of_acyclic acyclic rfl rfl deep usual
    exact alike.sameAnswers (alike.type_eq acyclic deep usual)
  entityName := by
    rintro scope depth index rfl deep
    exact Scope.settles_entityName acyclic deep index
  comment name height index enough := settles_commentAbove? acyclic name enough index
  parameterComment := by
    rintro scope height index rfl enough
    simp only [parameterComment?, parameterCommentWithin?]
    split
    · exact (settles_commentAbove? acyclic _ enough _).unique
        (settles_commentAbove? acyclic _ (Nat.le_refl _) _)
    · rfl
  walk depth index deep := settles_entriesWithin acyclic deep index

/-- What ends in the table of symbols: the walk to the namespaces around a symbol settles, and
look-ups with a larger bound have the same answers. -/
structure Program.LookUpsSettle (program : Program) : Prop where
  chain : ∀ (id : SymbolId) (symbol : Symbol), program.symbol? id = some symbol →
    Settles program.moduleStep program.symbolBound symbol.parent
      (program.namespaceChain symbol).reverse
  bySymbol : ∀ (base : String) (id : SymbolId) (bound : Nat), program.symbolBound ≤ bound →
    program.locate? base id bound = program.locate? base id
  byName : ∀ (name : String) (qualifier : Option String) (bound : Nat),
    program.symbolBound ≤ bound →
    program.symbolByName? name qualifier bound = program.symbolByName? name qualifier

/-- **Extraction ends on every acyclic program.**  All recursions of the resolver and all walks
settle within the sizes of the files and of the table of symbols; absent indexes, and indexes that
belong to no node or symbol, may stand anywhere.  An extraction from any list of files that goes
deeper has the same result. -/
theorem extraction_settles (program : Program) (acyclic : program.Acyclic) :
    (∀ source ∈ program.files, source.Settled) ∧ program.LookUpsSettle ∧
      ∀ (settings : Settings) (depth : SourceFile → Nat) (bound : Nat) (files : List FileId),
        (∀ source ∈ program.files, source.arena.depthBound ≤ depth source) →
        program.symbolBound ≤ bound →
        (Extraction.run
          { program, settings, depth
            index := .remembering program settings.baseDirectory settings.builtins bound }
          files {}).1 = extractFiles program settings files := by
  refine ⟨fun source listed => (acyclic.files source listed).settled, ?_, ?_⟩
  · exact {
      chain := fun id symbol found =>
        Program.settles_namespaceChain acyclic.symbols found (Nat.le_refl _)
      bySymbol := fun base id bound enough =>
        Program.locate?_bound acyclic.symbols enough base id
      byName := fun name qualifier bound enough =>
        Program.symbolByName?_bound acyclic.symbols enough name qualifier }
  · intro settings depth bound files deep enough
    rw [Program.remembering_bound acyclic.symbols enough]
    have same := (Extraction.remembering program settings).run_depth acyclic.files
      (fun _ _ => Nat.le_refl _) deep files
    exact congrArg (fun run => (run {}).1) same

/-- A file whose nodes refer to earlier nodes, to an absent node and to nodes that do not exist. -/
def pairFile : SourceFile where
  path := "/project/pair.ts"
  text := "type Pair = [Date, ]"
  arena :=
    { nodes := #[
        { kind := .identifier, start := 5, stop := 9, payload := .identifier "Pair" },
        { kind := .typeReference, start := 13, stop := 17, payload := .typeReference ⟨99⟩ none },
        { kind := .tupleType, start := 12, stop := 20
          payload := .composite [⟨1⟩, ⟨77⟩, .absent] },
        { kind := .typeAliasDeclaration, start := 0, stop := 20
          payload := .aliasDecl
            { modifiers := none, name := ⟨0⟩, typeParameters := none, value := ⟨2⟩ } }]
      parents := #[⟨3⟩, ⟨2⟩, ⟨3⟩, ⟨88⟩] }
  statements := [⟨3⟩, ⟨66⟩]
  commentMap := .ofList [(3, [{ tags := [{ word := "type", type := ⟨2⟩ }] }])]

/-- The program with that file and three symbols, the last of which has no known parent. -/
def pairProgram : Program where
  files := #[pairFile]
  symbols := #[
    { name := "plane", flags := Flag.module },
    { name := "shapes", flags := Flag.module, parent := some ⟨0⟩ },
    { name := "lost", flags := Flag.module, parent := some ⟨55⟩ }]

/-- A number that falls along references rules out cycles. -/
theorem SourceFile.not_transGen_of_falls {source : SourceFile} (rank : NodeIndex → Nat)
    (falls : ∀ {index next}, source.Refers index next → rank next < rank index)
    (index : NodeIndex) : ¬TransGen source.Refers index index := by
  have lower : ∀ {next}, TransGen source.Refers index next → rank next < rank index := by
    intro next leads
    induction leads with
    | single link => exact falls link
    | tail _ link ih => exact (falls link).trans ih
  exact fun cycle => Nat.lt_irrefl _ (lower cycle)

/-- References lead to earlier nodes, and parents to later ones. -/
theorem pairProgram_acyclic : pairProgram.Acyclic where
  files := by
    intro source listed
    obtain rfl := Array.mem_singleton.1 listed
    have places : ∀ {index node}, pairFile.arena.get? index = some node →
        index = ⟨0⟩ ∨ index = ⟨1⟩ ∨ index = ⟨2⟩ ∨ index = ⟨3⟩ := by
      intro index node found
      have inside : index.toNat < 4 := Arena.toNat_lt_of_get? found
      simp only [← NodeIndex.toNat_injective.eq_iff]
      exact (by omega : index.toNat = 0 ∨ index.toNat = 1 ∨ index.toNat = 2 ∨ index.toNat = 3)
    constructor
    · refine SourceFile.not_transGen_of_falls
        (fun index => if index.toNat < 4 then index.toNat + 1 else 0) ?_
      rintro index next ⟨node, found, child | ⟨-, comment, attached, tag, inComment, rfl⟩⟩
      · revert next
        rcases places found with rfl | rfl | rfl | rfl <;> cases found <;> decide
      · revert comment tag
        rcases places found with rfl | rfl | rfl | rfl <;> decide
    · intro index node found
      refine ⟨4, ?_⟩
      rcases places found with rfl | rfl | rfl | rfl <;> decide
  symbols := by
    intro id
    cases found : pairProgram.symbol? id with
    | none => exact ⟨1, by simp [Program.above, found]⟩
    | some symbol =>
        have inside : id.toNat < 3 := (Array.getElem?_eq_some_iff.1 found).1
        have places : id = ⟨0⟩ ∨ id = ⟨1⟩ ∨ id = ⟨2⟩ := by
          simp only [← SymbolId.toNat_injective.eq_iff]
          exact (by omega : id.toNat = 0 ∨ id.toNat = 1 ∨ id.toNat = 2)
        refine ⟨3, ?_⟩
        rcases places with rfl | rfl | rfl <;> decide

/-- The program is acyclic, and going a hundred levels deep brings nothing new. -/
theorem extraction_settles_pair :
    let settings : Settings := { baseDirectory := "/project", builtins := [] }
    pairProgram.Acyclic ∧ pairFile.Settled ∧ pairProgram.LookUpsSettle ∧
      (Extraction.run
        { program := pairProgram, settings, depth := fun _ => 100
          index := .remembering pairProgram "/project" [] 100 } [⟨0⟩, ⟨7⟩] {}).1 =
        extractFiles pairProgram settings [⟨0⟩, ⟨7⟩] := by
  intro settings
  obtain ⟨files, lookUps, deeper⟩ := extraction_settles pairProgram pairProgram_acyclic
  refine ⟨pairProgram_acyclic, files pairFile (Array.mem_singleton_self pairFile), lookUps, ?_⟩
  refine deeper settings (fun _ => 100) 100 [⟨0⟩, ⟨7⟩] ?_ (by decide)
  intro source listed
  obtain rfl := Array.mem_singleton.1 listed
  decide

end ApiDocs
