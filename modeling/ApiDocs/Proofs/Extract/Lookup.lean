import ApiDocs.Proofs.Extract.Merging
import ApiDocs.Proofs.Extract.Ways
import ApiDocs.Proofs.Tree.History

/-!
# Looking modules up by their paths

A module is looked up by a list of names: each name leads to the first child that has it, and there
is no way back.  A directory and a namespace may share a name, and then the younger of the two hides
behind the older one, with everything below it.  So a list of names leads to **the foremost module
with that path**: neither the module nor any module above it has an older sibling of the same name.

## Main definitions

* `ModuleTree.OlderNamesake` — an older sibling of the same name.
* `ModuleTree.Foremost` — a module that no older namesake hides.
* `ModuleTree.Unmixed` — no directory and namespace share a name and a parent.
* `ModuleTree.FindsForemost` — look-up by path answers exactly the foremost modules.

## Main statements

* `Shaped.child?_eq_some_iff` — one name leads to the child without an older namesake.
* `Shaped.find?_eq_some_iff` — a list of names leads to the foremost module with that path.
* `paths_lead_to_foremost_modules` — in every tree that an extraction reaches.
-/

namespace ApiDocs

/-- In an ascending list the first element with a property is the least one. -/
theorem find?_eq_some_iff_least {list : List Nat} (ascending : list.Pairwise (· < ·))
    {holds : Nat → Bool} {least : Nat} :
    list.find? holds = some least ↔
      least ∈ list ∧ holds least = true ∧ ∀ other ∈ list, other < least → holds other = false := by
  rw [List.find?_eq_some_iff_append]
  constructor
  · rintro ⟨holdsLeast, before, after, rfl, none⟩
    obtain ⟨-, ascendingAfter, -⟩ := List.pairwise_append.1 ascending
    refine ⟨by simp, holdsLeast, fun other member less => ?_⟩
    rcases List.mem_append.1 member with isBefore | isAfter
    · simpa using none other isBefore
    · rcases List.mem_cons.1 isAfter with rfl | behind
      · exact (Nat.lt_irrefl _ less).elim
      · exact (Nat.lt_asymm less ((List.pairwise_cons.1 ascendingAfter).1 other behind)).elim
  · rintro ⟨member, holdsLeast, none⟩
    obtain ⟨before, after, rfl⟩ := List.append_of_mem member
    obtain ⟨-, -, smaller⟩ := List.pairwise_append.1 ascending
    refine ⟨holdsLeast, before, after, rfl, fun other isBefore => ?_⟩
    simp [none other (by simp [isBefore]) (smaller other isBefore least (by simp))]

namespace ModuleTree

/-- An older module with the same parent and the same name. -/
def OlderNamesake (tree : ModuleTree) (older id : ModuleId) : Prop :=
  older < id ∧ ∃ first second, tree.get? older = some first ∧ tree.get? id = some second ∧
    first.parent = second.parent ∧ first.name = second.name

/-- Neither a module nor any module above it has an older namesake. -/
def Foremost (tree : ModuleTree) (id : ModuleId) : Prop :=
  ∀ other, other = id ∨ tree.Ancestor other id → ∀ older, ¬tree.OlderNamesake older other

/-- Modules with the same parent and the same name are of the same kind. -/
def Unmixed (tree : ModuleTree) : Prop :=
  ∀ {id other module otherModule}, tree.get? id = some module →
    tree.get? other = some otherModule → module.parent = otherModule.parent →
    module.name = otherModule.name → module.isNamespace = otherModule.isNamespace

/-- Look-up by path answers exactly the foremost modules. -/
structure FindsForemost (tree : ModuleTree) : Prop where
  /-- What is found is a module of the tree, and its path is the list of names it was found by. -/
  found : ∀ {path module}, tree.find? path = some module →
    ∃ id, tree.get? id = some module ∧ module.path = path ∧ tree.Foremost id
  /-- A module that no older namesake hides is found by its path. -/
  foremost : ∀ {id module}, tree.get? id = some module → tree.Foremost id →
    tree.find? module.path = some module
  /-- What is found is one module: no other module of the tree is equal to it. -/
  single : ∀ {id other module}, tree.get? id = some module → tree.get? other = some module →
    id = other
  /-- If no directory and namespace share a name and a parent, every module is found by its path. -/
  unmixed : tree.Unmixed → ∀ {id module}, tree.get? id = some module →
    tree.find? module.path = some module

/-! ## One name -/

theorem findFrom?_append (tree : ModuleTree) (module : DocModule) (first second : List String) :
    tree.findFrom? module (first ++ second) =
      (tree.findFrom? module first).bind (tree.findFrom? · second) := by
  induction first generalizing module with
  | nil => rfl
  | cons name names ih =>
      rw [List.cons_append, findFrom?, findFrom?, Option.bind_assoc]
      congr 1
      funext child
      exact ih child

theorem find?_concat (tree : ModuleTree) (path : List String) (name : String) :
    tree.find? (path ++ [name]) = (tree.find? path).bind (tree.child? · name) := by
  rw [find?, find?, Option.bind_assoc]
  congr 1
  funext root
  rw [findFrom?_append]
  congr 1
  funext module
  rw [findFrom?]
  cases tree.child? module name <;> rfl

namespace Shaped

variable {tree : ModuleTree} {id : ModuleId} {module : DocModule}

/-- A module is a child of another one if it names it as its parent. -/
theorem mem_children_iff (shaped : tree.Shaped) (found : tree.get? id = some module)
    {child : ModuleId} {below : DocModule} (foundBelow : tree.get? child = some below) :
    child ∈ module.children ↔ below.parent = some id := by
  rw [← childrenOf_of_get? found, shaped.mem_childrenOf,
    parent?_of_header? (header?_of_get? foundBelow)]
  rfl

/-- **One name leads to the child without an older namesake.** -/
theorem child?_eq_some_iff (shaped : tree.Shaped) (found : tree.get? id = some module)
    {name : String} {below : DocModule} :
    tree.child? module name = some below ↔
      ∃ child, tree.get? child = some below ∧ below.parent = some id ∧ below.name = name ∧
        ∀ older, ¬tree.OlderNamesake older child := by
  have ascending : module.children.Pairwise (· < ·) := by
    rw [← childrenOf_of_get? found]
    exact shaped.pairwise_childrenOf id
  rw [child?, List.find?_filterMap, Option.bind_eq_some_iff]
  simp only [find?_eq_some_iff_least ascending]
  constructor
  · rintro ⟨child, ⟨isChild, hasName, none⟩, foundBelow⟩
    have isParent := (shaped.mem_children_iff found foundBelow).1 isChild
    have isName : below.name = name := by simpa [foundBelow] using hasName
    refine ⟨child, foundBelow, isParent, isName, ?_⟩
    rintro older ⟨less, first, second, foundFirst, foundSecond, sameParent, sameName⟩
    obtain rfl := Option.some.inj (foundBelow.symm.trans foundSecond)
    have listed := (shaped.mem_children_iff found foundFirst).2 (sameParent.trans isParent)
    have differs := none older listed less
    simp [foundFirst, sameName, isName] at differs
  · rintro ⟨child, foundBelow, isParent, isName, noOlder⟩
    have isChild := (shaped.mem_children_iff found foundBelow).2 isParent
    refine ⟨child, ⟨isChild, by simp [foundBelow, isName], fun other listed less => ?_⟩, foundBelow⟩
    obtain ⟨first, foundFirst, firstParent, -⟩ := shaped.child found listed
    by_contra same
    have sameName : first.name = name := by simpa [foundFirst] using same
    exact noOlder other ⟨less, first, below, foundFirst, foundBelow,
      firstParent.trans isParent.symm, sameName.trans isName.symm⟩

/-! ## Lists of names -/

theorem foremost_root (shaped : tree.Shaped) : tree.Foremost rootId := by
  rintro other (rfl | above) older ⟨less, -⟩
  · exact Nat.not_lt_zero _ less
  · obtain ⟨parent, -, isParent⟩ := Relation.TransGen.tail'_iff.1 above
    exact Nat.not_lt_zero _ (shaped.parent_lt isParent)

/-- A module is foremost if its parent is and if it has no older namesake itself. -/
theorem foremost_iff {parent : ModuleId} (isParent : tree.parent? id = some parent) :
    tree.Foremost id ↔ tree.Foremost parent ∧ ∀ older, ¬tree.OlderNamesake older id := by
  have above : ∀ {other}, tree.Ancestor other id ↔ other = parent ∨ tree.Ancestor other parent := by
    intro other
    rw [Ancestor, Relation.TransGen.tail'_iff]
    constructor
    · rintro ⟨next, climbs, isNext⟩
      obtain rfl := Option.some.inj (isParent.symm.trans isNext)
      exact (Relation.reflTransGen_iff_eq_or_transGen.1 climbs).imp Eq.symm fun higher => higher
    · intro climbs
      refine ⟨parent, Relation.reflTransGen_iff_eq_or_transGen.2 ?_, isParent⟩
      exact climbs.imp Eq.symm fun higher => higher
  constructor
  · intro foremost
    exact ⟨fun other climbs => foremost other (.inr (above.2 climbs)), foremost id (.inl rfl)⟩
  · rintro ⟨foremost, own⟩ other (rfl | climbs)
    · exact own
    · exact foremost other (above.1 climbs)

/-- **A list of names leads to the foremost module with that path.** -/
theorem find?_eq_some_iff (shaped : tree.Shaped) {path : List String} :
    ∀ {module : DocModule}, tree.find? path = some module ↔
      ∃ id, tree.get? id = some module ∧ module.path = path ∧ tree.Foremost id := by
  obtain ⟨root, foundRoot, rootPath⟩ := shaped.wellFormed.root
  -- A path is one name longer than that of the parent, and the last name is that of the module.
  have climb : ∀ {id module}, tree.get? id = some module → id ≠ rootId →
      ∃ parent above, module.parent = some parent ∧ tree.get? parent = some above ∧
        module.path = above.path ++ [module.name] := by
    intro id module found noRoot
    obtain ⟨parent, header, isParent, -, foundHeader, path, -⟩ :=
      shaped.parent (header?_of_get? found) noRoot
    obtain ⟨above, foundAbove, rfl⟩ := Option.map_eq_some_iff.1 foundHeader
    exact ⟨parent, above, isParent, foundAbove, path⟩
  induction path using List.reverseRecOn with
  | nil =>
      intro module
      rw [find?, foundRoot, Option.bind_some, findFrom?, Option.some.injEq]
      constructor
      · rintro rfl
        exact ⟨rootId, foundRoot, rootPath, shaped.foremost_root⟩
      · rintro ⟨id, found, noNames, -⟩
        by_cases isRoot : id = rootId
        · rw [isRoot, foundRoot] at found
          exact Option.some.inj found
        · obtain ⟨_, above, -, -, path⟩ := climb found isRoot
          simp [noNames] at path
  | append_singleton path name ih =>
      intro module
      rw [find?_concat, Option.bind_eq_some_iff]
      constructor
      · rintro ⟨above, foundAbove, isChild⟩
        obtain ⟨parent, isAbove, abovePath, foremost⟩ := ih.1 foundAbove
        obtain ⟨id, found, isParent, isName, own⟩ := (shaped.child?_eq_some_iff isAbove).1 isChild
        have header := header?_of_get? found
        obtain ⟨_, _, isParentAgain, isAboveAgain, path⟩ :=
          climb found (shaped.ne_root header isParent)
        obtain rfl := Option.some.inj (isParent.symm.trans isParentAgain)
        obtain rfl := Option.some.inj (isAbove.symm.trans isAboveAgain)
        refine ⟨id, found, by rw [path, abovePath, isName], ?_⟩
        exact (foremost_iff ((parent?_of_header? header).trans isParent)).2 ⟨foremost, own⟩
      · rintro ⟨id, found, isPath, foremost⟩
        have noRoot : id ≠ rootId := by
          rintro rfl
          rw [foundRoot, Option.some.injEq] at found
          rw [← found, rootPath] at isPath
          simp at isPath
        obtain ⟨parent, above, isParent, isAbove, path⟩ := climb found noRoot
        obtain ⟨abovePath, isName⟩ := List.append_inj' (path.symm.trans isPath) rfl
        obtain ⟨aboveForemost, own⟩ :=
          (foremost_iff ((parent?_of_header? (header?_of_get? found)).trans isParent)).1 foremost
        refine ⟨above, ih.2 ⟨parent, isAbove, abovePath, aboveForemost⟩, ?_⟩
        exact (shaped.child?_eq_some_iff isAbove).2
          ⟨id, found, isParent, List.singleton_inj.1 isName, own⟩

/-- Without mixed names every module is foremost. -/
theorem foremost_of_unmixed (shaped : tree.Shaped) (unmixed : tree.Unmixed) (id : ModuleId) :
    tree.Foremost id := by
  rintro other - older ⟨less, first, second, foundFirst, foundSecond, sameParent, sameName⟩
  have sameKind := unmixed foundFirst foundSecond sameParent sameName
  have same := shaped.unique (header?_of_get? foundFirst) (header?_of_get? foundSecond) sameParent
    (congrArg₂ Step.mk sameName sameKind)
  exact Nat.ne_of_lt less same

theorem findsForemost (shaped : tree.Shaped) : tree.FindsForemost where
  found := shaped.find?_eq_some_iff.1
  foremost found isForemost := shaped.find?_eq_some_iff.2 ⟨_, found, rfl, isForemost⟩
  single found foundOther :=
    shaped.unique (header?_of_get? found) (header?_of_get? foundOther) rfl rfl
  unmixed unmixed _ _ found :=
    shaped.find?_eq_some_iff.2 ⟨_, found, rfl, shaped.foremost_of_unmixed unmixed _⟩

end Shaped

end ModuleTree

/-- **A list of names leads to the foremost module with that path.**  After any calls of the two
passes, with any index and from any state of it, what is found by a list of names has that list for
its path, and every module that no older namesake hides is found by its path.  If no directory and
namespace share a name and a parent, these are all modules.  The tree of every documentation is such
a tree. -/
theorem paths_lead_to_foremost_modules :
    (∀ {σ : Type} (extraction : Extraction (StateM σ)) (state : σ)
      (calls : List Extraction.Call),
      (extraction.after extraction.start calls state).1.FindsForemost) ∧
    ∀ {program : Program} {settings : Settings} {files : List FileId}
      {documentation : Documentation},
      extractFiles program settings files = .ok documentation →
      documentation.tree.FindsForemost := by
  constructor
  · intro σ extraction state calls
    have shaped := Extraction.after_shaped
      (canReturn_run (extraction.after extraction.start calls) state)
    exact shaped.findsForemost
  · intro program settings files documentation succeeds
    exact (extractFiles_within succeeds).1.shaped.findsForemost

/-- A file that opens the namespace `shapes`, and one in the directory `shapes` that does so too. -/
def namesakeProgram : Program where
  files := #[shapesFile "/project/first.ts", shapesFile "/project/shapes/second.ts"]

/-- The namespace below the root is older than the directory of the same name.  It is found by the
path that both have, and what lies below the directory is not found. -/
theorem paths_lead_to_foremost_modules_namesakes :
    let extraction := Extraction.remembering namesakeProgram (.ofBase "/project")
    let tree := (extraction.after extraction.start [.prepare ⟨0⟩, .prepare ⟨1⟩] {}).1
    tree.Foremost 1 ∧ ∃ older younger, tree.get? 1 = some older ∧ tree.get? 2 = some younger ∧
      older.path = ["shapes"] ∧ younger.path = ["shapes"] ∧ tree.find? ["shapes"] = some older ∧
      (tree.get? 3).map (·.path) = some ["shapes", "shapes"] ∧
      (tree.find? ["shapes", "shapes"]).isNone = true := by
  intro extraction tree
  have shaped : tree.Shaped := Extraction.after_shaped
    (canReturn_run (extraction.after extraction.start [.prepare ⟨0⟩, .prepare ⟨1⟩]) {})
  have evaluated : [0, 1, 2].map (fun id => (tree.get? id).map fun module =>
      (module.path, module.parent)) =
      [some ([], none), some (["shapes"], some 0), some (["shapes"], some 0)] := by
    decide +kernel
  simp only [List.map_cons, List.map_nil, List.cons.injEq, Option.map_eq_some_iff,
    Prod.mk.injEq, and_true] at evaluated
  obtain ⟨⟨root, isRoot, -, noParent⟩, ⟨older, isOlder, olderPath, olderParent⟩,
    ⟨younger, isYounger, youngerPath, -⟩⟩ := evaluated
  have foremost : tree.Foremost 1 := by
    have isParent := (ModuleTree.parent?_of_header? (ModuleTree.header?_of_get? isOlder)).trans
      olderParent
    refine (ModuleTree.Shaped.foremost_iff isParent).2 ⟨shaped.foremost_root, ?_⟩
    -- Only the root is older than the first module, and it has no parent.
    rintro earlier ⟨less, first, second, foundFirst, foundSecond, sameParent, -⟩
    obtain rfl : earlier = 0 := Nat.lt_one_iff.1 less
    obtain rfl := Option.some.inj (isRoot.symm.trans foundFirst)
    obtain rfl := Option.some.inj (isOlder.symm.trans foundSecond)
    rw [noParent, olderParent] at sameParent
    cases sameParent
  have finds := paths_lead_to_foremost_modules.1 extraction {} [.prepare ⟨0⟩, .prepare ⟨1⟩]
  refine ⟨foremost, older, younger, isOlder, isYounger, olderPath, youngerPath, ?_,
    by decide +kernel, by decide +kernel⟩
  rw [← olderPath]
  exact finds.foremost isOlder foremost

end ApiDocs
