import ApiDocs.Proofs.Tree.Shape
import Mathlib.Data.List.Nodup

/-!
# Trees that calls build

A module tree is built by two kinds of calls: for the module of a file, and for a namespace of a
module that is already there.  Whatever the calls are and however they alternate, the tree stays a
tree, its look-ups are exactly its children, and every call is answered for good.

## Main definitions

* `ModuleTree.Layout` — where the files of a project lie.
* `ModuleTree.Request`, `ModuleTree.answer` — a call, and its answer with the tree after it.
* `ModuleTree.History` — the calls made on a new tree, with their answers.
* `ModuleTree.Represents` — everything that holds of a tree with a history.

## Main statements

* `history_represents` — every tree with a history represents it.

## Design notes

**Links are part of the history.**  The link of a directory follows from its path.  The link of a
namespace is the one that the first call for it gave, so it can only be read off the list of calls;
`Arranged` takes it as a function and leaves the list to `history_arranged`.
-/

namespace ApiDocs

/-- The link to a directory: the names of its path follow the link to the root, each after a slash.
-/
def linkBelow (repository : Option String) (path : List String) : Option String :=
  repository.map fun link => path.foldl (fun link name => link ++ "/" ++ name) link

theorem linkBelow_concat (repository : Option String) (path : List String) (name : String) :
    linkBelow repository (path ++ [name]) =
      (linkBelow repository path).map (· ++ "/" ++ name) := by
  cases repository with
  | none => rfl
  | some link => simp [linkBelow]

namespace ModuleTree

/-! ## Calls -/

/-- Where the files of a project lie: the base directory, and the path of each file. -/
structure Layout where
  base : String
  pathOf : FileId → String

/-- The directories that lead to the module of a file; none for a file outside the base. -/
def Layout.directoriesOf (layout : Layout) (file : FileId) : List String :=
  (Path.segments? layout.base (layout.pathOf file)).getD []

/-- A call on a tree. -/
inductive Request where
  /-- For the module of a file. -/
  | file (file : FileId)
  /-- For a namespace of a module; the repository counts if the namespace is created. -/
  | enter (parent : ModuleId) (name : String) (repository : Option String)

/-- The answer of a call, and the tree after it. -/
def answer (tree : ModuleTree) (layout : Layout) : Request → ModuleId × ModuleTree
  | .file file => tree.moduleForFile file (layout.pathOf file) layout.base
  | .enter parent name repository => tree.enterNamespace parent name repository

/-- A namespace can be entered below a module that is there. -/
def Allows (tree : ModuleTree) : Request → Prop
  | .file _ => True
  | .enter parent _ _ => parent < tree.size

/-- The calls made on a new tree so far, with their answers, and the tree that they left behind. -/
inductive History (layout : Layout) (name : String) (repository : Option String) :
    List (Request × ModuleId) → ModuleTree → Prop
  | start : History layout name repository [] (ofRoot name repository)
  | call {log : List (Request × ModuleId)} {tree : ModuleTree}
      (before : History layout name repository log tree) (request : Request)
      (allowed : tree.Allows request) :
      History layout name repository (log ++ [(request, (tree.answer layout request).1)])
        (tree.answer layout request).2

/-- The repository that a call gives to a namespace of a module, if it is a call for it. -/
def given? (parent : ModuleId) (name : String) : Request × ModuleId → Option (Option String)
  | (.enter other otherName repository, _) =>
    if other = parent ∧ otherName = name then some repository else none
  | (.file _, _) => none

/-- A module lies above another one, at any distance. -/
def Ancestor (tree : ModuleTree) : ModuleId → ModuleId → Prop :=
  Relation.TransGen fun parent id => tree.parent? id = some parent

/-- A tree represents the calls that were made on it. -/
structure Represents (tree : ModuleTree) (layout : Layout) (name : String)
    (repository : Option String) (log : List (Request × ModuleId)) : Prop where
  /-- Number zero is the root. -/
  root : ∃ module, tree.get? rootId = some module ∧ module.name = name ∧ module.path = [] ∧
    module.repository = repository ∧ module.isNamespace = false ∧ module.parent = none
  /-- Every other module has an older parent, which lists it once and whose path it continues. -/
  parent : ∀ {id module}, tree.get? id = some module → id ≠ rootId →
    ∃ parent above, module.parent = some parent ∧ parent < id ∧ tree.get? parent = some above ∧
      above.children.count id = 1 ∧ module.path = above.path ++ [module.name]
  /-- No other module lists it, and nothing else is listed. -/
  listed : ∀ {id module child}, tree.get? id = some module → child ∈ module.children →
    ∃ below, tree.get? child = some below ∧ below.parent = some id
  /-- Children stand in the order of their creation. -/
  order : ∀ {id module}, tree.get? id = some module → module.children.Pairwise (· < ·)
  /-- No two modules share parent, name and kind. -/
  distinct : ∀ {id other module otherModule}, tree.get? id = some module →
    tree.get? other = some otherModule → module.parent = otherModule.parent →
    module.name = otherModule.name → module.isNamespace = otherModule.isNamespace → id = other
  /-- Look-up of a directory answers the directory child with the name. -/
  directory : ∀ {parent name id}, tree.directory? parent name = some id ↔
    ∃ module, tree.get? id = some module ∧ module.parent = some parent ∧ module.name = name ∧
      module.isNamespace = false
  /-- Look-up of a namespace answers the namespace child with the name. -/
  namespaced : ∀ {parent name id}, tree.namespace? parent name = some id ↔
    ∃ module, tree.get? id = some module ∧ module.parent = some parent ∧ module.name = name ∧
      module.isNamespace = true
  /-- Only directories lie above a directory. -/
  ancestors : ∀ {id ancestor module above}, tree.get? id = some module →
    module.isNamespace = false → tree.Ancestor ancestor id → tree.get? ancestor = some above →
    above.isNamespace = false
  /-- The link of a directory follows from its path. -/
  directoryLink : ∀ {id module}, tree.get? id = some module → module.isNamespace = false →
    module.repository = linkBelow repository module.path
  /-- The link of a namespace is the one that the first call for it gave. -/
  namespaceLink : ∀ {id module parent}, tree.get? id = some module → module.isNamespace = true →
    module.parent = some parent →
    log.findSome? (given? parent module.name) = some module.repository
  /-- The module of a file is the directory it lies in. -/
  file : ∀ {file id}, (.file file, id) ∈ log → ∃ module, tree.get? id = some module ∧
    module.isNamespace = false ∧ module.path = layout.directoriesOf file
  /-- Two files have the same module exactly if they lie in the same directory. -/
  files : ∀ {file id other otherId}, (.file file, id) ∈ log → (.file other, otherId) ∈ log →
    (id = otherId ↔ layout.directoriesOf file = layout.directoriesOf other)
  /-- A repeated call has the same answer and leaves the tree as it is. -/
  repeated : ∀ {request id}, (request, id) ∈ log → tree.answer layout request = (id, tree)
  /-- A namespace is entered again whatever repository is given. -/
  reentered : ∀ {parent name given id}, (.enter parent name given, id) ∈ log →
    ∀ other, tree.answer layout (.enter parent name other) = (id, tree)

/-! ## Links -/

/-- A tree is shaped, and its links are in order: those of directories follow from their paths, and
those of namespaces were given. -/
structure Arranged (tree : ModuleTree) (name : String) (repository : Option String)
    (given : ModuleId → String → Option (Option String)) : Prop where
  shaped : tree.Shaped
  root : tree.header? rootId =
    some { name, path := [], repository, isNamespace := false, parent := none }
  directory : ∀ {id header}, tree.header? id = some header → header.isNamespace = false →
    header.repository = linkBelow repository header.path
  namespaced : ∀ {id header parent}, tree.header? id = some header → header.isNamespace = true →
    header.parent = some parent → given parent header.name = some header.repository

section

variable {tree grown : ModuleTree} {name : String} {repository link : Option String}
variable {given : ModuleId → String → Option (Option String)} {parent id : ModuleId} {step : Step}

/-- Entering a child keeps the links in order if its own link is. -/
theorem Entered.arranged (entered : Entered tree parent step link id grown)
    (before : tree.Arranged name repository given) {above : Header}
    (there : tree.header? parent = some above)
    (directory : step.isNamespace = false → above.isNamespace = false ∧
      link = above.repository.map (· ++ "/" ++ step.name))
    (namespaced : step.isNamespace = true → tree.step? parent step = none →
      given parent step.name = some link) :
    grown.Arranged name repository given := by
  rcases entered.found_or_added with ⟨-, rfl⟩ | ⟨-, aboveAgain, added⟩
  · exact before
  · obtain rfl := Option.some.inj (there.symm.trans added.parentThere)
    have rootInside := lt_size_of_header? before.root
    refine ⟨added.shaped before.shaped fun kind => (directory kind).1, ?_, ?_, ?_⟩
    · rw [added.header, if_neg (Nat.ne_of_lt rootInside), before.root]
    · intro other header found kind
      rw [added.header] at found
      split at found
      · cases found
        obtain ⟨aboveKind, ownLink⟩ := directory kind
        show link = linkBelow repository (above.path ++ [step.name])
        rw [linkBelow_concat, ← before.directory there aboveKind, ownLink]
      · exact before.directory found kind
    · intro other header otherParent found kind isParent
      rw [added.header] at found
      split at found
      · cases found
        cases isParent
        exact namespaced kind added.absent
      · exact before.namespaced found kind isParent

theorem directoryRepository_eq {above : Header} (there : tree.header? parent = some above)
    (child : String) :
    tree.directoryRepository parent child = above.repository.map (· ++ "/" ++ child) := by
  obtain ⟨module, found, rfl⟩ := Option.map_eq_some_iff.1 there
  rw [directoryRepository, found, Option.bind_some]
  rfl

/-- Entering directories from a directory keeps the links in order. -/
theorem enterDirectories_arranged (names : List String) :
    ∀ {tree : ModuleTree} {start : ModuleId} {above : Header},
      tree.Arranged name repository given → tree.header? start = some above →
      above.isNamespace = false →
      (tree.enterDirectories start names).2.Arranged name repository given := by
  induction names with
  | nil => intro tree start above arranged there kind; exact arranged
  | cons first rest ih =>
      intro tree start above arranged there kind
      obtain ⟨module, found, -⟩ := Option.map_eq_some_iff.1 there
      have entered := enterDirectory_entered found first
      have next := entered.arranged arranged there
        (fun _ => ⟨kind, directoryRepository_eq there first⟩)
        (fun isNamespace => by cases isNamespace)
      -- The step leads to a directory, from which the rest goes on.
      obtain ⟨header, foundNext, -, isStep⟩ := next.shaped.step.1 entered.step_eq
      exact ih next foundNext (congrArg Step.isNamespace isStep)

end

/-! ## Answers -/

/-- A tree has kept the answer of a call. -/
def Recalls (tree : ModuleTree) (id : ModuleId) : Request → Prop
  | .file file => tree.fileModules.find? file = some id
  | .enter parent name _ => tree.namespace? parent name = some id

theorem Recalls.later {tree later : ModuleTree} (growth : tree.Extends later) {id : ModuleId}
    {request : Request} (recalls : tree.Recalls id request) : later.Recalls id request := by
  cases request with
  | file file => exact growth.file recalls
  | enter parent name repository =>
      have there : tree.step? parent ⟨name, true⟩ = some id := recalls
      exact growth.step there

/-- A call whose answer was kept changes nothing. -/
theorem Recalls.answer {tree : ModuleTree} {layout : Layout} {id : ModuleId} {request : Request}
    (recalls : tree.Recalls id request) : tree.answer layout request = (id, tree) := by
  cases request with
  | file file =>
      have cached : tree.fileModules.find? file = some id := recalls
      simp only [ModuleTree.answer, moduleForFile, cached]
  | enter parent name repository =>
      have there : tree.namespace? parent name = some id := recalls
      simp only [ModuleTree.answer, enterNamespace, there]

/-- The modules of files are the directories they lie in, and all answers are kept. -/
structure Recorded (tree : ModuleTree) (layout : Layout) (log : List (Request × ModuleId)) :
    Prop where
  file : ∀ {file id}, tree.fileModules.find? file = some id →
    tree.follow? rootId (route (layout.directoriesOf file) []) = some id
  answered : ∀ {request id}, (request, id) ∈ log → tree.Recalls id request

section

variable {layout : Layout} {name : String} {repository : Option String}
variable {log : List (Request × ModuleId)} {tree : ModuleTree}

/-- The link that the first call for a namespace gave. -/
def firstGiven (log : List (Request × ModuleId)) (parent : ModuleId) (name : String) :
    Option (Option String) :=
  log.findSome? (given? parent name)

/-- More calls change no link that was given. -/
theorem Arranged.later {more : List (Request × ModuleId)}
    (arranged : tree.Arranged name repository (firstGiven log)) :
    tree.Arranged name repository (firstGiven (log ++ more)) where
  shaped := arranged.shaped
  root := arranged.root
  directory := arranged.directory
  namespaced found kind isParent := by
    have before := arranged.namespaced found kind isParent
    rw [firstGiven] at before ⊢
    rw [List.findSome?_append, before, Option.some_or]

theorem Arranged.withFiles (arranged : tree.Arranged name repository (firstGiven log))
    (fileModules : Table FileId ModuleId) :
    { tree with fileModules }.Arranged name repository (firstGiven log) :=
  ⟨arranged.shaped.withFiles fileModules, arranged.root, arranged.directory, arranged.namespaced⟩

/-- A namespace that is not there was not called for. -/
theorem Recorded.firstGiven_eq_none (recorded : tree.Recorded layout log) {parent : ModuleId}
    {child : String} (absent : tree.namespace? parent child = none) :
    firstGiven log parent child = none := by
  rw [firstGiven, List.findSome?_eq_none_iff]
  rintro ⟨request, id⟩ member
  have recalls := recorded.answered member
  cases request with
  | file file => rfl
  | enter other otherName given =>
      rw [given?, if_neg]
      rintro ⟨rfl, rfl⟩
      rw [Recalls, absent] at recalls
      cases recalls

/-- A tree that only grew keeps its answers and takes one more. -/
theorem Recorded.later (recorded : tree.Recorded layout log) {grown : ModuleTree}
    (growth : tree.Extends grown) {request : Request} {id : ModuleId}
    (file : ∀ {file id}, grown.fileModules.find? file = some id →
      tree.fileModules.find? file = some id ∨
        grown.follow? rootId (route (layout.directoriesOf file) []) = some id)
    (recalls : grown.Recalls id request) : grown.Recorded layout (log ++ [(request, id)]) where
  file {other otherId} found := by
    rcases file found with before | now
    · exact growth.follow (recorded.file before)
    · exact now
  answered {other otherId} member := by
    rcases List.mem_append.1 member with before | now
    · exact (recorded.answered before).later growth
    · cases List.mem_singleton.1 now
      exact recalls

/-! ## One call -/

/-- Entering a namespace keeps the links in order and the answers. -/
theorem enter_keeps (arranged : tree.Arranged name repository (firstGiven log))
    (recorded : tree.Recorded layout log) {parent : ModuleId} (inside : parent < tree.size)
    (child : String) (given : Option String) :
    let next := tree.answer layout (.enter parent child given)
    let longer := log ++ [(.enter parent child given, next.1)]
    next.2.Arranged name repository (firstGiven longer) ∧ next.2.Recorded layout longer := by
  obtain ⟨above, there⟩ := exists_header_of_lt inside
  obtain ⟨module, found, -⟩ := Option.map_eq_some_iff.1 there
  have entered := enterNamespace_entered found child given
  constructor
  · refine entered.arranged arranged.later there (fun isDirectory => by cases isDirectory) ?_
    intro _ absent
    have first := recorded.firstGiven_eq_none absent
    rw [firstGiven] at first ⊢
    rw [List.findSome?_append, first, Option.none_or]
    simp [given?]
  · refine recorded.later entered.growth (fun cached => .inl ?_) entered.step_eq
    rwa [← entered.files]

/-- Finding the module of a file keeps the links in order and the answers. -/
theorem file_keeps (arranged : tree.Arranged name repository (firstGiven log))
    (recorded : tree.Recorded layout log) (file : FileId) :
    let next := tree.answer layout (.file file)
    let longer := log ++ [(.file file, next.1)]
    next.2.Arranged name repository (firstGiven longer) ∧ next.2.Recorded layout longer := by
  cases cached : tree.fileModules.find? file with
  | some id =>
      have kept : tree.Recalls id (.file file) := cached
      rw [kept.answer]
      exact ⟨arranged.later, recorded.later (.refl tree) .inl kept⟩
  | none =>
      obtain ⟨root, foundRoot, -⟩ := Option.map_eq_some_iff.1 arranged.root
      have arrived := enterDirectories_arrived (layout.directoriesOf file)
        arranged.shaped.wellFormed foundRoot
      have reached := enterDirectories_arranged (layout.directoriesOf file) arranged arranged.root
        rfl
      generalize place : tree.enterDirectories rootId (layout.directoriesOf file) = result
        at arrived reached
      obtain ⟨id, grown⟩ := result
      have answered : tree.answer layout (.file file) =
          (id, { grown with fileModules := grown.fileModules.insert file id }) := by
        rw [Layout.directoriesOf] at place
        simp only [answer, moduleForFile, cached, place]
      rw [answered]
      have growth :
          tree.Extends { grown with fileModules := grown.fileModules.insert file id } := by
        refine ⟨arrived.growth.module, arrived.growth.step, ?_⟩
        intro other otherId found
        rw [Table.find?_insert]
        by_cases same : other = file
        · rw [same, cached] at found
          cases found
        · rw [if_neg same]
          exact arrived.growth.file found
      refine ⟨reached.later.withFiles _, recorded.later growth ?_ ?_⟩
      · intro other otherId found
        rw [Table.find?_insert, arrived.files] at found
        split at found
        · rename_i same
          cases found
          exact .inr (same ▸ arrived.follow)
        · exact .inl found
      · show (grown.fileModules.insert file id).find? file = some id
        rw [Table.find?_insert, if_pos rfl]

/-- All calls of a history keep the links in order and the answers. -/
theorem history_arranged (history : History layout name repository log tree) :
    tree.Arranged name repository (firstGiven log) ∧ tree.Recorded layout log := by
  induction history with
  | start =>
      have onlyRoot : ∀ {id header}, (ofRoot name repository).header? id = some header →
          header = { name, path := [], repository, isNamespace := false, parent := none } := by
        intro id header found
        obtain rfl : id = 0 := Nat.lt_one_iff.1 (lt_size_of_header? found)
        exact (Option.some.inj found).symm
      refine ⟨⟨ofRoot_shaped name repository, rfl, ?_, ?_⟩, ⟨?_, ?_⟩⟩
      · intro id header found _
        rw [onlyRoot found]
        cases repository <;> rfl
      · intro id header parent found kind _
        rw [onlyRoot found] at kind
        cases kind
      · intro file id found
        cases found
      · intro request id member
        cases member
  | call before request allowed ih =>
      cases request with
      | file file => exact file_keeps ih.1 ih.2 file
      | enter parent child given => exact enter_keeps ih.1 ih.2 allowed child given

/-! ## What a tree with a history is -/

/-- The child that a look-up answers. -/
theorem Shaped.step?_eq_some_iff (shaped : tree.Shaped) {parent id : ModuleId} {step : Step} :
    tree.step? parent step = some id ↔ ∃ module, tree.get? id = some module ∧
      module.parent = some parent ∧ module.name = step.name ∧
      module.isNamespace = step.isNamespace := by
  rw [shaped.step]
  constructor
  · rintro ⟨header, found, isParent, rfl⟩
    obtain ⟨module, isModule, rfl⟩ := Option.map_eq_some_iff.1 found
    exact ⟨module, isModule, isParent, rfl, rfl⟩
  · rintro ⟨module, isModule, isParent, isName, isKind⟩
    exact ⟨module.header, header?_of_get? isModule, isParent, congrArg₂ Step.mk isName isKind⟩

/-- Above a directory there are directories only. -/
theorem Shaped.directory_of_ancestor (shaped : tree.Shaped) {ancestor id : ModuleId}
    (above : tree.Ancestor ancestor id) :
    ∀ {header : Header}, tree.header? id = some header → header.isNamespace = false →
      ∃ aboveHeader, tree.header? ancestor = some aboveHeader ∧
        aboveHeader.isNamespace = false := by
  have oneUp : ∀ {parent id : ModuleId} {header : Header}, tree.parent? id = some parent →
      tree.header? id = some header → header.isNamespace = false →
      ∃ above, tree.header? parent = some above ∧ above.isNamespace = false := by
    intro parent id header isParent found isDirectory
    rw [parent?_of_header? found] at isParent
    obtain ⟨above, -, foundAbove, -, kind⟩ := shaped.above found isParent
    exact ⟨above, foundAbove, kind isDirectory⟩
  induction above with
  | single isParent => exact oneUp isParent
  | tail _ isParent ih =>
      intro header found isDirectory
      obtain ⟨above, foundAbove, aboveKind⟩ := oneUp isParent found isDirectory
      exact ih foundAbove aboveKind

/-- The module of a file is the directory that its directories lead to. -/
theorem Recorded.exists_directory (recorded : tree.Recorded layout log) (shaped : tree.Shaped)
    {file : FileId} {id : ModuleId} (answered : (.file file, id) ∈ log) :
    ∃ module, tree.get? id = some module ∧ module.isNamespace = false ∧
      module.path = layout.directoriesOf file := by
  have follow := recorded.file (recorded.answered answered)
  obtain ⟨module, found⟩ := shaped.get?_of_follow? follow
  obtain ⟨root, foundRoot, rootPath⟩ := shaped.wellFormed.root
  obtain ⟨_, foundAgain, path⟩ := shaped.wellFormed.follow foundRoot follow
  obtain rfl := Option.some.inj (found.symm.trans foundAgain)
  have kind := shaped.isNamespace_eq found follow
  refine ⟨module, found, ?_, by rw [path, rootPath, map_name_route]; simp⟩
  -- The last step goes to a directory, and so does the empty way.
  cases last : (layout.directoriesOf file).getLast? <;> simpa [route, last] using kind

/-- **A module tree represents the calls made on it.**  After any calls for the modules of files and
for namespaces below modules that are there, the root is number zero, every other module has one
older parent that lists it once, children stand in the order of creation, look-ups answer exactly
the children of a name and a kind, only directories lie above directories, links are as they should
be, files share a module exactly if they share a directory, and no call that is repeated changes
anything. -/
theorem history_represents (history : History layout name repository log tree) :
    tree.Represents layout name repository log := by
  obtain ⟨arranged, recorded⟩ := history_arranged history
  have shaped := arranged.shaped
  refine ⟨?_, ?_, ?_, ?_, ?_, ?_, ?_, ?_, ?_, ?_, ?_, ?_, ?_, ?_⟩
  · obtain ⟨module, found, header⟩ := Option.map_eq_some_iff.1 arranged.root
    exact ⟨module, found, congrArg Header.name header, congrArg Header.path header,
      congrArg Header.repository header, congrArg Header.isNamespace header,
      congrArg Header.parent header⟩
  · intro id module found noRoot
    obtain ⟨parent, header, isParent, older, foundHeader, path, -⟩ :=
      shaped.parent (header?_of_get? found) noRoot
    obtain ⟨above, foundAbove, rfl⟩ := Option.map_eq_some_iff.1 foundHeader
    have listed := shaped.mem_childrenOf.2
      ((parent?_of_header? (header?_of_get? found)).trans isParent)
    have once := List.count_eq_one_of_mem ((shaped.pairwise_childrenOf parent).imp Nat.ne_of_lt)
      listed
    rw [childrenOf_of_get? foundAbove] at once
    exact ⟨parent, above, isParent, older, foundAbove, once, path⟩
  · intro id module child found listed
    obtain ⟨below, foundBelow, isParent, -⟩ := shaped.child found listed
    exact ⟨below, foundBelow, isParent⟩
  · intro id module found
    rw [← childrenOf_of_get? found]
    exact shaped.pairwise_childrenOf id
  · intro id other module otherModule found foundOther isParent isName isKind
    exact shaped.unique (header?_of_get? found) (header?_of_get? foundOther) isParent
      (congrArg₂ Step.mk isName isKind)
  · intro parent child id
    show tree.step? parent ⟨child, false⟩ = some id ↔ _
    exact shaped.step?_eq_some_iff
  · intro parent child id
    show tree.step? parent ⟨child, true⟩ = some id ↔ _
    exact shaped.step?_eq_some_iff
  · intro id ancestor module above found isDirectory isAncestor foundAbove
    obtain ⟨header, foundHeader, kind⟩ :=
      shaped.directory_of_ancestor isAncestor (header?_of_get? found) isDirectory
    obtain rfl := Option.some.inj ((header?_of_get? foundAbove).symm.trans foundHeader)
    exact kind
  · intro id module found isDirectory
    exact arranged.directory (header?_of_get? found) isDirectory
  · intro id module parent found isNamespace isParent
    exact arranged.namespaced (header?_of_get? found) isNamespace isParent
  · intro file id answered
    exact recorded.exists_directory shaped answered
  · intro file id other otherId answered otherAnswered
    have follow := recorded.file (recorded.answered answered)
    have otherFollow := recorded.file (recorded.answered otherAnswered)
    constructor
    · rintro rfl
      have sameWay := congrArg (List.map Step.name) (shaped.follow_injective follow otherFollow)
      rwa [map_name_route, map_name_route, List.append_nil, List.append_nil] at sameWay
    · intro sameDirectories
      rw [sameDirectories] at follow
      exact Option.some.inj (follow.symm.trans otherFollow)
  · intro request id answered
    exact (recorded.answered answered).answer
  · intro parent child given id answered other
    have kept : tree.namespace? parent child = some id := recorded.answered answered
    have sameCall : tree.Recalls id (.enter parent child other) := kept
    exact sameCall.answer

end

/-- Three files: two of them lie in the directory `plane`, one lies outside the base. -/
def planeLayout : Layout where
  base := "/project"
  pathOf file :=
    if file = ⟨0⟩ then "/project/plane/point.ts"
    else if file = ⟨1⟩ then "/project/./plane/line.ts" else "/elsewhere/line.ts"

/-- A directory and two nested namespaces that all have the same name: the calls for them and for
three files are answered by the modules one to three, the directory is shared by two files, and the
file outside gets the root. -/
theorem history_represents_plane :
    ∃ log tree, History planeLayout "index" (some "link") log tree ∧
      log.map (·.2) = [1, 2, 3, 1, 0, 2] ∧ tree.size = 4 ∧
      tree.Represents planeLayout "index" (some "link") log := by
  have noCalls : History planeLayout "index" (some "link") [] (ofRoot "index" (some "link")) :=
    .start
  have history := noCalls
    |>.call (.file ⟨0⟩) trivial
    |>.call (.enter 0 "plane" (some "first")) (show 0 < _ by decide +kernel)
    |>.call (.enter 2 "plane" none) (show 2 < _ by decide +kernel)
    |>.call (.file ⟨1⟩) trivial
    |>.call (.file ⟨2⟩) trivial
    |>.call (.enter 0 "plane" (some "second")) (show 0 < _ by decide +kernel)
  exact ⟨_, _, history, by decide +kernel, by decide +kernel, history_represents history⟩

end ModuleTree

end ApiDocs
