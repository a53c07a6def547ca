import ApiDocs.Path.Normal
import ApiDocs.Program.Symbol
import ApiDocs.Tree.Module

/-!
# Module trees

The modules of the documentation form a tree: the root stands for the project, directories below
the base directory and namespaces are its other modules.  A directory and a namespace with one
name and one parent are two modules.

## Main definitions

* `ModuleTree.get?` — the module with a number.
* `ModuleTree.directory?`, `ModuleTree.namespace?` — a child by name.
* `ModuleTree.moduleForFile` — the module of a file, with the directories on the way to it.
* `ModuleTree.enterNamespace` — a namespace of a module, created on first use.
* `ModuleTree.find?` — the module that a list of names leads to.

## Design notes

**What was once answered stays.**  A file keeps the module it was first given, and a namespace the
repository it was created with.
-/

namespace ApiDocs

/-- A tree of modules, with what its look-ups have answered so far. -/
structure ModuleTree where
  modules : Array DocModule
  fileModules : Table FileId ModuleId := {}
  directories : Table (ModuleId × String) ModuleId := {}
  namespaces : Table (ModuleId × String) ModuleId := {}

namespace ModuleTree

/-- The number of the root. -/
def rootId : ModuleId := 0

/-- The tree with a root only. -/
def ofRoot (name : String) (repository : Option String) : ModuleTree where
  modules := #[{ name, repository }]

/-- The module with a number. -/
def get? (tree : ModuleTree) (id : ModuleId) : Option DocModule :=
  tree.modules[id]?

/-- The number of modules. -/
def size (tree : ModuleTree) : Nat :=
  tree.modules.size

/-- Changes the module with a number. -/
def modify (tree : ModuleTree) (id : ModuleId) (change : DocModule → DocModule) : ModuleTree :=
  { tree with modules := tree.modules.modify id change }

/-- The directory child of a module with a name. -/
def directory? (tree : ModuleTree) (parent : ModuleId) (name : String) : Option ModuleId :=
  tree.directories.find? (parent, name)

/-- The namespace child of a module with a name. -/
def namespace? (tree : ModuleTree) (parent : ModuleId) (name : String) : Option ModuleId :=
  tree.namespaces.find? (parent, name)

/-- Adds a child at the end of a module; answers its number.  A parent that is not in the tree
gets no child and is itself the answer. -/
def addChild (tree : ModuleTree) (parent : ModuleId) (name : String) (repository : Option String)
    (isNamespace : Bool) : ModuleId × ModuleTree :=
  match tree.get? parent with
  | none => (parent, tree)
  | some above =>
    let id := tree.size
    let child : DocModule :=
      { name, path := above.path ++ [name], repository, isNamespace, parent := some parent }
    (id,
      { tree with
        modules := (tree.modules.push child).modify parent fun module =>
          { module with children := module.children ++ [id] } })

/-- The repository of a directory below a module. -/
def directoryRepository (tree : ModuleTree) (parent : ModuleId) (name : String) : Option String :=
  ((tree.get? parent).bind (·.repository)).map (· ++ "/" ++ name)

/-- The directory of a module with a name, created on first use. -/
def enterDirectory (tree : ModuleTree) (parent : ModuleId) (name : String) :
    ModuleId × ModuleTree :=
  match tree.directory? parent name with
  | some id => (id, tree)
  | none =>
    let (id, tree) := tree.addChild parent name (tree.directoryRepository parent name) false
    (id, { tree with directories := tree.directories.insert (parent, name) id })

/-- The directory that a list of names leads to from a module. -/
def enterDirectories (tree : ModuleTree) (start : ModuleId) : List String → ModuleId × ModuleTree
  | [] => (start, tree)
  | name :: names =>
    let (id, tree) := tree.enterDirectory start name
    tree.enterDirectories id names

/-- The module of a file: the directory it lies in below `base`, and the root for a file outside.
-/
def moduleForFile (tree : ModuleTree) (file : FileId) (path base : String) :
    ModuleId × ModuleTree :=
  match tree.fileModules.find? file with
  | some id => (id, tree)
  | none =>
    let (id, tree) := tree.enterDirectories rootId ((Path.segments? base path).getD [])
    (id, { tree with fileModules := tree.fileModules.insert file id })

/-- The namespace of a module with a name, created on first use with the given repository. -/
def enterNamespace (tree : ModuleTree) (parent : ModuleId) (name : String)
    (repository : Option String) : ModuleId × ModuleTree :=
  match tree.namespace? parent name with
  | some id => (id, tree)
  | none =>
    let (id, tree) := tree.addChild parent name repository true
    (id, { tree with namespaces := tree.namespaces.insert (parent, name) id })

/-- The first child of a module with a name. -/
def child? (tree : ModuleTree) (module : DocModule) (name : String) : Option DocModule :=
  (module.children.filterMap tree.get?).find? (·.name = name)

/-- The module that a list of names leads to from a module. -/
def findFrom? (tree : ModuleTree) (module : DocModule) : List String → Option DocModule
  | [] => some module
  | name :: names => (tree.child? module name).bind (tree.findFrom? · names)

/-- The module that a list of names leads to from the root. -/
def find? (tree : ModuleTree) (path : List String) : Option DocModule :=
  (tree.get? rootId).bind (tree.findFrom? · path)

end ModuleTree

end ApiDocs
