import ApiDocs.Collect.Contribution
import ApiDocs.Collect.Entry
import ApiDocs.Collect.Skeleton
import ApiDocs.Json.Printer
import ApiDocs.Settings.Basic
import ApiDocs.Tree.View

/-!
# Extraction

The documentation of a program is extracted in two passes over its files.  The first pass creates
the skeletons of all named types, the second resolves types and fills the skeletons in.  Every file
is prepared before any file is visited.

## Main definitions

* `Extraction` — a program with its settings and an index.
* `Extraction.prepareFile`, `Extraction.visitFile` — one pass over one file.
* `Extraction.run` — both passes over a list of files.
* `extract` — the documentation of all files of a program.
* `Documentation` — the result, with `Documentation.encode` and `Documentation.toText`.

## Design notes

**A pass that fails keeps what it did.**  The tree reached by a pass is answered beside its error:
a visit that meets a statement without a skeleton stops there, and the statements before it have
taken effect.
-/

namespace ApiDocs

/-- Why an extraction fails. -/
inductive ExtractError where
  /-- The second pass met a statement whose record the first pass did not create. -/
  | missing (kind : RecordKind) (name : String) (module : String)
  /-- The program has no file with this number. -/
  | unknownFile (file : FileId)
deriving DecidableEq

/-- The text of an error. -/
def ExtractError.message : ExtractError → String
  | missing kind name module =>
    "no " ++ kind.word ++ " named `" ++ name ++ "` was prepared in module `" ++ module ++ "`"
  | unknownFile file =>
    "unknown source file FileId(" ++ String.ofList (Nat.toDigits 10 file.toNat) ++ ")"

/-- The tree that a pass reached, and the error that stopped it. -/
structure Pass where
  tree : ModuleTree
  error : Option ExtractError := none

namespace ModuleTree

/-- The repository of a namespace that is met in a file below a module: a directory's repository
leads to the file, a namespace's repository is shared. -/
def namespaceRepository (tree : ModuleTree) (parent : ModuleId) (fileName : String) :
    Option String :=
  match tree.get? parent with
  | some module =>
    if module.isNamespace then module.repository else fileLink module.repository fileName
  | none => none

/-- The namespace that a list of names leads to from a module, for a file with the given name. -/
def enterNamespaces (tree : ModuleTree) (fileName : String) (start : ModuleId) :
    List String → ModuleId × ModuleTree
  | [] => (start, tree)
  | name :: names =>
    let repository := tree.namespaceRepository start fileName
    let (id, tree) := tree.enterNamespace start name repository
    tree.enterNamespaces fileName id names

end ModuleTree

/-- The result of an extraction. -/
structure Documentation where
  readme : Option String
  repository : Option String
  homepage : Option String
  version : Option String
  tree : ModuleTree

namespace Documentation

/-- The view of the root module. -/
def root? (documentation : Documentation) : Option ModuleView :=
  documentation.tree.view? ModuleTree.rootId

/-- The number of declarations in all modules. -/
def declarationCount (documentation : Documentation) : Nat :=
  (documentation.root?.map (·.declarationCount)).getD 0

/-- The document of a documentation. -/
def encode (documentation : Documentation) : Json :=
  .object [("readme", .ofText? documentation.readme),
    ("repository", .ofText? documentation.repository),
    ("homepage", .ofText? documentation.homepage), ("version", .ofText? documentation.version),
    ("module", .ofOption ModuleView.encode documentation.root?)]

/-- The document of a documentation, as text. -/
def toText (documentation : Documentation) (pretty : Bool) : String :=
  if pretty then documentation.encode.pretty else documentation.encode.compact

end Documentation

/-- A program with its settings and the index to consult. -/
structure Extraction (m : Type → Type) where
  program : Program
  settings : Settings
  index : ReferenceIndex m
  /-- How far walks through a file may go.  An acyclic file ends them earlier. -/
  depth : SourceFile → Nat := fun source => source.arena.depthBound

namespace Extraction

variable {m : Type → Type} [Monad m]

omit [Monad m] in
/-- The resolver of an extraction. -/
def resolver (extraction : Extraction m) : Resolver m where
  program := extraction.program
  index := extraction.index
  depth := extraction.depth

omit [Monad m] in
/-- The walk of an extraction through a file. -/
def entries (extraction : Extraction m) (source : SourceFile) : List Entry :=
  source.entriesTo (extraction.depth source)

omit [Monad m] in
/-- The tree before any file was prepared. -/
def start (extraction : Extraction m) : ModuleTree :=
  .ofRoot extraction.settings.name extraction.settings.repository

/-- The first pass over one entry of a file whose statements are filed in module `base`. -/
def prepareEntry (extraction : Extraction m) (file : FileId) (source : SourceFile)
    (base : ModuleId) (tree : ModuleTree) (entry : Entry) : m ModuleTree :=
  let (id, tree) := tree.enterNamespaces source.baseName base entry.namespaces
  match entry.statement, tree.get? id with
  | some index, some module => do
    let skeleton ← extraction.resolver.skeleton? (.ofModule file source module) index
    match skeleton with
    | some skeleton => pure (tree.modify id fun module => skeleton.file module)
    | none => pure tree
  | _, _ => pure tree

/-- The first pass over a list of entries. -/
def prepareEntries (extraction : Extraction m) (file : FileId) (source : SourceFile)
    (base : ModuleId) (tree : ModuleTree) : List Entry → m ModuleTree
  | [] => pure tree
  | entry :: entries => do
    let tree ← extraction.prepareEntry file source base tree entry
    extraction.prepareEntries file source base tree entries

/-- The error of visiting a statement in a module that lacks its record. -/
def missing? (source : SourceFile) (module : DocModule) (index : NodeIndex) :
    Option ExtractError :=
  match source.expected? index with
  | some (kind, name) =>
    if module.hasRecord name kind then none else some (.missing kind name module.label)
  | none => none

/-- The second pass over one entry of a file whose statements are filed in module `base`. -/
def visitEntry (extraction : Extraction m) (file : FileId) (source : SourceFile)
    (base : ModuleId) (tree : ModuleTree) (entry : Entry) : m Pass :=
  let (id, tree) := tree.enterNamespaces source.baseName base entry.namespaces
  match entry.statement, tree.get? id with
  | some index, some module =>
    match missing? source module index with
    | some error => pure { tree, error := some error }
    | none => do
      let contribution ← extraction.resolver.contribution? (.ofModule file source module) index
      match contribution with
      | some contribution =>
        pure { tree := tree.modify id fun module => contribution.apply module }
      | none => pure { tree }
  | _, _ => pure { tree }

/-- The second pass over a list of entries, up to the first error. -/
def visitEntries (extraction : Extraction m) (file : FileId) (source : SourceFile)
    (base : ModuleId) (tree : ModuleTree) : List Entry → m Pass
  | [] => pure { tree }
  | entry :: entries => do
    let pass ← extraction.visitEntry file source base tree entry
    match pass.error with
    | some _ => pure pass
    | none => extraction.visitEntries file source base pass.tree entries

omit [Monad m] in
/-- The module of a file. -/
def enterFile (extraction : Extraction m) (tree : ModuleTree) (file : FileId)
    (source : SourceFile) : ModuleId × ModuleTree :=
  tree.moduleForFile file source.path extraction.settings.baseDirectory

/-- The first pass over one file. -/
def prepareFile (extraction : Extraction m) (tree : ModuleTree) (file : FileId) : m Pass :=
  match extraction.program.file? file with
  | none => pure { tree, error := some (.unknownFile file) }
  | some source => do
    let (base, tree) := extraction.enterFile tree file source
    let tree ← extraction.prepareEntries file source base tree (extraction.entries source)
    pure { tree }

/-- The second pass over one file. -/
def visitFile (extraction : Extraction m) (tree : ModuleTree) (file : FileId) : m Pass :=
  match extraction.program.file? file with
  | none => pure { tree, error := some (.unknownFile file) }
  | some source =>
    let (base, tree) := extraction.enterFile tree file source
    extraction.visitEntries file source base tree (extraction.entries source)

/-- One pass over a list of files, up to the first error. -/
def overFiles (pass : ModuleTree → FileId → m Pass) (tree : ModuleTree) : List FileId → m Pass
  | [] => pure { tree }
  | file :: files => do
    let reached ← pass tree file
    match reached.error with
    | some _ => pure reached
    | none => overFiles pass reached.tree files

omit [Monad m] in
/-- The documentation with a finished tree. -/
def finish (extraction : Extraction m) (tree : ModuleTree) : Documentation where
  readme := extraction.settings.readme
  repository := extraction.settings.repository
  homepage := extraction.settings.homepage
  version := extraction.settings.version
  tree

/-- Both passes over a list of files. -/
def run (extraction : Extraction m) (files : List FileId) :
    m (Except ExtractError Documentation) := do
  let prepared ← overFiles extraction.prepareFile extraction.start files
  match prepared.error with
  | some error => pure (.error error)
  | none =>
    let visited ← overFiles extraction.visitFile prepared.tree files
    match visited.error with
    | some error => pure (.error error)
    | none => pure (.ok (extraction.finish visited.tree))

/-- The extraction with an index that derives every answer. -/
def direct (program : Program) (settings : Settings) : Extraction Id where
  program
  settings
  index := .direct program settings.baseDirectory settings.builtins

/-- The extraction with an index that remembers its answers. -/
def remembering (program : Program) (settings : Settings) :
    Extraction (StateM ReferenceIndex.Memory) where
  program
  settings
  index := .remembering program settings.baseDirectory settings.builtins

end Extraction

/-- The documentation of a list of files. -/
def extractFiles (program : Program) (settings : Settings) (files : List FileId) :
    Except ExtractError Documentation :=
  ((Extraction.remembering program settings).run files {}).1

/-- The documentation of all files of a program. -/
def extract (program : Program) (settings : Settings) : Except ExtractError Documentation :=
  extractFiles program settings program.fileIds

end ApiDocs
