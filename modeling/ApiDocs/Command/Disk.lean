import ApiDocs.Path.Basic
import ApiDocs.Table

/-!
# Disks

What the command needs of the machine it runs on, as a record of operations, and the machine that
is a value: a `Volume` of directories and files, with the text printed so far.

## Main definitions

* `Command.Disk` — the operations, in any monad.
* `Command.Disk.guarded` — the operations on what has the form of a path.
* `Command.Volume` — directories and files in memory.
* `Command.Disk.inMemory` — the operations on a volume.

## Design notes

**Paths are walked, not normalized.**  Every part of a path is looked up in the directory reached
so far.  So `a/..` needs a directory `a`, and a path with a slash at its end needs a directory.

**Paths have a form.**  A path has fewer than `4096` bytes, none of which is zero, and nothing is
created under a name of more than `255` bytes.  A path of another form leads nowhere, on any disk.
-/

namespace ApiDocs.Command

/-- The operations that the command needs. -/
structure Disk (m : Type → Type) where
  /-- Whether anything is at a path. -/
  isPresent : String → m Bool
  isFile : String → m Bool
  isDirectory : String → m Bool
  /-- The text of a file, if it can be read. -/
  read : String → m (Option String)
  /-- Creates a directory and those above it; whether the directory is there now. -/
  createDirectories : String → m Bool
  /-- Writes a file in place of what it held; whether that succeeds. -/
  write : String → String → m Bool
  print : String → m Unit

/-- Whether a text has the form of a path. -/
def isPath (text : String) : Bool :=
  text.utf8ByteSize < 4096 && !text.toList.contains '\x00'

/-- The operations on a disk for paths; nothing is at a text of another form, and nothing can be put
there. -/
def Disk.guarded {m : Type → Type} [Monad m] (disk : Disk m) : Disk m where
  isPresent path := if isPath path then disk.isPresent path else pure false
  isFile path := if isPath path then disk.isFile path else pure false
  isDirectory path := if isPath path then disk.isDirectory path else pure false
  read path := if isPath path then disk.read path else pure none
  createDirectories path := if isPath path then disk.createDirectories path else pure false
  write path text := if isPath path then disk.write path text else pure false
  print := disk.print

/-- What a volume holds at a place. -/
inductive Item where
  | directory
  | file (text : String)

/-- A place in a volume: the names that lead there from the root. -/
abbrev Place := List String

/-- Whether something may be created under a name. -/
def isName (name : String) : Bool :=
  name.utf8ByteSize ≤ 255

/-- Directories and files in memory.  The root is always a directory. -/
structure Volume where
  items : Table Place Item := {}

namespace Volume

/-- What is at a place. -/
def item? (volume : Volume) (place : Place) : Option Item :=
  if place = [] then some .directory else volume.items.find? place

/-- Whether a directory is at a place. -/
def hasDirectory (volume : Volume) (place : Place) : Bool :=
  match volume.item? place with
  | some .directory => true
  | _ => false

/-- The place that one part of a path leads to from a directory. -/
def step? (volume : Volume) (place : Place) (piece : List Char) : Option Place :=
  if !volume.hasDirectory place then none
  else if piece = [] ∨ piece = ['.'] then some place
  else if piece = ['.', '.'] then some place.dropLast
  else
    let next := place ++ [String.ofList piece]
    if (volume.item? next).isSome then some next else none

/-- The place that a path leads to from the root. -/
def walk? (volume : Volume) (path : String) : Option Place :=
  (Path.pieces path).foldlM volume.step? []

/-- The shortest path to the place that a path leads to. -/
def shortest? (volume : Volume) (path : String) : Option String :=
  (volume.walk? path).map fun place => "/" ++ "/".intercalate place

/-- What a path leads to. -/
def find? (volume : Volume) (path : String) : Option Item :=
  (volume.walk? path).bind volume.item?

/-- Whether a path leads to anything. -/
def isPresent (volume : Volume) (path : String) : Bool :=
  (volume.find? path).isSome

/-- Whether a path leads to a file. -/
def isFile (volume : Volume) (path : String) : Bool :=
  match volume.find? path with
  | some (.file _) => true
  | _ => false

/-- Whether a path leads to a directory. -/
def isDirectory (volume : Volume) (path : String) : Bool :=
  match volume.find? path with
  | some .directory => true
  | _ => false

/-- The text of the file that a path leads to. -/
def read (volume : Volume) (path : String) : Option String :=
  match volume.find? path with
  | some (.file text) => some text
  | _ => none

/-- Walks the parts of a path from a place and creates the directories that are missing; the volume
reached, and whether a directory is there. -/
def createAlong (volume : Volume) (place : Place) : List (List Char) → Volume × Bool
  | [] => (volume, volume.hasDirectory place)
  | piece :: pieces =>
    match volume.step? place piece with
    | some next => volume.createAlong next pieces
    | none =>
      let name := String.ofList piece
      if volume.hasDirectory place && isName name then
        let next := place ++ [name]
        createAlong { items := volume.items.insert next .directory } next pieces
      else (volume, false)

/-- Creates a directory and those above it. -/
def createDirectories (volume : Volume) (path : String) : Volume × Bool :=
  volume.createAlong [] (Path.pieces path)

/-- The place of the file that a path names, whether or not it is there: the directory above it has
to be, and the last part has to be a name. -/
def filePlace? (volume : Volume) (path : String) : Option Place :=
  match (Path.pieces path).reverse with
  | [] => none
  | last :: above =>
    let name := String.ofList last
    if last = [] ∨ last = ['.'] ∨ last = ['.', '.'] ∨ !isName name then none
    else
      match above.reverse.foldlM volume.step? [] with
      | some place => if volume.hasDirectory place then some (place ++ [name]) else none
      | none => none

/-- Writes a file in place of what it held. -/
def write (volume : Volume) (path text : String) : Volume × Bool :=
  match volume.filePlace? path with
  | some place =>
    if volume.hasDirectory place then (volume, false)
    else ({ items := volume.items.insert place (.file text) }, true)
  | none => (volume, false)

/-- The files of a volume with their places, the oldest first. -/
def files (volume : Volume) : List (Place × String) :=
  volume.items.entries.filterMap fun (place, item) =>
    match item with
    | .file text => some (place, text)
    | .directory => none

end Volume

/-- A machine in memory: its volume and the text printed so far. -/
structure Machine where
  volume : Volume := {}
  printed : String := ""

/-- The operations on a volume and the text printed so far. -/
def Disk.ofVolume : Disk (StateM Machine) where
  isPresent path := do return (← get).volume.isPresent path
  isFile path := do return (← get).volume.isFile path
  isDirectory path := do return (← get).volume.isDirectory path
  read path := do return (← get).volume.read path
  createDirectories path := modifyGet fun machine =>
    let (volume, done) := machine.volume.createDirectories path
    (done, { machine with volume })
  write path text := modifyGet fun machine =>
    let (volume, done) := machine.volume.write path text
    (done, { machine with volume })
  print text := modify fun machine => { machine with printed := machine.printed ++ text }

/-- The operations on a machine in memory. -/
def Disk.inMemory : Disk (StateM Machine) :=
  Disk.ofVolume.guarded

end ApiDocs.Command
