import ApiDocs.Json.Fields
import ApiDocs.Json.Relaxed
import ApiDocs.Path.Basic
import ApiDocs.Settings.Basic

/-!
# Project files

The settings that a project keeps in a file of its own, in relaxed JSON.  Paths in the file are
relative to the directory of the file.

## Main definitions

* `ProjectFile.parse` — reads a project file.
* `ProjectFile.readmePath?` — where the readme is.
* `ProjectFile.toSettings` — the settings, given the text of the readme.
-/

namespace ApiDocs

/-- Why settings cannot be loaded. -/
inductive SettingsError where
  | unreadable (path : String)
  | malformed (path : String)
deriving DecidableEq

/-- The text of an error. -/
def SettingsError.message : SettingsError → String
  | unreadable path => "failed to read " ++ path
  | malformed path => "failed to parse " ++ path

/-- The contents of a project file. -/
structure ProjectFile where
  name : Option String := none
  baseDirectory : Option String := none
  repository : Option String := none
  homepage : Option String := none
  /-- The path of the readme. -/
  readme : Option String := none
  version : Option String := none
  /-- The names that belong to the platform, in place of the usual ones. -/
  builtins : Option (List String) := none

namespace ProjectFile

/-- The keys of a project file, in the order in which an array gives their values. -/
def keys : List String :=
  ["name", "baseDir", "repository", "homepage", "readme", "version", "defaultApiNames"]

/-- What a document says about the keys of a project file.  The values of other keys are skipped
but have to be readable, and items of an array after the last key are not looked at. -/
def slots? : Json → Option (List Slot)
  | .object fields =>
    if (fields.filter fun (key, _) => !keys.contains key).all fun (_, value) => value.isReadable
    then (Json.object fields).slots? keys
    else none
  | .array items => (Json.array (items.take keys.length)).slots? keys
  | _ => none

/-- The project file that a document describes. -/
def decode? (document : Json) : Option ProjectFile :=
  match slots? document with
  | some [name, baseDirectory, repository, homepage, readme, version, builtins] => do
    some
      { name := ← name.optional Json.text?
        baseDirectory := ← baseDirectory.optional Json.text?
        repository := ← repository.optional Json.text?
        homepage := ← homepage.optional Json.text?
        readme := ← readme.optional Json.text?
        version := ← version.optional Json.text?
        builtins := ← builtins.optional (Json.list? Json.text?) }
  | _ => none

/-- Reads a project file; the path is for the error only. -/
def parse (text path : String) : Except SettingsError ProjectFile :=
  match (Json.parseRelaxed? text).bind decode? with
  | some file => .ok file
  | none => .error (.malformed path)

/-- The path of the readme, for a project file in the given directory. -/
def readmePath? (file : ProjectFile) (directory : String) : Option String :=
  file.readme.map (Path.join directory)

/-- The settings of a project file in the given directory, with the text of the readme. -/
def toSettings (file : ProjectFile) (directory : String) (readme : Option String) : Settings where
  name := file.name.getD Settings.default.name
  baseDirectory := (file.baseDirectory.map (Path.absolute directory)).getD directory
  repository := file.repository.map Settings.trimRepository
  homepage := file.homepage
  readme
  version := file.version
  builtins := file.builtins.getD Settings.defaultBuiltins

end ProjectFile

end ApiDocs
