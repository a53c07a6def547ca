/-!
# Extraction settings

What an extraction needs to know about a project besides its snapshot.
-/

namespace ApiDocs

/-- The settings of an extraction. -/
structure Settings where
  /-- The name of the project and of the root module. -/
  name : String := "index"
  /-- The directory that module paths start from. -/
  baseDirectory : String := ""
  /-- What links to sources start with; no links are made without it. -/
  repository : Option String := none
  homepage : Option String := none
  /-- The text of the readme. -/
  readme : Option String := none
  version : Option String := none
  /-- The names that belong to the platform. -/
  builtins : List String

namespace Settings

/-- The names that belong to the platform unless a project lists its own. -/
def defaultBuiltins : List String :=
  ["Array", "ArrayBuffer", "ArrayLike", "AsyncIterable", "AsyncIterator", "Awaited", "Boolean",
   "DataView", "Date", "Error", "Exclude", "Extract", "Float32Array", "Float64Array", "Function",
   "Generator", "InstanceType", "Int32Array", "Iterable", "IterableIterator", "Iterator", "Map",
   "NonNullable", "Number", "Object", "Omit", "Parameters", "Partial", "Pick", "Promise",
   "PromiseLike", "Readonly", "ReadonlyArray", "ReadonlyMap", "ReadonlySet", "Record", "RegExp",
   "Required", "ReturnType", "Set", "String", "Symbol", "Uint8Array", "WeakMap", "WeakSet"]

/-- The settings of a project that says nothing about itself. -/
def default : Settings where
  builtins := defaultBuiltins

/-- A repository without the slashes at its end. -/
def trimRepository (repository : String) : String :=
  String.ofList (repository.toList.reverse.dropWhile (· == '/')).reverse

/-- Settings with another repository. -/
def withRepository (settings : Settings) (repository : String) : Settings :=
  { settings with repository := some (trimRepository repository) }

end Settings

end ApiDocs
