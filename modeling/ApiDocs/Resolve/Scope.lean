import ApiDocs.Model.Type
import ApiDocs.Syntax.SourceFile
import ApiDocs.Tree.Module

/-!
# Scopes and locations

A `Scope` is where a declaration is resolved: its file, and what the enclosing module says about
links.  A location is the position of a node together with a link to its source line.

## Main definitions

* `Scope.location` — the location of a node.
* `fileLink`, `lineLink` — a link to a file and to a line.  Inside a namespace the repository
  already names the file.
* `Scope.entityNameWithin` — the dotted name that a name node spells.
-/

namespace ApiDocs

/-- The file and module in which a declaration is resolved. -/
structure Scope where
  file : FileId
  source : SourceFile
  /-- What links to the sources of the enclosing module start with. -/
  repository : Option String := none
  inNamespace : Bool := false

/-- A link to a file. -/
def fileLink (repository : Option String) (fileName : String) : Option String :=
  repository.map (· ++ "/" ++ fileName)

/-- A link to a zero-based line of a file; lines are written from one. -/
def lineLink (repository : Option String) (fileName : String) (inNamespace : Bool) (line : Nat) :
    Option String :=
  let target := if inNamespace then repository else fileLink repository fileName
  target.map (· ++ "#L" ++ String.ofList (Nat.toDigits 10 (line + 1)))

namespace Scope

/-- The scope of a module. -/
def ofModule (file : FileId) (source : SourceFile) (module : DocModule) : Scope where
  file
  source
  repository := module.repository
  inNamespace := module.isNamespace

/-- The location of a node; empty for a node without source text. -/
def location (scope : Scope) (index : NodeIndex) : Location :=
  match scope.source.nodePosition? index with
  | some position =>
    { position := some position
      link := lineLink scope.repository scope.source.baseName scope.inNamespace position.line }
  | none => {}

/-- One step of spelling a dotted name, given how to spell the parts of a node. -/
def entityNameStep (scope : Scope) (part : NodeIndex → String) (index : NodeIndex) : String :=
  match scope.source.arena.payload? index with
  | none => ""
  | some (.identifier text) => text
  | some (.qualifiedName left right) => part left ++ "." ++ part right
  | some (.access expression name) => part expression ++ "." ++ part name
  | some _ => scope.source.nodeText index

/-- The dotted name that an identifier, qualified name or property access spells, down to the given
depth. -/
def entityNameWithin (scope : Scope) : Nat → NodeIndex → String
  | 0, _ => ""
  | depth + 1, index => scope.entityNameStep (scope.entityNameWithin depth) index

end Scope

end ApiDocs
