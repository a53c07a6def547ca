import ApiDocs.Path.Basic
import ApiDocs.Syntax.Arena
import ApiDocs.Syntax.Comment
import ApiDocs.Text.Position
import ApiDocs.WordMap

/-!
# Source files

A file of the checked project: its path, its text, its syntax, its top-level statements and the
documentation comments attached to its nodes.

## Main definitions

* `SourceFile.nodeText` — the source text of a node, empty without one.
* `SourceFile.nodePosition?` — the position at which a node starts, `none` without source text.
* `SourceFile.comments` — the comments attached to a node, in source order.
* `SourceFile.attach` — attaches one more comment to a node.
* `SourceFile.nameOf` — the name that a name node displays.
-/

namespace ApiDocs

/-- A file of the checked project. -/
structure SourceFile where
  path : String
  text : String
  arena : Arena := {}
  statements : NodeList := []
  commentMap : WordMap (List Comment) := {}

namespace SourceFile

/-- The last name of the file's path. -/
def baseName (file : SourceFile) : String :=
  Path.baseName file.path

/-- The source text of a node; empty for an absent or synthetic node and for a span that does not
fit the text. -/
def nodeText (file : SourceFile) (index : NodeIndex) : String :=
  match file.arena.get? index with
  | some node =>
    if node.isSynthetic then ""
    else String.ofList ((Text.slice file.text.toList node.start.toNat node.stop.toNat).getD [])
  | none => ""

/-- The line map of the text. -/
def lineMap (file : SourceFile) : Text.LineMap :=
  .ofText file.text.toList

/-- The position at which a node starts; `none` for an absent or synthetic node. -/
def nodePosition? (file : SourceFile) (index : NodeIndex) : Option Text.Position :=
  match file.arena.get? index with
  | some node =>
    if node.isSynthetic then none
    else some (file.lineMap.position file.text.toList node.start.toNat)
  | none => none

/-- The comments attached to a node, in source order. -/
def comments (file : SourceFile) (index : NodeIndex) : List Comment :=
  (file.commentMap.find? index.raw).getD []

/-- Attaches one more comment to a node; an absent node keeps none. -/
def attach (file : SourceFile) (index : NodeIndex) (comment : Comment) : SourceFile :=
  if index.isPresent then
    { file with
      commentMap := file.commentMap.insert index.raw (file.comments index ++ [comment]) }
  else file

/-- Adds a top-level statement. -/
def pushStatement (file : SourceFile) (index : NodeIndex) : SourceFile :=
  { file with statements := file.statements ++ [index] }

/-- Adds a node; answers its index. -/
def addNode (file : SourceFile) (node : Node) : NodeIndex × SourceFile :=
  let (index, arena) := file.arena.add node
  (index, { file with arena })

/-- The name that a name node displays: the name it holds, or its source text. -/
def nameOf (file : SourceFile) (index : NodeIndex) : String :=
  (file.arena.nameText? index).getD (file.nodeText index)

/-- The name of a declaration; one without a name is called `default`. -/
def declarationName (file : SourceFile) (index : NodeIndex) : String :=
  let name := file.nameOf index
  if name = "" then "default" else name

end SourceFile

end ApiDocs
