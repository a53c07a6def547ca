/-!
# Paths

A path is a text in which `/` separates names.  This module reads a path as a list of
`Component`s and gives the operations that keep to the text: joining, the parent and the last
name.

## Main definitions

* `pieces` — the parts between slashes, empty ones included.
* `components` — what the parts mean: empty parts and inner `.` parts mean nothing, a leading
  slash is the root.
* `join` — a second path below a first one; an absolute second path replaces the first.
* `fileName?`, `baseName` — the last component, if it is an ordinary name.
* `parent?` — the text up to the end of the component before the last.

## Design notes

**Text and meaning are kept apart.**  Several texts have the same components (`a//b`, `a/./b`,
`a/b/`), and messages show a path as it was written, so `join` and `parent?` work on the text while
`ApiDocs.Path.Normal` works on components.
-/

namespace ApiDocs.Path

/-- The meaning of one part of a path. -/
inductive Component where
  | root
  | here
  | up
  | name (text : String)
deriving DecidableEq

/-- The text of a component. -/
def Component.text : Component → String
  | .root => "/"
  | .here => "."
  | .up => ".."
  | .name text => text

/-- The parts of a text between slashes. -/
def piecesOf : List Char → List (List Char)
  | [] => [[]]
  | '/' :: cs => [] :: piecesOf cs
  | c :: cs =>
    match piecesOf cs with
    | [] => [[c]]
    | piece :: rest => (c :: piece) :: rest

/-- The parts of a path between slashes; at least one, possibly empty. -/
def pieces (path : String) : List (List Char) :=
  piecesOf path.toList

/-- The component that a part after the first stands for, if any. -/
def innerComponent? (piece : List Char) : Option Component :=
  if piece = [] then none
  else if piece = ['.'] then none
  else if piece = ['.', '.'] then some .up
  else some (.name (String.ofList piece))

/-- The components of a list of parts: the first part may be the root or a leading `.`. -/
def componentsOf : List (List Char) → List Component
  | [] => []
  | [] :: [] => []
  | [] :: rest => .root :: rest.filterMap innerComponent?
  | ['.'] :: rest => .here :: rest.filterMap innerComponent?
  | first :: rest => (first :: rest).filterMap innerComponent?

/-- The components of a path. -/
def components (path : String) : List Component :=
  componentsOf (pieces path)

/-- Whether a path starts at the root. -/
def isAbsolute (path : String) : Bool :=
  path.toList.head? == some '/'

/-- `path` below `base`.  An absolute `path` replaces `base`, and a slash is put between the two
unless `base` is empty or already ends in one. -/
def join (base path : String) : String :=
  if isAbsolute path then path
  else if base.toList.getLast?.all (· == '/') then base ++ path
  else base ++ "/" ++ path

/-- `path` itself if it is absolute, and otherwise `path` below `base`. -/
def absolute (base path : String) : String :=
  if isAbsolute path then path else join base path

/-- The last component of a path, if it is an ordinary name. -/
def fileName? (path : String) : Option String :=
  match (components path).getLast? with
  | some (.name text) => some text
  | _ => none

/-- The last name of a path, or the whole path when it does not end in a name. -/
def baseName (path : String) : String :=
  (fileName? path).getD path

/-- Whether a part after the first is without meaning. -/
def isIdle (piece : List Char) : Bool :=
  (innerComponent? piece).isNone

/-- The parts of a path without the idle ones at the end, given in reverse; the first part of the
path, which is last here, stays. -/
def trimIdle : List (List Char) → List (List Char)
  | [] => []
  | [first] => [first]
  | piece :: rest => if isIdle piece then trimIdle rest else piece :: rest

/-- The text of a list of parts given in reverse; the empty first part alone is the root. -/
def textOfReversed : List (List Char) → String
  | [] => ""
  | [[]] => "/"
  | parts => String.ofList (['/'].intercalate parts.reverse)

/-- The text up to the end of the component before the last; `none` for the empty path and for the
root. -/
def parent? (path : String) : Option String :=
  match trimIdle (pieces path).reverse with
  | [] => none
  | [[]] => none
  | [_] => some ""
  | _ :: rest => some (textOfReversed (trimIdle rest))

end ApiDocs.Path
