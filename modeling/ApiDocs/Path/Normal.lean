import ApiDocs.Path.Basic

/-!
# Normal paths and the segments below a base

A path is *normalized* by dropping `.` components and by letting each `..` remove the component
before it, without looking at any disk.  The *segments* of a file are the directory names between
a base directory and the directory that holds the file.

## Main definitions

* `normalize` — the normal form of a list of components.
* `normalText` — the normal form of a path, as text.
* `segments?` — the names between a base and the directory of a file; `none` when the file does
  not lie below the base.

## Design notes

**A `..` removes whatever stands before it**, an earlier `..` included; only where nothing can be
removed, at the start and directly below the root, it is kept.
-/

namespace ApiDocs.Path

/-- Adds one component to a normal path, which is given in reverse. -/
def pushNormal (stack : List Component) : Component → List Component
  | .here => stack
  | .up =>
    match stack with
    | [] => [.up]
    | .root :: rest => .up :: .root :: rest
    | _ :: rest => rest
  | .root => [.root]
  | .name text => .name text :: stack

/-- The normal form of a list of components. -/
def normalize (parts : List Component) : List Component :=
  (parts.foldl pushNormal []).reverse

/-- The text of a list of components: a slash between any two, none after the root. -/
def render : List Component → String
  | [] => ""
  | .root :: rest => "/" ++ "/".intercalate (rest.map Component.text)
  | parts => "/".intercalate (parts.map Component.text)

/-- The normal form of a path, as text. -/
def normalText (path : String) : String :=
  render (normalize (components path))

/-- What a list continues with after a given beginning; `none` when it begins otherwise. -/
def remainder? : List Component → List Component → Option (List Component)
  | [], parts => some parts
  | _ :: _, [] => none
  | b :: base, p :: parts => if b = p then remainder? base parts else none

/-- The names between `base` and the directory that holds `file`. -/
def segments? (base file : String) : Option (List String) :=
  (remainder? (normalize (components base)) (normalize (components file))).map fun below =>
    below.dropLast.map Component.text

/-- A remainder completes the beginning to the whole list. -/
theorem remainder?_eq_some_iff {base parts below : List Component} :
    remainder? base parts = some below ↔ parts = base ++ below := by
  induction base generalizing parts with
  | nil => simp [remainder?, eq_comm]
  | cons b base ih =>
    cases parts with
    | nil => simp [remainder?]
    | cons p parts =>
      by_cases same : b = p
      · simp [remainder?, same, ih]
      · simp [remainder?, same, Ne.symm same]

end ApiDocs.Path
