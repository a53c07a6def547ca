import ApiDocs.Syntax.SourceFile

/-!
# Walking a file

Both passes of the extraction walk the statements of a file in source order and step into
namespaces where they stand.  The walk is syntax only, and so it is a **list of entries**: each
entry names the namespaces that are open and, unless it just opens one, a statement.

## Main definitions

* `Entry` — one step of the walk.
* `SourceFile.namespaceOf?` — the name and body of a namespace declaration.
* `SourceFile.entries` — the walk through a file.

## Design notes

**What is not entered.**  A `declare global` block and a module declared under a string name are
no namespaces, and nothing inside them is documented.

**An empty namespace is entered too**: opening a namespace is an entry of its own, before the
entries of its body.
-/

namespace ApiDocs

/-- One step of walking a file. -/
structure Entry where
  /-- The names of the open namespaces, outermost first. -/
  namespaces : List String
  /-- The statement met; none where a namespace is opened. -/
  statement : Option NodeIndex
deriving DecidableEq

namespace SourceFile

/-- The name and the body of a namespace declaration; `none` if the node opens no namespace. -/
def namespaceOf? (file : SourceFile) (node : Node) : Option (String × NodeIndex) :=
  match node.payload with
  | .namespaceDecl data =>
    if node.hasFlag Node.globalAugmentation then none
    else
      match file.arena.payload? data.name with
      | some (.identifier name) => some (name, data.body)
      | _ => none
  | _ => none

/-- The statements in the body of a namespace: those of a block, or the declaration of the next
name of a dotted one. -/
def bodyStatements (file : SourceFile) (body : NodeIndex) : NodeList :=
  match file.arena.get? body with
  | some node =>
    match node.kind, node.payload with
    | .moduleDeclaration, _ => [body]
    | .moduleBlock, .block statements => statements
    | _, _ => []
  | none => []

/-- The entries of a statement inside the given namespaces, down to the given depth. -/
def entriesWithin (file : SourceFile) : Nat → List String → NodeIndex → List Entry
  | 0, _, _ => []
  | depth + 1, namespaces, index =>
    match file.arena.get? index with
    | none => []
    | some node =>
      if node.kind = .moduleDeclaration then
        match file.namespaceOf? node with
        | none => []
        | some (name, body) =>
          let inner := namespaces ++ [name]
          ⟨inner, none⟩ :: (file.bodyStatements body).flatMap (file.entriesWithin depth inner)
      else [⟨namespaces, some index⟩]

/-- The walk through a file, down to the given depth. -/
def entriesTo (file : SourceFile) (depth : Nat) : List Entry :=
  file.statements.flatMap (file.entriesWithin depth [])

/-- The walk through a file. -/
def entries (file : SourceFile) : List Entry :=
  file.entriesTo file.arena.depthBound

end SourceFile

end ApiDocs
