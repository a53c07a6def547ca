import ApiDocs.Syntax.SourceFile

/-!
# Building nodes from snippets

Hand-built files find the span of a node by searching the text for a snippet.  A snippet that does
not occur gives a synthetic node.

## Main definitions

* `SourceFile.locate` — the span of the `n`-th occurrence of a snippet.
* `SourceFile.addLocated` — adds a node at that span.
* `SourceFile.addIdentifier`, `SourceFile.addTypeReference`, `SourceFile.addParameter`, … — the
  nodes that small files are made of.
-/

namespace ApiDocs.SourceFile

/-- The span of a node without source text. -/
def noSpan : UInt32 × UInt32 := (Node.syntheticStart, Node.syntheticStart)

/-- The span of the `n`-th occurrence of a snippet, counted from zero and without overlap. -/
def locate (file : SourceFile) (snippet : String) (n : Nat) : UInt32 × UInt32 :=
  if snippet = "" then noSpan
  else
    match (Text.occurrences file.text.toList snippet.toList)[n]? with
    | some start =>
      (UInt32.ofNat start, UInt32.ofNat (start + Text.byteLength snippet.toList))
    | none => noSpan

/-- Adds a node that spans the `n`-th occurrence of a snippet. -/
def addLocated (file : SourceFile) (kind : Kind) (snippet : String) (n : Nat) (payload : Payload) :
    NodeIndex × SourceFile :=
  let (start, stop) := file.locate snippet n
  file.addNode { kind, start, stop, payload }

/-- Adds a node without source text. -/
def addSynthetic (file : SourceFile) (kind : Kind) (payload : Payload) : NodeIndex × SourceFile :=
  file.addNode { kind, start := noSpan.1, stop := noSpan.2, payload }

/-- Adds the identifier at the `n`-th occurrence of its text. -/
def addIdentifier (file : SourceFile) (text : String) (n : Nat) : NodeIndex × SourceFile :=
  file.addLocated .identifier text n (.identifier text)

/-- Adds a keyword, located by its text. -/
def addKeyword (file : SourceFile) (kind : Kind) (snippet : String) : NodeIndex × SourceFile :=
  file.addLocated kind snippet 0 .empty

/-- Adds synthetic keywords and answers them as a list of modifiers; none for no keyword. -/
def addModifiers (file : SourceFile) (kinds : List Kind) : Option NodeList × SourceFile :=
  match kinds with
  | [] => (none, file)
  | kinds =>
    let (indexes, file) := kinds.foldl
      (fun (indexes, file) kind =>
        let (index, file) := file.addSynthetic kind .empty
        (indexes ++ [index], file))
      ([], file)
    (some indexes, file)

/-- Adds a number literal. -/
def addNumericLiteral (file : SourceFile) (snippet : String) : NodeIndex × SourceFile :=
  file.addLocated .numericLiteral snippet 0 (.literal snippet)

/-- Whether a character is a quotation mark of a string literal. -/
def isQuotationMark (c : Char) : Bool :=
  c == '"' || c == '\'' || c == '\x60'

/-- The text between two quotation marks; the whole text unless it starts and ends with one. -/
def unquote (snippet : List Char) : List Char :=
  match snippet with
  | [] => []
  | first :: rest =>
    if isQuotationMark first && rest.getLast?.any isQuotationMark then rest.dropLast else snippet

/-- Adds a string literal, located with its quotation marks and stored without them. -/
def addStringLiteral (file : SourceFile) (snippet : String) : NodeIndex × SourceFile :=
  file.addLocated .stringLiteral snippet 0 (.literal (String.ofList (unquote snippet.toList)))

/-- Adds a type reference to a plain name, with its identifier. -/
def addTypeReference (file : SourceFile) (name : String) (n : Nat) : NodeIndex × SourceFile :=
  let (identifier, file) := file.addIdentifier name n
  file.addLocated .typeReference name n (.typeReference identifier none)

/-- Adds a parameter with its name and an optional type. -/
def addParameter (file : SourceFile) (snippet name : String) (typeNode : NodeIndex) :
    NodeIndex × SourceFile :=
  let (identifier, file) := file.addIdentifier name 0
  file.addLocated .parameter snippet 0
    (.parameter
      { modifiers := none, rest := false, name := identifier, optional := false, typeNode,
        initializer := .absent })

/-- Adds a type parameter without constraint and default. -/
def addTypeParameter (file : SourceFile) (name : String) : NodeIndex × SourceFile :=
  let (identifier, file) := file.addIdentifier name 0
  file.addLocated .typeParameter name 0
    (.typeParameter { name := identifier, constraint := .absent, default := .absent })

end ApiDocs.SourceFile
