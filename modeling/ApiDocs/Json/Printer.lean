import ApiDocs.Json.Value

/-!
# Writing JSON

One printer serves both forms of output.  They differ in a `Layout` only: what is put between the
items of an array or object, and what stands between a key and its value.

## Main definitions

* `Layout.compact`, `Layout.pretty` — no blanks at all, and two blanks for each level.
* `Json.print` — a document as text.
* `quote` — a string literal.  A quotation mark, a backslash and the control characters below
  `U+0020` are escaped, everything else is written as it is.
-/

namespace ApiDocs

namespace Json

/-- A digit of base sixteen, in lower case. -/
def hexDigit (n : Nat) : Char :=
  Nat.digitChar (n % 16)

/-- A character inside a string literal. -/
def escapeChar (c : Char) : List Char :=
  if c = '"' then ['\\', '"']
  else if c = '\\' then ['\\', '\\']
  else if c = '\n' then ['\\', 'n']
  else if c = '\r' then ['\\', 'r']
  else if c = '\t' then ['\\', 't']
  else if c = '\x08' then ['\\', 'b']
  else if c = '\x0c' then ['\\', 'f']
  else if c.toNat < 0x20 then ['\\', 'u', '0', '0', hexDigit (c.toNat / 16), hexDigit c.toNat]
  else [c]

/-- A string literal. -/
def quote (text : String) : List Char :=
  '"' :: (text.toList.flatMap escapeChar ++ ['"'])

/-- The blanks of a written document. -/
structure Layout where
  /-- What stands before an item at a depth, and before the bracket that closes that depth. -/
  gap : Nat → List Char
  /-- What stands between a key and its value. -/
  colon : List Char

/-- No blanks. -/
def Layout.compact : Layout where
  gap _ := []
  colon := [':']

/-- Every item on a line of its own, two blanks for each level. -/
def Layout.pretty : Layout where
  gap depth := '\n' :: List.replicate (2 * depth) ' '
  colon := [':', ' ']

mutual

/-- The characters of a document that stands at a depth. -/
def printAt (layout : Layout) (depth : Nat) : Json → List Char
  | null => ['n', 'u', 'l', 'l']
  | bool true => ['t', 'r', 'u', 'e']
  | bool false => ['f', 'a', 'l', 's', 'e']
  | nat n => Nat.toDigits 10 n
  | number literal => literal.toList
  | string text => quote text
  | array [] => ['[', ']']
  | array (item :: items) =>
    '[' :: (layout.gap (depth + 1) ++ printAt layout (depth + 1) item ++
      printItems layout depth items ++ layout.gap depth ++ [']'])
  | object [] => ['\x7b', '\x7d']
  | object ((key, value) :: fields) =>
    '\x7b' :: (layout.gap (depth + 1) ++ quote key ++ layout.colon ++
      printAt layout (depth + 1) value ++ printFields layout depth fields ++
      layout.gap depth ++ ['\x7d'])
  | unreadable => ['"', '\\', 'u', 'd', '8', '0', '0', '"']

/-- The items after the first of an array at a depth. -/
def printItems (layout : Layout) (depth : Nat) : List Json → List Char
  | [] => []
  | item :: items =>
    ',' :: (layout.gap (depth + 1) ++ printAt layout (depth + 1) item ++
      printItems layout depth items)

/-- The pairs after the first of an object at a depth. -/
def printFields (layout : Layout) (depth : Nat) : List (String × Json) → List Char
  | [] => []
  | (key, value) :: fields =>
    ',' :: (layout.gap (depth + 1) ++ quote key ++ layout.colon ++
      printAt layout (depth + 1) value ++ printFields layout depth fields)

end

/-- A document as text. -/
def print (layout : Layout) (document : Json) : String :=
  String.ofList (printAt layout 0 document)

/-- A document as text without blanks. -/
def compact (document : Json) : String :=
  print .compact document

/-- A document as text with one item a line. -/
def pretty (document : Json) : String :=
  print .pretty document

end Json

end ApiDocs
