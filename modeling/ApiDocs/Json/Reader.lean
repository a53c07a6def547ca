import ApiDocs.Json.Literal

/-!
# Reading JSON

The strict form of JSON: no comments, no trailing commas, no blanks other than space, tab, line
feed and carriage return, no control characters inside strings, and nothing after the document.

## Main definitions

* `Json.parse?` — the document that a text spells.
* `readValue`, `readItems`, `readFields` — one value, the rest of an array, the rest of an object;
  each answers what it read and the characters after it.

## Design notes

**Fuel.**  The three readers call each other with one unit of fuel less, and a text of `n`
characters never needs more than `n + 1` units, because every step takes at least one character.
-/

namespace ApiDocs.Json

/-- The blanks between the tokens of a document. -/
def isSpace (c : Char) : Bool :=
  c == ' ' || c == '\n' || c == '\t' || c == '\r'

/-- What follows the leading blanks. -/
def skipSpace (cs : List Char) : List Char :=
  cs.dropWhile isSpace

/-- The character that a one-letter escape stands for. -/
def escaped? : Char → Option Char
  | '"' => some '"'
  | '\\' => some '\\'
  | '/' => some '/'
  | 'b' => some '\x08'
  | 'f' => some '\x0c'
  | 'n' => some '\n'
  | 'r' => some '\r'
  | 't' => some '\t'
  | _ => none

/-- The pieces of a string literal after its opening mark, and what follows its closing mark. -/
def readString : List Char → Option (List Piece × List Char)
  | [] => none
  | '"' :: cs => some ([], cs)
  | '\\' :: 'u' :: a :: b :: c :: d :: cs => do
    let value ← hexValue? [a, b, c, d]
    let (pieces, rest) ← readString cs
    some (.unit value :: pieces, rest)
  | '\\' :: e :: cs => do
    let c ← escaped? e
    let (pieces, rest) ← readString cs
    some (.char c :: pieces, rest)
  | c :: cs =>
    if c.toNat < 0x20 then none
    else (readString cs).map fun (pieces, rest) => (.char c :: pieces, rest)

/-- A part of a number literal that has to hold a digit: the digits and what follows them. -/
def readDigits (cs : List Char) : Option (List Char × List Char) :=
  match cs.takeWhile Char.isDigit with
  | [] => none
  | digits => some (digits, cs.dropWhile Char.isDigit)

/-- The digits before the point; a leading zero stands alone. -/
def readWhole (cs : List Char) : Option (List Char × List Char) :=
  match readDigits cs with
  | some ('0' :: _ :: _, _) => none
  | whole => whole

/-- The fraction of a number literal, which may be empty. -/
def readFraction : List Char → Option (List Char × List Char)
  | '.' :: cs => (readDigits cs).map fun (digits, rest) => ('.' :: digits, rest)
  | cs => some ([], cs)

/-- The exponent of a number literal, which may be empty. -/
def readExponent : List Char → Option (List Char × List Char)
  | [] => some ([], [])
  | e :: cs =>
    if e = 'e' ∨ e = 'E' then
      match cs with
      | '+' :: rest => (readDigits rest).map fun (digits, rest) => (e :: '+' :: digits, rest)
      | '-' :: rest => (readDigits rest).map fun (digits, rest) => (e :: '-' :: digits, rest)
      | rest => (readDigits rest).map fun (digits, rest) => (e :: digits, rest)
    else some ([], e :: cs)

/-- The value of a list of decimal digits. -/
def decimalValue (digits : List Char) : Nat :=
  digits.foldl (fun value c => value * 10 + (c.toNat - '0'.toNat)) 0

/-- A number literal without a sign, and what follows it. -/
def readUnsigned (cs : List Char) : Option ((List Char × List Char) × List Char) := do
  let (whole, cs) ← readWhole cs
  let (fraction, cs) ← readFraction cs
  let (exponent, cs) ← readExponent cs
  some ((whole, fraction ++ exponent), cs)

/-- A number literal and what follows it. -/
def readNumber : List Char → Option (Json × List Char)
  | '-' :: cs => (readUnsigned cs).map fun ((whole, more), rest) =>
    (number (String.ofList ('-' :: whole ++ more)), rest)
  | cs => (readUnsigned cs).map fun ((whole, more), rest) =>
    match more with
    | [] => (nat (decimalValue whole), rest)
    | more => (number (String.ofList (whole ++ more)), rest)

mutual

/-- One value, and what follows it. -/
def readValue : Nat → List Char → Option (Json × List Char)
  | 0, _ => none
  | fuel + 1, cs =>
    match skipSpace cs with
    | 'n' :: 'u' :: 'l' :: 'l' :: rest => some (null, rest)
    | 't' :: 'r' :: 'u' :: 'e' :: rest => some (bool true, rest)
    | 'f' :: 'a' :: 'l' :: 's' :: 'e' :: rest => some (bool false, rest)
    | '"' :: rest => (readString rest).map fun (pieces, rest) => (ofPieces .added pieces, rest)
    | '[' :: rest =>
      match skipSpace rest with
      | ']' :: rest => some (array [], rest)
      | rest => (readItems fuel rest).map fun (items, rest) => (array items, rest)
    | '\x7b' :: rest =>
      match skipSpace rest with
      | '\x7d' :: rest => some (object [], rest)
      | rest => (readFields fuel rest).map fun (fields, rest) => (ofFields .added fields, rest)
    | rest => readNumber rest

/-- The items of an array up to its closing bracket, and what follows it. -/
def readItems : Nat → List Char → Option (List Json × List Char)
  | 0, _ => none
  | fuel + 1, cs =>
    (readValue fuel cs).bind fun (item, rest) =>
      match skipSpace rest with
      | ']' :: rest => some ([item], rest)
      | ',' :: rest => (readItems fuel rest).map fun (items, rest) => (item :: items, rest)
      | _ => none

/-- The pairs of an object up to its closing bracket, and what follows it. -/
def readFields : Nat → List Char → Option (List (List Piece × Json) × List Char)
  | 0, _ => none
  | fuel + 1, cs =>
    match skipSpace cs with
    | '"' :: rest =>
      (readString rest).bind fun (key, rest) =>
        match skipSpace rest with
        | ':' :: rest =>
          (readValue fuel rest).bind fun (value, rest) =>
            match skipSpace rest with
            | '\x7d' :: rest => some ([(key, value)], rest)
            | ',' :: rest =>
              (readFields fuel rest).map fun (fields, rest) => ((key, value) :: fields, rest)
            | _ => none
        | _ => none
    | _ => none

end

/-- The document that a list of characters spells. -/
def parseChars? (cs : List Char) : Option Json :=
  match readValue (cs.length + 1) cs with
  | some (document, rest) => if skipSpace rest = [] then some document else none
  | none => none

/-- The document that a text spells. -/
def parse? (text : String) : Option Json :=
  parseChars? text.toList

end ApiDocs.Json
