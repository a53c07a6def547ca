import ApiDocs.Json.Fields
import ApiDocs.Json.Reader
import ApiDocs.Text.Letter

/-!
# Reading relaxed JSON

Project files are written in a relaxed form of JSON: comments, names without quotation marks as
keys, single quotation marks, trailing commas, more escapes, continued lines, more blanks, and
numbers with a sign, in base sixteen, or without digits on one side of the point.

## Main definitions

* `Json.parseRelaxed?` — the document that a text spells.
* `readRelaxedString`, `readName`, `readRelaxedNumber` — the tokens.

## Design notes

**Numbers have a range.**  A whole number has to fit 64 bits with a sign, digits of base sixteen 32
bits without one, and any other number has to be finite.  A literal outside its range is read as
`unreadable`.
-/

namespace ApiDocs.Json

/-! ## Blanks -/

/-- Whether a character ends a line. -/
def isLineEnd (c : Char) : Bool :=
  c == '\n' || c == '\r' || c == '\u2028' || c == '\u2029'

/-- The blanks between the tokens of a relaxed document. -/
def isRelaxedSpace (c : Char) : Bool :=
  let n := c.toNat
  n == 0x09 || n == 0x0B || n == 0x0C || n == 0x20 || n == 0xA0 || n == 0xFEFF || n == 0x1680 ||
    (0x2000 ≤ n && n ≤ 0x200A) || n == 0x202F || n == 0x205F || n == 0x3000 || isLineEnd c

/-- What follows the end of a block comment. -/
def afterBlock? : List Char → Option (List Char)
  | [] => none
  | '*' :: '/' :: rest => some rest
  | _ :: rest => afterBlock? rest

/-- What follows at most the given number of blanks and comments. -/
def skipBlanksWithin : Nat → List Char → List Char
  | 0, cs => cs
  | fuel + 1, cs =>
    match cs with
    | '/' :: '/' :: rest => skipBlanksWithin fuel (rest.dropWhile (!isLineEnd ·))
    | '/' :: '*' :: rest =>
      match afterBlock? rest with
      | some rest => skipBlanksWithin fuel rest
      | none => cs
    | c :: rest => if isRelaxedSpace c then skipBlanksWithin fuel rest else cs
    | [] => []

/-- What follows the leading blanks and comments. -/
def skipBlanks (cs : List Char) : List Char :=
  skipBlanksWithin cs.length cs

/-! ## Strings and names -/

/-- The character that an escape of one letter stands for: a control character, or the letter
itself.  Digits and the letters that begin longer escapes are no such letters. -/
def relaxedEscaped? (c : Char) : Option Char :=
  if c = 'b' then some '\x08'
  else if c = 'f' then some '\x0c'
  else if c = 'n' then some '\n'
  else if c = 'r' then some '\r'
  else if c = 't' then some '\t'
  else if c = 'v' then some '\x0b'
  else if c.isDigit || c = 'x' || c = 'u' || isLineEnd c then none
  else some c

/-- Puts a piece in front of what was read. -/
def consPiece (piece : Piece) (read : Option (List Piece × List Char)) :
    Option (List Piece × List Char) :=
  read.map fun (pieces, rest) => (piece :: pieces, rest)

/-- The pieces of a string literal after its opening mark, and what follows its closing mark. -/
def readRelaxedString (mark : Char) : List Char → Option (List Piece × List Char)
  | [] => none
  | '\\' :: '\r' :: '\n' :: cs => readRelaxedString mark cs
  | '\\' :: 'u' :: a :: b :: c :: d :: cs =>
    (hexValue? [a, b, c, d]).bind fun value => consPiece (.unit value) (readRelaxedString mark cs)
  | '\\' :: 'x' :: a :: b :: cs =>
    (hexValue? [a, b]).bind fun value => consPiece (.unit value) (readRelaxedString mark cs)
  | '\\' :: '0' :: cs => consPiece (.char '\x00') (readRelaxedString mark cs)
  | '\\' :: e :: cs =>
    if isLineEnd e then readRelaxedString mark cs
    else (relaxedEscaped? e).bind fun c => consPiece (.char c) (readRelaxedString mark cs)
  | c :: cs =>
    if c = mark then some ([], cs)
    else if c = '\\' || isLineEnd c then none
    else consPiece (.char c) (readRelaxedString mark cs)

/-- Whether a character may begin a name. -/
def isNameStart (c : Char) : Bool :=
  c == '$' || c == '_' || Text.isLetter c

/-- Whether a character may continue a name. -/
def isNamePart (c : Char) : Bool :=
  isNameStart c || Text.isNameMark c || c == '\u200c' || c == '\u200d'

/-- The pieces of the longest run of name characters and escapes, and what follows it. -/
def readNameParts : List Char → List Piece × List Char
  | '\\' :: 'u' :: a :: b :: c :: d :: cs =>
    match hexValue? [a, b, c, d] with
    | some value =>
      let (pieces, rest) := readNameParts cs
      (.unit value :: pieces, rest)
    | none => ([], '\\' :: 'u' :: a :: b :: c :: d :: cs)
  | c :: cs =>
    if isNamePart c then
      let (pieces, rest) := readNameParts cs
      (.char c :: pieces, rest)
    else ([], c :: cs)
  | [] => ([], [])

/-- A name without quotation marks, and what follows it. -/
def readName (cs : List Char) : Option (List Piece × List Char) :=
  let starts := match cs with
    | '\\' :: _ => true
    | c :: _ => isNameStart c
    | [] => false
  match readNameParts cs with
  | ([], _) => none
  | read => if starts then some read else none

/-- A key, and what follows it. -/
def readKey : List Char → Option (List Piece × List Char)
  | '"' :: cs => readRelaxedString '"' cs
  | '\'' :: cs => readRelaxedString '\'' cs
  | cs => readName cs

/-! ## Numbers -/

/-- Whether the decimal number with the given digits and power of ten is finite as a
floating-point number of 64 bits. -/
def isFinite (digits : List Char) (power : Int) : Bool :=
  let mantissa := decimalValue digits
  let magnitude := ((Nat.toDigits 10 mantissa).length : Int) + power
  if mantissa = 0 || magnitude ≤ 300 then true
  else if magnitude > 310 then false
  else
    let bound := Nat.pow 2 1024 - Nat.pow 2 970
    if power ≥ 0 then mantissa * Nat.pow 10 power.toNat < bound
    else mantissa < bound * Nat.pow 10 (-power).toNat

/-- One more than the largest whole number of 64 bits with a sign. -/
def wholeBound : Nat := 9223372036854775808

/-- The digits before the point of a relaxed number; a leading zero stands alone. -/
def relaxedWhole (cs : List Char) : List Char :=
  match cs with
  | '0' :: _ => ['0']
  | cs => cs.takeWhile Char.isDigit

/-- The exponent at the beginning of a text: its length and value. -/
def relaxedExponent (cs : List Char) : Nat × Int :=
  match readExponent cs with
  | some (_ :: '+' :: digits, _) => (digits.length + 2, decimalValue digits)
  | some (_ :: '-' :: digits, _) => (digits.length + 2, -(decimalValue digits : Int))
  | some (_ :: digits, _) => (digits.length + 1, decimalValue digits)
  | _ => (0, 0)

/-- A number literal with a value in its range. -/
def ranged (inRange : Bool) (literal : List Char) : Json :=
  if inRange then number (String.ofList literal) else unreadable

/-- A decimal number after its sign, and what follows it. -/
def readRelaxedDecimal (sign cs : List Char) : Option (Json × List Char) :=
  let whole := relaxedWhole cs
  let afterWhole := cs.drop whole.length
  let finish (length : Nat) (inRange : Bool) : Option (Json × List Char) :=
    some (ranged inRange (sign ++ cs.take length), cs.drop length)
  match afterWhole with
  | '.' :: rest =>
    let fraction := rest.takeWhile Char.isDigit
    if whole.isEmpty && fraction.isEmpty then none
    else
      let (length, exponent) := relaxedExponent (rest.drop fraction.length)
      finish (whole.length + 1 + fraction.length + length)
        (isFinite (whole ++ fraction) (exponent - fraction.length))
  | _ =>
    if whole.isEmpty then none
    else
      match relaxedExponent afterWhole with
      | (0, _) =>
        let value := decimalValue whole
        finish whole.length (if sign = ['-'] then value ≤ wholeBound else value < wholeBound)
      | (length, exponent) => finish (whole.length + length) (isFinite whole exponent)

/-- A number after its sign, and what follows it. -/
def readRelaxedUnsigned (sign : List Char) : List Char → Option (Json × List Char)
  | 'I' :: 'n' :: 'f' :: 'i' :: 'n' :: 'i' :: 't' :: 'y' :: rest =>
    some (ranged (sign ≠ ['+']) (sign ++ ['I', 'n', 'f', 'i', 'n', 'i', 't', 'y']), rest)
  | 'N' :: 'a' :: 'N' :: rest => some (ranged (sign ≠ ['+']) (sign ++ ['N', 'a', 'N']), rest)
  | '0' :: x :: cs =>
    let digits := cs.takeWhile fun c => (hexDigit? c).isSome
    if (x = 'x' ∨ x = 'X') ∧ digits ≠ [] then
      some
        (ranged (sign = [] && ((hexValue? digits).getD 0) < wordCount) (sign ++ '0' :: x :: digits),
          cs.drop digits.length)
    else readRelaxedDecimal sign ('0' :: x :: cs)
  | cs => readRelaxedDecimal sign cs

/-- A number, and what follows it. -/
def readRelaxedNumber : List Char → Option (Json × List Char)
  | '+' :: cs => readRelaxedUnsigned ['+'] cs
  | '-' :: cs => readRelaxedUnsigned ['-'] cs
  | cs => readRelaxedUnsigned [] cs

/-! ## Values -/

mutual

/-- One value, and what follows it. -/
def readRelaxedValue : Nat → List Char → Option (Json × List Char)
  | 0, _ => none
  | fuel + 1, cs =>
    match skipBlanks cs with
    | 'n' :: 'u' :: 'l' :: 'l' :: rest => some (null, rest)
    | 't' :: 'r' :: 'u' :: 'e' :: rest => some (bool true, rest)
    | 'f' :: 'a' :: 'l' :: 's' :: 'e' :: rest => some (bool false, rest)
    | '"' :: rest =>
      (readRelaxedString '"' rest).map fun (pieces, rest) => (ofPieces .masked pieces, rest)
    | '\'' :: rest =>
      (readRelaxedString '\'' rest).map fun (pieces, rest) => (ofPieces .masked pieces, rest)
    | '[' :: rest =>
      match skipBlanks rest with
      | ']' :: rest => some (array [], rest)
      | rest => (readRelaxedItems fuel rest).map fun (items, rest) => (array items, rest)
    | '\x7b' :: rest =>
      match skipBlanks rest with
      | '\x7d' :: rest => some (object [], rest)
      | rest =>
        (readRelaxedFields fuel rest).map fun (fields, rest) => (ofFields .masked fields, rest)
    | rest => readRelaxedNumber rest

/-- The items of an array up to its closing bracket, and what follows it. -/
def readRelaxedItems : Nat → List Char → Option (List Json × List Char)
  | 0, _ => none
  | fuel + 1, cs =>
    (readRelaxedValue fuel cs).bind fun (item, rest) =>
      match skipBlanks rest with
      | ']' :: rest => some ([item], rest)
      | ',' :: rest =>
        match skipBlanks rest with
        | ']' :: rest => some ([item], rest)
        | rest => (readRelaxedItems fuel rest).map fun (items, rest) => (item :: items, rest)
      | _ => none

/-- The pairs of an object up to its closing bracket, and what follows it. -/
def readRelaxedFields : Nat → List Char → Option (List (List Piece × Json) × List Char)
  | 0, _ => none
  | fuel + 1, cs =>
    (readKey (skipBlanks cs)).bind fun (key, rest) =>
      match skipBlanks rest with
      | ':' :: rest =>
        (readRelaxedValue fuel rest).bind fun (value, rest) =>
          match skipBlanks rest with
          | '\x7d' :: rest => some ([(key, value)], rest)
          | ',' :: rest =>
            match skipBlanks rest with
            | '\x7d' :: rest => some ([(key, value)], rest)
            | rest =>
              (readRelaxedFields fuel rest).map fun (fields, rest) => ((key, value) :: fields, rest)
          | _ => none
      | _ => none

end

/-- The document that a relaxed text spells. -/
def parseRelaxed? (text : String) : Option Json :=
  match readRelaxedValue (text.length + 1) text.toList with
  | some (document, rest) => if skipBlanks rest = [] then some document else none
  | none => none

end ApiDocs.Json
