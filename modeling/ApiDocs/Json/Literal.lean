import ApiDocs.Json.Value

/-!
# The contents of string literals

An escape such as `\ud83d` names a UTF-16 code unit, and two of them may be needed for one
character.  A string literal is therefore read in two steps: into a list of `Piece`s, each a
character or a code unit that was written as an escape, and from there into text.

## Main definitions

* `Piece.join` — the text of a list of pieces; a surrogate counts only together with the partner
  that follows it directly.
* `Piece.keyText?` — the text of a key.
* `Pairing` — the character that two surrogates stand for together.
* `hexValue?` — the value of a run of hexadecimal digits.

## Design notes

**Two rules for pairs.**  Strict documents add the twenty bits of a pair to `U+10000`, as UTF-16
does; relaxed documents set bit sixteen instead.  The rules agree if that bit of the pair is clear,
so on one character in two.

**Numbers as keys.**  The keys of a map are numbers, and a number is written without escapes.  So an
escape that names a digit is not resolved in a key: the key `"\u0031"` is neither the number one nor
the name of any field.
-/

namespace ApiDocs.Json

/-- The value of a hexadecimal digit. -/
def hexDigit? (c : Char) : Option Nat :=
  if c.isDigit then some (c.toNat - '0'.toNat)
  else if 'a' ≤ c ∧ c ≤ 'f' then some (c.toNat - 'a'.toNat + 10)
  else if 'A' ≤ c ∧ c ≤ 'F' then some (c.toNat - 'A'.toNat + 10)
  else none

/-- The value of a list of hexadecimal digits. -/
def hexValue? (digits : List Char) : Option Nat :=
  digits.foldlM (fun value c => (hexDigit? c).map (value * 16 + ·)) 0

/-- One element of a string literal: a character, or a code unit written as an escape. -/
inductive Piece where
  | char (c : Char)
  | unit (value : Nat)

/-- Whether a code unit is the first half of a pair. -/
def isHighSurrogate (unit : Nat) : Bool :=
  0xD800 ≤ unit && unit ≤ 0xDBFF

/-- Whether a code unit is the second half of a pair. -/
def isLowSurrogate (unit : Nat) : Bool :=
  0xDC00 ≤ unit && unit ≤ 0xDFFF

/-- The character that a high and a low surrogate stand for together. -/
abbrev Pairing := Nat → Nat → Char

/-- The twenty bits of a pair of surrogates. -/
def pairBits (high low : Nat) : Nat :=
  (high - 0xD800) * 0x400 + (low - 0xDC00)

/-- The pairing of UTF-16. -/
def Pairing.added : Pairing := fun high low =>
  Char.ofNat (0x10000 + pairBits high low)

/-- The pairing that sets bit sixteen. -/
def Pairing.masked : Pairing := fun high low =>
  Char.ofNat (pairBits high low ||| 0x10000)

/-- The characters of a list of pieces; `none` if a surrogate is without its partner. -/
def Piece.join (pair : Pairing) : List Piece → Option (List Char)
  | [] => some []
  | .char c :: rest => (join pair rest).map (c :: ·)
  | .unit high :: .unit low :: rest =>
    if isHighSurrogate high then
      if isLowSurrogate low then (join pair rest).map (pair high low :: ·) else none
    else if isLowSurrogate high then none
    else (join pair (.unit low :: rest)).map (Char.ofNat high :: ·)
  | .unit value :: rest =>
    if isHighSurrogate value || isLowSurrogate value then none
    else (join pair rest).map (Char.ofNat value :: ·)

/-- The text of a list of pieces. -/
def Piece.text? (pair : Pairing) (pieces : List Piece) : Option String :=
  (join pair pieces).map String.ofList

/-- A piece of a key: the escape of a digit stays as it was written. -/
def Piece.inKey : Piece → List Piece
  | .char c => [.char c]
  | .unit value =>
    let c := Char.ofNat value
    if c.isDigit then ['\\', 'u', '0', '0', '3', c].map .char else [.unit value]

/-- The text of a key. -/
def Piece.keyText? (pair : Pairing) (pieces : List Piece) : Option String :=
  text? pair (pieces.flatMap inKey)

/-- The value of a string literal. -/
def ofPieces (pair : Pairing) (pieces : List Piece) : Json :=
  match Piece.text? pair pieces with
  | some text => string text
  | none => unreadable

/-- An object whose keys are string literals. -/
def ofFields (pair : Pairing) (fields : List (List Piece × Json)) : Json :=
  match fields.mapM (fun (key, value) => (Piece.keyText? pair key).map (·, value)) with
  | some fields => object fields
  | none => unreadable

end ApiDocs.Json
