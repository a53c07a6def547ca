import ApiDocs.Text.Blank

/-!
# Numerals

A prefix expression such as `-1` documents as a number literal when its text is a sign followed by
the text of a number.  The text of a number is a decimal numeral with an optional fraction and
exponent, or one of the words for infinity and for "not a number", and may itself carry a sign.

## Main definitions

* `isDecimal` — an unsigned decimal numeral: at least one digit, at most one point, an optional
  exponent.
* `isNumber` — the text of a number, as a floating-point reader accepts it.
* `isSignedNumber` — one sign, optional white space, the text of a number.
-/

namespace ApiDocs.Text

/-- Nothing, or an exponent: `e` or `E`, an optional sign and at least one digit. -/
def isExponentPart : List Char → Bool
  | [] => true
  | e :: rest =>
    (e == 'e' || e == 'E') &&
      let digits := match rest with
        | '+' :: more => more
        | '-' :: more => more
        | more => more
      !digits.isEmpty && digits.all Char.isDigit

/-- An unsigned decimal numeral with an optional fraction and exponent. -/
def isDecimal (text : List Char) : Bool :=
  let whole := text.takeWhile Char.isDigit
  match text.dropWhile Char.isDigit with
  | '.' :: rest =>
    let fraction := rest.takeWhile Char.isDigit
    !(whole.isEmpty && fraction.isEmpty) && isExponentPart (rest.dropWhile Char.isDigit)
  | rest => !whole.isEmpty && isExponentPart rest

/-- The words that stand for a number without digits, in lower case. -/
def numberWords : List (List Char) :=
  [['i', 'n', 'f'], ['i', 'n', 'f', 'i', 'n', 'i', 't', 'y'], ['n', 'a', 'n']]

/-- A decimal numeral or a number word, with an optional sign. -/
def isNumber (text : List Char) : Bool :=
  let unsigned := match text with
    | '+' :: rest => rest
    | '-' :: rest => rest
    | rest => rest
  isDecimal unsigned || numberWords.contains (unsigned.map Char.toLower)

/-- One sign, optional white space, and the text of a number. -/
def isSignedNumber : List Char → Bool
  | '-' :: rest => isNumber (trimLeft rest)
  | '+' :: rest => isNumber (trimLeft rest)
  | _ => false

end ApiDocs.Text
