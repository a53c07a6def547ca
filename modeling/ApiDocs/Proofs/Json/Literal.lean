import ApiDocs.Json.Printer
import ApiDocs.Json.Reader

/-!
# Written literals read back

A string literal is read into pieces, and most characters are pieces of their own; only a control
character without a one-letter escape comes back as a code unit.  A number literal ends where no
digit follows.  Both readers **take exactly what was written** and leave the rest.

## Main definitions

* `pieceOf` — the piece as which a written character is read.
* `Delimited` — what may follow a value.

## Main statements

* `readString_flatMap` — a quoted text is read into its pieces.
* `text?_pieceOf`, `keyText?_pieceOf` — the pieces have the text, also in a key.
* `readNumber_toDigits` — a written natural number is read.
-/

namespace ApiDocs.Json

/-! ## Strings -/

/-- The piece as which a written character is read. -/
def pieceOf (c : Char) : Piece :=
  if c.toNat < 0x20 ∧ c ∉ ['\n', '\r', '\t', '\x08', '\x0c'] then .unit c.toNat else .char c

/-- The escape of a control character has its code as value. -/
theorem hexValue?_hexDigit :
    ∀ n < 0x20, hexValue? ['0', '0', hexDigit (n / 16), hexDigit n] = some n := by
  decide

/-- A one-letter escape is read as the character it stands for. -/
theorem readString_escaped {letter c : Char} (names : escaped? letter = some c) (cs : List Char) :
    readString ('\\' :: letter :: cs) =
      (readString cs).map fun (pieces, rest) => (.char c :: pieces, rest) := by
  rw [readString.eq_def]
  split
  case h_4 same =>
    obtain ⟨rfl, rfl⟩ := List.cons.inj (List.cons.inj same).2
    rw [names]
    cases readString cs <;> rfl
  case h_3 same =>
    -- Four digits belong to the letter `u`, and that letter alone stands for nothing.
    obtain rfl : letter = 'u' := (List.cons.inj (List.cons.inj same).2).1
    cases names
  case h_5 other same =>
    obtain ⟨rfl, rfl⟩ := List.cons.inj same
    exact absurd rfl (other letter cs rfl)
  all_goals simp_all

/-- A character that is written as it is. -/
theorem readString_cons {c : Char} (noMark : c ≠ '"') (noEscape : c ≠ '\\')
    (noControl : ¬c.toNat < 0x20) (cs : List Char) :
    readString (c :: cs) =
      (readString cs).map fun (pieces, rest) => (.char c :: pieces, rest) := by
  rw [readString.eq_def]
  split
  case h_5 same =>
    obtain ⟨rfl, rfl⟩ := List.cons.inj same
    rw [if_neg noControl]
  all_goals simp_all

/-- What is written for a character is read as its piece. -/
theorem readString_escapeChar (c : Char) (cs : List Char) :
    readString (escapeChar c ++ cs) =
      (readString cs).map fun (pieces, rest) => (pieceOf c :: pieces, rest) := by
  rw [escapeChar]
  -- Seven characters have an escape of one letter.
  iterate 7
    split
    · rename_i same
      subst same
      exact readString_escaped rfl cs
  rename_i noMark noSlash noFeed noReturn noTab noBack noForm
  split
  · rename_i control
    have piece : pieceOf c = .unit c.toNat := by
      simp [pieceOf, noFeed, noReturn, noTab, noBack, noForm, control]
    simp only [List.cons_append, List.nil_append, readString, hexValue?_hexDigit c.toNat control,
      piece]
    cases readString cs <;> rfl
  · rename_i noControl
    have piece : pieceOf c = .char c := if_neg fun both => noControl both.1
    rw [piece]
    exact readString_cons noMark noSlash noControl cs

/-- What is written between quotation marks is read up to the closing one. -/
theorem readString_flatMap (text rest : List Char) :
    readString (text.flatMap escapeChar ++ '"' :: rest) = some (text.map pieceOf, rest) := by
  induction text with
  | nil => rfl
  | cons c text ih =>
      rw [List.flatMap_cons, List.append_assoc, readString_escapeChar, ih]
      rfl

/-- A control character is no surrogate, so its unit is read alone. -/
theorem join_pieceOf (pair : Pairing) (c : Char) (rest : List Piece) :
    Piece.join pair (pieceOf c :: rest) = (Piece.join pair rest).map (c :: ·) := by
  rw [pieceOf]
  split
  · rename_i control
    obtain ⟨control, -⟩ := control
    have noHigh : isHighSurrogate c.toNat = false := by simp [isHighSurrogate]; omega
    have noLow : isLowSurrogate c.toNat = false := by simp [isLowSurrogate]; omega
    cases rest with
    | nil => simp [Piece.join, noHigh, noLow, Char.ofNat_toNat]
    | cons next rest => cases next <;> simp [Piece.join, noHigh, noLow, Char.ofNat_toNat]
  · simp [Piece.join]

theorem text?_pieceOf (pair : Pairing) (text : String) :
    Piece.text? pair (text.toList.map pieceOf) = some text := by
  have join : ∀ list : List Char, Piece.join pair (list.map pieceOf) = some list := by
    intro list
    induction list with
    | nil => rfl
    | cons c list ih => rw [List.map_cons, join_pieceOf, ih, Option.map_some]
  rw [Piece.text?, join, Option.map_some, String.ofList_toList]

/-- No digit is written as an escape, so a key has the same pieces. -/
theorem keyText?_pieceOf (pair : Pairing) (key : String) :
    Piece.keyText? pair (key.toList.map pieceOf) = some key := by
  have inKey : ∀ c, (pieceOf c).inKey = [pieceOf c] := by
    intro c
    rw [pieceOf]
    split
    · rename_i control
      have noDigit : c.isDigit = false := by
        rw [Bool.eq_false_iff]
        intro isDigit
        have low : 48 ≤ c.toNat := (Char.isDigit_iff_toNat.1 isDigit).1
        omega
      simp [Piece.inKey, noDigit, Char.ofNat_toNat]
    · rfl
  have same : (key.toList.map pieceOf).flatMap Piece.inKey = key.toList.map pieceOf := by
    simp only [List.flatMap_map, inKey]
    exact List.map_eq_flatMap.symm
  rw [Piece.keyText?, same, text?_pieceOf]

/-! ## Numbers -/

/-- What may follow a value: a separator, a closing bracket, a blank, or nothing. -/
def Delimited (rest : List Char) : Prop :=
  ∀ c, rest.head? = some c → c ∈ [',', ']', '\x7d', ' ', '\n', '\t', '\r']

/-- What may follow a value does not go on with a number. -/
theorem Delimited.noNumber {c : Char} {rest : List Char} (delimited : Delimited (c :: rest)) :
    c.isDigit = false ∧ c ≠ '.' ∧ c ≠ 'e' ∧ c ≠ 'E' := by
  have listed := delimited c rfl
  simp only [List.mem_cons, List.not_mem_nil, or_false] at listed
  rcases listed with rfl | rfl | rfl | rfl | rfl | rfl | rfl <;> decide

theorem exists_toDigits_cons (n : Nat) :
    ∃ first others, Nat.toDigits 10 n = first :: others ∧ first.isDigit = true := by
  cases digits : Nat.toDigits 10 n with
  | nil => exact absurd digits Nat.toDigits_ne_nil
  | cons first others =>
      have member : first ∈ Nat.toDigits 10 n := digits ▸ List.mem_cons_self ..
      exact ⟨first, others, rfl, Nat.isDigit_of_mem_toDigits (by decide) (by decide) member⟩

/-- Only zero is written with a zero in front. -/
theorem head?_toDigits_ne {n : Nat} (positive : 0 < n) : (Nat.toDigits 10 n).head? ≠ some '0' := by
  induction n using Nat.strongRecOn with
  | ind n ih =>
      rw [Nat.toDigits_eq_if (by decide)]
      split
      · rename_i small
        have single : ∀ k < 10, 0 < k → [k.digitChar].head? ≠ some '0' := by decide
        exact single n small positive
      · rename_i large
        have earlier := ih (n / 10) (by omega) (by omega)
        obtain ⟨first, others, front, -⟩ := exists_toDigits_cons (n / 10)
        rw [front] at earlier ⊢
        exact earlier

theorem decimalValue_toDigits (n : Nat) : decimalValue (Nat.toDigits 10 n) = n := by
  have value : Nat.ofDigitChars 10 (Nat.toDigits 10 n) 0 = n :=
    Nat.ofDigitChars_toDigits (by decide) (by decide)
  rw [Nat.ofDigitChars_eq_foldl] at value
  simpa only [decimalValue, Nat.mul_comm] using value

/-- The digits of a number are read up to the first other character. -/
theorem readWhole_toDigits (n : Nat) {rest : List Char}
    (ends : ∀ c, rest.head? = some c → c.isDigit = false) :
    readWhole (Nat.toDigits 10 n ++ rest) = some (Nat.toDigits 10 n, rest) := by
  have digits : ∀ c ∈ Nat.toDigits 10 n, c.isDigit = true :=
    fun c member => Nat.isDigit_of_mem_toDigits (by decide) (by decide) member
  have split : (Nat.toDigits 10 n ++ rest).takeWhile Char.isDigit = Nat.toDigits 10 n ∧
      (Nat.toDigits 10 n ++ rest).dropWhile Char.isDigit = rest := by
    rw [List.takeWhile_append_of_pos digits, List.dropWhile_append_of_pos digits]
    cases rest with
    | nil => exact ⟨List.append_nil _, rfl⟩
    | cons c rest => simp [ends c rfl]
  obtain ⟨first, others, cons, -⟩ := exists_toDigits_cons n
  rw [readWhole, readDigits, split.1, split.2, cons]
  dsimp only
  split
  · rename_i second more _ same
    obtain ⟨⟨rfl, rfl⟩, -⟩ : (first = '0' ∧ others = second :: more) ∧ _ := by simpa using same
    rcases Nat.eq_zero_or_pos n with rfl | positive
    · cases cons
    · exact absurd (by rw [cons, List.head?_cons]) (head?_toDigits_ne positive)
  · rfl

/-- A written natural number is read, if no digit, point or exponent follows. -/
theorem readNumber_toDigits (n : Nat) {rest : List Char} (delimited : Delimited rest) :
    readNumber (Nat.toDigits 10 n ++ rest) = some (nat n, rest) := by
  have ends : ∀ c, rest.head? = some c → c.isDigit = false := by
    intro c first
    cases rest with
    | nil => cases first
    | cons head rest =>
        obtain rfl := Option.some.inj first
        exact delimited.noNumber.1
  have fraction : readFraction rest = some ([], rest) := by
    rw [readFraction.eq_def]
    split
    · exact absurd rfl delimited.noNumber.2.1
    · rfl
  have exponent : readExponent rest = some ([], rest) := by
    cases rest with
    | nil => rfl
    | cons head rest =>
        obtain ⟨-, -, noSmall, noLarge⟩ := delimited.noNumber
        rw [readExponent.eq_def]
        exact if_neg (by rintro (isSmall | isLarge) <;> contradiction)
  have unsigned : readUnsigned (Nat.toDigits 10 n ++ rest) =
      some ((Nat.toDigits 10 n, []), rest) := by
    simp [readUnsigned, readWhole_toDigits n ends, fraction, exponent]
  rw [readNumber.eq_def]
  split
  · rename_i same
    obtain ⟨first, others, digits, isDigit⟩ := exists_toDigits_cons n
    rw [digits] at same
    obtain rfl : first = '-' := (List.cons.inj same).1
    cases isDigit
  · rw [unsigned, Option.map_some]
    dsimp only
    rw [decimalValue_toDigits]

end ApiDocs.Json
