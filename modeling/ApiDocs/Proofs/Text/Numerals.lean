import ApiDocs.Text.Numeral
import Mathlib.Data.List.Basic

/-!
# The texts of signed numbers

A sign before a numeral makes a number literal.  What may follow the sign is checked by a reader of
floating-point numbers, and such a reader takes more than numerals: it takes **a sign of its own**,
and it takes **words** for infinity and for "not a number", which are identifiers elsewhere.  Here
the texts that pass the check are described by a grammar, with the numerals and the rest apart.

## Main definitions

* `Numeral` — digits with an optional fraction and an optional exponent.
* `Pseudonumeral` — a word for a number, or a number with a sign, where a numeral is expected.
* `Signed` — a sign, white space and an operand.
* `SignedNumeral`, `Misread` — the operand is a numeral, or is only taken for one.

## Main statements

* `isDecimal_iff`, `isNumber_iff` — what the two readers accept.
* `Signed.exists_iff` — a text has at most one operand.
* `isSignedNumber_iff` — the texts that pass for signed numbers.
* `Misread.not_signedNumeral` — no text is of both kinds.
-/

namespace ApiDocs.Text

/-! ## Numerals -/

/-- A text of decimal digits, possibly empty. -/
def Digits (text : List Char) : Prop :=
  ∀ c ∈ text, c.isDigit = true

/-- A plus or minus sign. -/
def IsSign (c : Char) : Prop :=
  c = '+' ∨ c = '-'

/-- An optional exponent: the letter `e` in either case, an optional sign, and digits. -/
inductive Exponent : List Char → Prop
  | absent : Exponent []
  | unsigned {mark : Char} {digits : List Char} (isMark : mark = 'e' ∨ mark = 'E')
      (nonempty : digits ≠ []) (isDigits : Digits digits) : Exponent (mark :: digits)
  | signed {mark sign : Char} {digits : List Char} (isMark : mark = 'e' ∨ mark = 'E')
      (isSign : IsSign sign) (nonempty : digits ≠ []) (isDigits : Digits digits) :
      Exponent (mark :: sign :: digits)

/-- An unsigned decimal numeral: digits, an optional fraction and an optional exponent.  There is at
least one digit before the exponent, on either side of the point. -/
inductive Numeral : List Char → Prop
  | whole {digits exponent : List Char} (nonempty : digits ≠ []) (isDigits : Digits digits)
      (isExponent : Exponent exponent) : Numeral (digits ++ exponent)
  | fraction {digits places exponent : List Char} (nonempty : digits ≠ [] ∨ places ≠ [])
      (isDigits : Digits digits) (arePlaces : Digits places) (isExponent : Exponent exponent) :
      Numeral (digits ++ '.' :: (places ++ exponent))

/-- A text without the sign that it starts with, if it starts with one. -/
def afterSign : List Char → List Char
  | '+' :: rest => rest
  | '-' :: rest => rest
  | rest => rest

theorem afterSign_cons {sign : Char} (isSign : IsSign sign) (rest : List Char) :
    afterSign (sign :: rest) = rest := by
  rcases isSign with rfl | rfl <;> rfl

theorem afterSign_of_unsigned {text : List Char} (unsigned : ∀ c ∈ text.head?, ¬IsSign c) :
    afterSign text = text := by
  unfold afterSign
  split
  · exact (unsigned '+' rfl (.inl rfl)).elim
  · exact (unsigned '-' rfl (.inr rfl)).elim
  · rfl

/-- A text starts with a sign, or nothing is taken away from it. -/
theorem afterSign_cases (text : List Char) :
    (∃ sign, IsSign sign ∧ text = sign :: afterSign text) ∨ afterSign text = text := by
  unfold afterSign
  split
  · exact .inl ⟨'+', .inl rfl, rfl⟩
  · exact .inl ⟨'-', .inr rfl, rfl⟩
  · exact .inr rfl

theorem not_isDigit_of_isSign {c : Char} (isSign : IsSign c) : c.isDigit = false := by
  rcases isSign with rfl | rfl <;> decide

theorem isExponentPart_iff (text : List Char) : isExponentPart text = true ↔ Exponent text := by
  cases text with
  | nil => exact iff_of_true rfl .absent
  | cons mark rest =>
      have accepted : isExponentPart (mark :: rest) = true ↔
          (mark = 'e' ∨ mark = 'E') ∧ afterSign rest ≠ [] ∧ Digits (afterSign rest) := by
        show ((mark == 'e' || mark == 'E') &&
          (!(afterSign rest).isEmpty && (afterSign rest).all Char.isDigit)) = true ↔ _
        simp [Digits]
      rw [accepted]
      constructor
      · rintro ⟨isMark, nonempty, isDigits⟩
        rcases afterSign_cases rest with ⟨sign, isSign, whole⟩ | same
        · rw [whole]
          exact .signed isMark isSign nonempty isDigits
        · rw [same] at nonempty isDigits
          exact .unsigned isMark nonempty isDigits
      · intro exponent
        cases exponent with
        | unsigned isMark nonempty isDigits =>
            have same : afterSign rest = rest := by
              refine afterSign_of_unsigned fun c isFirst isSign => ?_
              have digit := isDigits c (List.mem_of_mem_head? isFirst)
              rw [not_isDigit_of_isSign isSign] at digit
              cases digit
            rw [same]
            exact ⟨isMark, nonempty, isDigits⟩
        | signed isMark isSign nonempty isDigits =>
            rw [afterSign_cons isSign]
            exact ⟨isMark, nonempty, isDigits⟩

/-- Digits end where something else starts. -/
theorem takeWhile_digits {digits rest : List Char} (isDigits : Digits digits)
    (stops : ∀ c ∈ rest.head?, c.isDigit = false) :
    (digits ++ rest).takeWhile Char.isDigit = digits ∧
      (digits ++ rest).dropWhile Char.isDigit = rest := by
  rw [List.takeWhile_append_of_pos isDigits, List.dropWhile_append_of_pos isDigits]
  cases rest with
  | nil => simp
  | cons c rest => simp [stops c rfl]

theorem digits_takeWhile (text : List Char) : Digits (text.takeWhile Char.isDigit) :=
  List.all_eq_true.1 List.all_takeWhile

theorem Exponent.stops {text : List Char} (exponent : Exponent text) :
    ∀ c ∈ text.head?, c.isDigit = false ∧ c ≠ '.' := by
  intro c isFirst
  cases exponent with
  | absent => cases isFirst
  | unsigned isMark =>
      cases isFirst
      rcases isMark with rfl | rfl <;> decide
  | signed isMark =>
      cases isFirst
      rcases isMark with rfl | rfl <;> decide

/-- **What is accepted as a decimal numeral.** -/
theorem isDecimal_iff (text : List Char) : isDecimal text = true ↔ Numeral text := by
  constructor
  · intro accepted
    have whole := List.takeWhile_append_dropWhile (p := Char.isDigit) (l := text)
    unfold isDecimal at accepted
    split at accepted
    · rename_i rest isPoint
      simp only [Bool.and_eq_true, Bool.not_eq_true', Bool.and_eq_false_iff,
        List.isEmpty_eq_false_iff, isExponentPart_iff] at accepted
      rw [← whole, isPoint, ← List.takeWhile_append_dropWhile (p := Char.isDigit) (l := rest)]
      exact .fraction accepted.1 (digits_takeWhile text) (digits_takeWhile rest) accepted.2
    · simp only [Bool.and_eq_true, Bool.not_eq_true', List.isEmpty_eq_false_iff,
        isExponentPart_iff] at accepted
      rw [← whole]
      exact .whole accepted.1 (digits_takeWhile text) accepted.2
  · intro numeral
    unfold isDecimal
    cases numeral with
    | whole nonempty isDigits isExponent =>
        obtain ⟨digits, rest⟩ :=
          takeWhile_digits isDigits fun c isFirst => (isExponent.stops c isFirst).1
        rw [digits, rest]
        split
        · exact ((isExponent.stops '.' rfl).2 rfl).elim
        · simp [nonempty, isExponentPart_iff, isExponent]
    | @fraction before places exponent nonempty isDigits arePlaces isExponent =>
        have point : ∀ c ∈ ('.' :: (places ++ exponent)).head?, c.isDigit = false := by
          rintro c ⟨⟩
          decide
        obtain ⟨digits, rest⟩ := takeWhile_digits isDigits point
        obtain ⟨digitsToo, restToo⟩ :=
          takeWhile_digits arePlaces fun c isFirst => (isExponent.stops c isFirst).1
        rw [digits, rest]
        simp only [digitsToo, restToo]
        simp [nonempty, isExponentPart_iff, isExponent]

instance : DecidablePred Numeral :=
  fun text => decidable_of_iff _ (isDecimal_iff text)

/-! ## Words and signs -/

/-- A word for a number without digits, in any case of its letters. -/
def NumberWord (text : List Char) : Prop :=
  text.map Char.toLower ∈ numberWords

instance : DecidablePred NumberWord :=
  fun text => inferInstanceAs (Decidable (text.map Char.toLower ∈ numberWords))

/-- The text of a number without a sign. -/
def Unsigned (text : List Char) : Prop :=
  Numeral text ∨ NumberWord text

theorem toLower_of_low {c : Char} (low : c.toNat < 65 ∨ 90 < c.toNat) : c.toLower = c := by
  unfold Char.toLower
  rw [dif_neg]
  intro upper
  simp only [UInt32.le_iff_toNat_le, ge_iff_le] at upper
  change 65 ≤ c.toNat ∧ c.toNat ≤ 90 at upper
  omega

theorem toNat_of_isDigit {c : Char} (digit : c.isDigit = true) : 48 ≤ c.toNat ∧ c.toNat ≤ 57 := by
  simp only [Char.isDigit, Bool.and_eq_true, decide_eq_true_eq, UInt32.le_iff_toNat_le,
    ge_iff_le] at digit
  exact digit

theorem toNat_of_isBlank {c : Char} (blank : isBlank c = true) : c.toNat ≤ 32 ∨ 133 ≤ c.toNat := by
  simp only [isBlank, Bool.or_eq_true, Bool.and_eq_true, decide_eq_true_eq, beq_iff_eq] at blank
  omega

/-- A numeral starts with a digit or a point. -/
theorem Numeral.first {text : List Char} (numeral : Numeral text) :
    ∃ c rest, text = c :: rest ∧ (c.isDigit = true ∨ c = '.') := by
  cases numeral with
  | whole nonempty isDigits isExponent =>
      obtain ⟨c, digits, rfl⟩ := List.exists_cons_of_ne_nil nonempty
      exact ⟨c, _, rfl, .inl (isDigits c List.mem_cons_self)⟩
  | @fraction digits places exponent _ isDigits =>
      cases digits with
      | nil => exact ⟨'.', _, rfl, .inr rfl⟩
      | cons c digits => exact ⟨c, _, rfl, .inl (isDigits c List.mem_cons_self)⟩

theorem Numeral.toNat_first {c : Char} {rest : List Char} (numeral : Numeral (c :: rest)) :
    46 ≤ c.toNat ∧ c.toNat ≤ 57 := by
  obtain ⟨first, others, whole, digit | rfl⟩ := numeral.first
  · have range := toNat_of_isDigit digit
    cases whole
    omega
  · cases whole
    decide

/-- A word starts with a letter. -/
theorem NumberWord.first {text : List Char} (word : NumberWord text) :
    ∃ c rest, text = c :: rest ∧ 65 ≤ c.toNat ∧ c.toNat ≤ 132 := by
  cases text with
  | nil => simp [NumberWord, numberWords] at word
  | cons c rest =>
      have letter : c.toLower = 'i' ∨ c.toLower = 'n' := by
        simp only [NumberWord, numberWords, List.map_cons, List.mem_cons, List.cons.injEq] at word
        tauto
      refine ⟨c, rest, rfl, ?_⟩
      by_contra outside
      rw [toLower_of_low (by omega)] at letter
      rcases letter with rfl | rfl
      · exact outside (by decide)
      · exact outside (by decide)

theorem Unsigned.first {text : List Char} (unsigned : Unsigned text) :
    ∃ c rest, text = c :: rest ∧ 46 ≤ c.toNat ∧ c.toNat ≤ 132 := by
  rcases unsigned with numeral | word
  · obtain ⟨c, rest, rfl, -⟩ := numeral.first
    have range := numeral.toNat_first
    exact ⟨c, rest, rfl, by omega⟩
  · obtain ⟨c, rest, whole, range⟩ := word.first
    exact ⟨c, rest, whole, by omega⟩

/-- A text that is taken for a number though it is no numeral: a word, or a number with a sign of
its own. -/
def Pseudonumeral (text : List Char) : Prop :=
  NumberWord text ∨ ∃ sign rest, IsSign sign ∧ text = sign :: rest ∧ Unsigned rest

/-- **What is accepted as a number.** -/
theorem isNumber_iff (text : List Char) :
    isNumber text = true ↔ Numeral text ∨ Pseudonumeral text := by
  have accepted : isNumber text = true ↔ Unsigned (afterSign text) := by
    show (isDecimal (afterSign text) ||
      numberWords.contains ((afterSign text).map Char.toLower)) = true ↔ _
    rw [Bool.or_eq_true, isDecimal_iff, List.contains_iff_mem]
    rfl
  have kept : Unsigned text → Unsigned (afterSign text) := by
    intro unsigned
    rwa [afterSign_of_unsigned]
    obtain ⟨c, rest, rfl, range⟩ := unsigned.first
    rintro first ⟨⟩ isSign
    rcases isSign with rfl | rfl
    · exact absurd range (by decide)
    · exact absurd range (by decide)
  rw [accepted]
  constructor
  · intro unsigned
    rcases afterSign_cases text with ⟨sign, isSign, whole⟩ | same
    · exact .inr (.inr ⟨sign, _, isSign, whole, unsigned⟩)
    · rw [same] at unsigned
      exact unsigned.imp_right .inl
  · rintro (numeral | word | ⟨sign, rest, isSign, rfl, unsigned⟩)
    · exact kept (.inl numeral)
    · exact kept (.inr word)
    · rwa [afterSign_cons isSign]

/-- The text of a number does not start with white space. -/
theorem isNumber_solid {text : List Char} (number : isNumber text = true) :
    ∀ c ∈ text.head?, isBlank c = false := by
  have solid : Unsigned text → ∀ c ∈ text.head?, isBlank c = false := by
    intro unsigned
    obtain ⟨first, rest, rfl, range⟩ := unsigned.first
    rintro c ⟨⟩
    rw [Bool.eq_false_iff]
    intro blank
    have outside := toNat_of_isBlank blank
    omega
  rcases (isNumber_iff text).1 number with numeral | word | ⟨sign, rest, isSign, rfl, -⟩
  · exact solid (.inl numeral)
  · exact solid (.inr word)
  · rintro c ⟨⟩
    rcases isSign with rfl | rfl <;> decide

/-! ## Signed texts -/

/-- A text that is a sign, white space and an operand. -/
def Signed (text operand : List Char) : Prop :=
  ∃ sign blanks, IsSign sign ∧ (∀ c ∈ blanks, isBlank c = true) ∧
    text = sign :: (blanks ++ operand)

/-- A sign, optional white space and an unsigned decimal numeral, and nothing else. -/
def SignedNumeral (text : List Char) : Prop :=
  ∃ operand, Signed text operand ∧ Numeral operand

/-- A sign and white space before something that is only taken for a number. -/
def Misread (text : List Char) : Prop :=
  ∃ operand, Signed text operand ∧ Pseudonumeral operand

/-- The operand of a text is found by leaving out the sign and the white space. -/
theorem Signed.operand_eq {text operand : List Char} (signed : Signed text operand)
    (solid : ∀ c ∈ operand.head?, isBlank c = false) : trimLeft text.tail = operand := by
  obtain ⟨sign, blanks, -, areBlank, rfl⟩ := signed
  rw [List.tail_cons, trimLeft, List.dropWhile_append_of_pos areBlank]
  cases operand with
  | nil => rfl
  | cons c operand => simp [solid c rfl]

/-- **A text has at most one operand**, so what holds of an operand holds of the one at hand. -/
theorem Signed.exists_iff {text operand : List Char} (signed : Signed text operand)
    (solid : ∀ c ∈ operand.head?, isBlank c = false) {holds : List Char → Prop}
    (number : ∀ {other}, holds other → isNumber other = true) :
    (∃ other, Signed text other ∧ holds other) ↔ holds operand := by
  constructor
  · rintro ⟨other, signedToo, holdsOther⟩
    have same := signedToo.operand_eq (isNumber_solid (number holdsOther))
    rwa [← signed.operand_eq solid, same]
  · exact fun holdsOperand => ⟨operand, signed, holdsOperand⟩

theorem Signed.signedNumeral_iff {text operand : List Char} (signed : Signed text operand)
    (solid : ∀ c ∈ operand.head?, isBlank c = false) : SignedNumeral text ↔ Numeral operand :=
  signed.exists_iff solid fun numeral => (isNumber_iff _).2 (.inl numeral)

theorem Signed.misread_iff {text operand : List Char} (signed : Signed text operand)
    (solid : ∀ c ∈ operand.head?, isBlank c = false) : Misread text ↔ Pseudonumeral operand :=
  signed.exists_iff solid fun pseudonumeral => (isNumber_iff _).2 (.inr pseudonumeral)

theorem isSignedNumber_cons {sign : Char} (isSign : IsSign sign) (rest : List Char) :
    isSignedNumber (sign :: rest) = isNumber (trimLeft rest) := by
  rcases isSign with rfl | rfl <;> rfl

/-- What passes for a signed number is a sign before what passes for a number. -/
theorem isSignedNumber_iff_operand (text : List Char) :
    isSignedNumber text = true ↔ ∃ operand, Signed text operand ∧ isNumber operand = true := by
  constructor
  · intro accepted
    have split : ∀ {sign rest}, IsSign sign → text = sign :: rest → Signed text (trimLeft rest) :=
      fun isSign whole => ⟨_, _, isSign, List.all_eq_true.1 List.all_takeWhile,
        whole.trans (congrArg _ List.takeWhile_append_dropWhile.symm)⟩
    unfold isSignedNumber at accepted
    split at accepted
    · exact ⟨_, split (.inr rfl) rfl, accepted⟩
    · exact ⟨_, split (.inl rfl) rfl, accepted⟩
    · cases accepted
  · rintro ⟨operand, signed, number⟩
    have trimmed := signed.operand_eq (isNumber_solid number)
    obtain ⟨sign, blanks, isSign, -, rfl⟩ := signed
    rw [List.tail_cons] at trimmed
    rwa [isSignedNumber_cons isSign, trimmed]

/-- **Which texts pass for signed numbers.** -/
theorem isSignedNumber_iff (text : List Char) :
    isSignedNumber text = true ↔ SignedNumeral text ∨ Misread text := by
  simp only [isSignedNumber_iff_operand, isNumber_iff, and_or_left, exists_or, SignedNumeral,
    Misread]

/-- What only passes for a numeral does not start like one. -/
theorem Pseudonumeral.not_numeral {text : List Char} (pseudonumeral : Pseudonumeral text) :
    ¬Numeral text := by
  intro numeral
  rcases pseudonumeral with word | ⟨sign, rest, isSign, rfl, -⟩
  · obtain ⟨letter, rest, rfl, letterRange⟩ := word.first
    have range := numeral.toNat_first
    omega
  · have range := numeral.toNat_first
    rcases isSign with rfl | rfl
    · exact absurd range (by decide)
    · exact absurd range (by decide)

theorem Misread.not_signedNumeral {text : List Char} (misread : Misread text) :
    ¬SignedNumeral text := by
  obtain ⟨operand, signed, pseudonumeral⟩ := misread
  have solid := isNumber_solid ((isNumber_iff operand).2 (.inr pseudonumeral))
  rw [signed.signedNumeral_iff solid]
  exact pseudonumeral.not_numeral

end ApiDocs.Text
