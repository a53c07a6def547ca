import ApiDocs.Proofs.Json.RoundTrip
import Mathlib.Data.List.Forall2

/-!
# The grammar of documents

That a text reads back says what *one* reader makes of it.  The grammar says what any reader has to
make of it: `Spells document text` relates a document to the texts that spell it, by the rules of
strict JSON and with no mention of a printer or a reader.

## Main definitions

* `SpellsChar`, `SpellsText` — what may be written for a character in a string literal, and for a
  text.
* `Spells`, `SpellsItems`, `SpellsFields` — the texts of values, of the items of an array and of the
  pairs of an object.

## Main statements

* `spellsChar_escapeChar` — the printer writes each character in one of the forms of the grammar.
* `Plain.spells_printAt` — every plain document is printed as a text that spells it, in any layout
  of blanks.
-/

namespace ApiDocs.Json

/-! ## Rules -/

/-- The escapes of one letter, with the characters they stand for. -/
def letterEscapes : List (Char × Char) :=
  [('"', '"'), ('\\', '\\'), ('/', '/'), ('b', '\x08'), ('f', '\x0c'), ('n', '\n'), ('r', '\r'),
    ('t', '\t')]

/-- What may be written for a character in a string literal: a control character has to be escaped,
and so have the quotation mark and the backslash. -/
inductive SpellsChar : Char → List Char → Prop
  | itself {c : Char} (noControl : 0x20 ≤ c.toNat) (noMark : c ≠ '"') (noSlash : c ≠ '\\') :
      SpellsChar c [c]
  | letter {c letter : Char} (names : (letter, c) ∈ letterEscapes) : SpellsChar c ['\\', letter]
  | unit {c : Char} {digits : List Char} (four : digits.length = 4)
      (names : hexValue? digits = some c.toNat) : SpellsChar c ('\\' :: 'u' :: digits)

/-- What may be written for a text: each of its characters, between quotation marks. -/
inductive SpellsText : String → List Char → Prop
  | literal {text : String} {escapes : List (List Char)}
      (each : List.Forall₂ SpellsChar text.toList escapes) :
      SpellsText text ('"' :: (escapes.flatten ++ ['"']))

/-- Nothing but the blanks that may stand between tokens. -/
def Blanks (cs : List Char) : Prop :=
  ∀ c ∈ cs, c ∈ [' ', '\n', '\t', '\r']

mutual

/-- What may be written for a value. -/
inductive Spells : Json → List Char → Prop
  | null : Spells null ['n', 'u', 'l', 'l']
  | true : Spells (bool true) ['t', 'r', 'u', 'e']
  | false : Spells (bool false) ['f', 'a', 'l', 's', 'e']
  | nat (n : Nat) : Spells (nat n) (Nat.toDigits 10 n)
  | string {text : String} {cs : List Char} (literal : SpellsText text cs) :
      Spells (string text) cs
  | noItems {blanks : List Char} (blank : Blanks blanks) :
      Spells (array []) ('[' :: (blanks ++ [']']))
  | array {items : List Json} {cs : List Char} (contents : SpellsItems items cs) :
      Spells (array items) ('[' :: (cs ++ [']']))
  | noFields {blanks : List Char} (blank : Blanks blanks) :
      Spells (object []) ('\x7b' :: (blanks ++ ['\x7d']))
  | object {fields : List (String × Json)} {cs : List Char} (contents : SpellsFields fields cs) :
      Spells (object fields) ('\x7b' :: (cs ++ ['\x7d']))

/-- What may be written for the items of an array: commas stand between them, and blanks around
each of them. -/
inductive SpellsItems : List Json → List Char → Prop
  | last {item : Json} {before cs after : List Char} (blankBefore : Blanks before)
      (value : Spells item cs) (blankAfter : Blanks after) :
      SpellsItems [item] (before ++ (cs ++ after))
  | next {item : Json} {items : List Json} {before cs after rest : List Char}
      (blankBefore : Blanks before) (value : Spells item cs) (blankAfter : Blanks after)
      (others : SpellsItems items rest) :
      SpellsItems (item :: items) (before ++ (cs ++ (after ++ ',' :: rest)))

/-- What may be written for the pairs of an object: a string literal, a colon and a value each. -/
inductive SpellsFields : List (String × Json) → List Char → Prop
  | last {key : String} {item : Json} {before name between colon cs after : List Char}
      (blankBefore : Blanks before) (literal : SpellsText key name) (blankBetween : Blanks between)
      (blankColon : Blanks colon) (value : Spells item cs) (blankAfter : Blanks after) :
      SpellsFields [(key, item)]
        (before ++ (name ++ (between ++ ':' :: (colon ++ (cs ++ after)))))
  | next {key : String} {item : Json} {fields : List (String × Json)}
      {before name between colon cs after rest : List Char}
      (blankBefore : Blanks before) (literal : SpellsText key name) (blankBetween : Blanks between)
      (blankColon : Blanks colon) (value : Spells item cs) (blankAfter : Blanks after)
      (others : SpellsFields fields rest) :
      SpellsFields ((key, item) :: fields)
        (before ++ (name ++ (between ++ ':' :: (colon ++ (cs ++ (after ++ ',' :: rest))))))

end

/-! ## What the printer writes -/

/-- The printer escapes a character only where it has to, with a letter where there is one. -/
theorem spellsChar_escapeChar (c : Char) : SpellsChar c (escapeChar c) := by
  rw [escapeChar]
  iterate 7
    split
    · rename_i same
      subst same
      exact .letter (by decide)
  rename_i noMark noSlash _ _ _ _ _
  split
  · rename_i control
    exact .unit rfl (hexValue?_hexDigit c.toNat control)
  · rename_i noControl
    exact .itself (Nat.le_of_not_lt noControl) noMark noSlash

theorem spellsText_quote (text : String) : SpellsText text (quote text) := by
  rw [quote, List.flatMap_def]
  refine .literal ?_
  rw [List.forall₂_map_right_iff, List.forall₂_same]
  exact fun c _ => spellsChar_escapeChar c

theorem blanks_nil : Blanks [] :=
  fun _ member => (List.not_mem_nil member).elim

theorem blanks_of_isSpace {cs : List Char} (each : ∀ c ∈ cs, isSpace c = true) : Blanks cs := by
  intro c member
  have isBlank := each c member
  simp only [isSpace, Bool.or_eq_true, beq_iff_eq] at isBlank
  simp only [List.mem_cons, List.not_mem_nil, or_false]
  tauto

section

variable {layout : Layout} (isBlank : layout.IsBlank)
include isBlank

/-- The items of an array, with the blanks around them. -/
theorem spellsItems_print (depth : Nat) (items : List Json) :
    ∀ {item : Json}, Spells item (printAt layout (depth + 1) item) →
      (∀ other ∈ items, Spells other (printAt layout (depth + 1) other)) →
      SpellsItems (item :: items) (layout.gap (depth + 1) ++ (printAt layout (depth + 1) item ++
        (printItems layout depth items ++ layout.gap depth))) := by
  have gap (depth : Nat) : Blanks (layout.gap depth) := blanks_of_isSpace (isBlank.gap depth)
  induction items with
  | nil =>
      intro item spells _
      exact .last (gap _) spells (gap _)
  | cons next items ih =>
      intro item spells each
      obtain ⟨spellsNext, spellsLater⟩ := List.forall_mem_cons.1 each
      have others := ih spellsNext spellsLater
      have contents := SpellsItems.next (gap (depth + 1)) spells blanks_nil others
      simpa [printItems, List.append_assoc] using contents

/-- The pairs of an object, with the blanks around them. -/
theorem spellsFields_print (depth : Nat) (fields : List (String × Json)) :
    ∀ (key : String) {item : Json}, Spells item (printAt layout (depth + 1) item) →
      (∀ other ∈ fields, Spells other.2 (printAt layout (depth + 1) other.2)) →
      SpellsFields ((key, item) :: fields) (layout.gap (depth + 1) ++ (quote key ++
        (layout.colon ++ (printAt layout (depth + 1) item ++
          (printFields layout depth fields ++ layout.gap depth))))) := by
  have gap (depth : Nat) : Blanks (layout.gap depth) := blanks_of_isSpace (isBlank.gap depth)
  obtain ⟨blanks, colon, blank⟩ := isBlank.colon
  have afterColon : Blanks blanks := blanks_of_isSpace blank
  rw [colon]
  induction fields with
  | nil =>
      intro key item spells _
      exact .last (gap _) (spellsText_quote key) blanks_nil afterColon spells (gap _)
  | cons next fields ih =>
      obtain ⟨nextKey, nextItem⟩ := next
      intro key item spells each
      obtain ⟨spellsNext, spellsLater⟩ := List.forall_mem_cons.1 each
      have others := ih nextKey spellsNext spellsLater
      have contents := SpellsFields.next (gap (depth + 1)) (spellsText_quote key) blanks_nil
        afterColon spells blanks_nil others
      simpa [printFields, colon, List.append_assoc] using contents

/-- **Every plain document is printed as a text that spells it**, by induction on its structure. -/
theorem Plain.spells_printAt {document : Json} (plain : Plain document) :
    ∀ depth, Spells document (printAt layout depth document) := by
  induction plain with
  | null => exact fun _ => .null
  | bool value =>
      cases value with
      | true => exact fun _ => .true
      | false => exact fun _ => .false
  | nat n => exact fun _ => .nat n
  | string text => exact fun _ => .string (spellsText_quote text)
  | @array items _ each =>
      intro depth
      cases items with
      | nil => exact .noItems blanks_nil
      | cons item items =>
          obtain ⟨first, others⟩ := List.forall_mem_cons.1 each
          have contents := spellsItems_print isBlank depth items (first _) fun other member =>
            others other member _
          simpa [printAt, List.append_assoc] using Spells.array contents
  | @object fields _ each =>
      intro depth
      cases fields with
      | nil => exact .noFields blanks_nil
      | cons field fields =>
          obtain ⟨key, item⟩ := field
          obtain ⟨first, others⟩ := List.forall_mem_cons.1 each
          have contents := spellsFields_print isBlank depth fields key (first _)
            fun other member => others other member _
          simpa [printAt, List.append_assoc] using Spells.object contents

end

end ApiDocs.Json
