import ApiDocs.Proofs.Json.Literal

/-!
# Written documents read back

The printer puts blanks between tokens as its layout says, and the reader skips them.  So **every
layout spells the same document**, and reading gives it back with nothing lost but the layout.

## Main definitions

* `Plain` — a document that is made of values only: no foreign number literals and nothing
  unreadable.
* `Layout.IsBlank` — a layout that puts nothing but blanks between tokens.
* `ReadsBack` — reading what was written for a document.

## Main statements

* `readItems_print`, `readFields_print` — the contents of arrays and objects read back.
* `Plain.readsBack` — every plain document reads back, by induction on its structure.
* `parse?_print` — a document as text has that document.

## Design notes

**Fuel.**  Reading takes one unit for each value and one for each separator before it, and each of
them was written with a character at least.  So the length of the text is enough, as
`Json.parseChars?` gives it.
-/

namespace ApiDocs.Json

/-- A document that is made of values only. -/
inductive Plain : Json → Prop
  | null : Plain null
  | bool (value : Bool) : Plain (bool value)
  | nat (value : Nat) : Plain (nat value)
  | string (text : String) : Plain (string text)
  | array {items : List Json} (each : ∀ item ∈ items, Plain item) : Plain (array items)
  | object {fields : List (String × Json)} (each : ∀ field ∈ fields, Plain field.2) :
      Plain (object fields)

/-- A layout that puts nothing but blanks between tokens. -/
structure Layout.IsBlank (layout : Layout) : Prop where
  gap : ∀ depth, ∀ c ∈ layout.gap depth, isSpace c = true
  colon : ∃ blanks, layout.colon = ':' :: blanks ∧ ∀ c ∈ blanks, isSpace c = true

theorem Layout.compact_isBlank : Layout.compact.IsBlank where
  gap depth c member := by cases member
  colon := ⟨[], rfl, fun c member => by cases member⟩

theorem Layout.pretty_isBlank : Layout.pretty.IsBlank where
  gap depth c member := by
    rcases List.mem_cons.1 member with rfl | indent
    · rfl
    · rw [List.eq_of_mem_replicate indent]
      rfl
  colon := ⟨[' '], rfl, fun c member => by rw [List.mem_singleton.1 member]; rfl⟩

/-! ## Blanks -/

section

variable {blanks : List Char} (blank : ∀ c ∈ blanks, isSpace c = true)
include blank

theorem skipSpace_append (cs : List Char) : skipSpace (blanks ++ cs) = skipSpace cs :=
  List.dropWhile_append_of_pos blank

theorem readValue_append (fuel : Nat) (cs : List Char) :
    readValue fuel (blanks ++ cs) = readValue fuel cs := by
  cases fuel with
  | zero => simp only [readValue]
  | succ fuel => simp only [readValue, skipSpace_append blank]

theorem readItems_append (fuel : Nat) (cs : List Char) :
    readItems fuel (blanks ++ cs) = readItems fuel cs := by
  cases fuel with
  | zero => simp only [readItems]
  | succ fuel => simp only [readItems, readValue_append blank]

theorem readFields_append (fuel : Nat) (cs : List Char) :
    readFields fuel (blanks ++ cs) = readFields fuel cs := by
  cases fuel with
  | zero => simp only [readFields]
  | succ fuel => simp only [readFields, skipSpace_append blank]

theorem Delimited.afterBlanks {rest : List Char} (delimited : Delimited rest) :
    Delimited (blanks ++ rest) := by
  cases blanks with
  | nil => exact delimited
  | cons first others =>
      intro c isFirst
      obtain rfl := Option.some.inj isFirst
      have isBlank := blank first (List.mem_cons_self ..)
      simp only [isSpace, Bool.or_eq_true, beq_iff_eq] at isBlank
      simp only [List.mem_cons, List.not_mem_nil, or_false]
      grind

end

theorem skipSpace_cons {c : Char} (noBlank : isSpace c = false) (cs : List Char) :
    skipSpace (c :: cs) = c :: cs := by
  simp [skipSpace, noBlank]

theorem delimited_cons {c : Char} (rest : List Char)
    (member : c ∈ [',', ']', '\x7d', ' ', '\n', '\t', '\r']) : Delimited (c :: rest) := by
  intro first isFirst
  obtain rfl := Option.some.inj isFirst
  exact member

/-- An array that is not closed at once has its items read. -/
theorem readValue_array {blanks cs : List Char} {c : Char}
    (blank : ∀ c ∈ blanks, isSpace c = true) (noBlank : isSpace c = false) (noBracket : c ≠ ']')
    (fuel : Nat) :
    readValue (fuel + 1) ('[' :: (blanks ++ c :: cs)) =
      (readItems fuel (c :: cs)).map fun (items, rest) => (array items, rest) := by
  rw [readValue, skipSpace_cons (by decide)]
  simp only [skipSpace_append blank, skipSpace_cons noBlank]
  split
  · rename_i same
    exact absurd (List.cons.inj same).1 noBracket
  · rfl

/-- An object that is not closed at once has its pairs read. -/
theorem readValue_object {blanks : List Char} (blank : ∀ c ∈ blanks, isSpace c = true) (fuel : Nat)
    (cs : List Char) :
    readValue (fuel + 1) ('\x7b' :: (blanks ++ '"' :: cs)) =
      (readFields fuel ('"' :: cs)).map fun (fields, rest) => (ofFields .added fields, rest) := by
  rw [readValue, skipSpace_cons (by decide)]
  simp only [skipSpace_append blank, skipSpace_cons (show isSpace '"' = false by decide)]
  rfl

/-! ## Values -/

/-- What was written for a document at any depth is read as that document. -/
def ReadsBack (layout : Layout) (document : Json) : Prop :=
  ∀ (depth fuel : Nat) (rest : List Char), (printAt layout depth document).length < fuel →
    Delimited rest →
    readValue fuel (printAt layout depth document ++ rest) = some (document, rest)

theorem isSpace_of_isDigit {c : Char} (isDigit : c.isDigit = true) : isSpace c = false := by
  rw [Bool.eq_false_iff]
  intro isBlank
  simp only [isSpace, Bool.or_eq_true, beq_iff_eq] at isBlank
  rcases isBlank with ((rfl | rfl) | rfl) | rfl <;> cases isDigit

/-- A value does not start with a blank, and not with a closing bracket. -/
theorem Plain.exists_printAt {document : Json} (plain : Plain document) (layout : Layout)
    (depth : Nat) :
    ∃ c cs, printAt layout depth document = c :: cs ∧ isSpace c = false ∧ c ≠ ']' := by
  cases plain with
  | null => exact ⟨_, _, rfl, by decide, by decide⟩
  | bool value => cases value <;> exact ⟨_, _, rfl, by decide, by decide⟩
  | nat n =>
      obtain ⟨first, others, digits, isDigit⟩ := exists_toDigits_cons n
      refine ⟨first, others, digits, isSpace_of_isDigit isDigit, ?_⟩
      rintro rfl
      cases isDigit
  | string text => exact ⟨_, _, rfl, by decide, by decide⟩
  | @array items _ => cases items <;> exact ⟨_, _, rfl, by decide, by decide⟩
  | @object fields _ => cases fields <;> exact ⟨_, _, rfl, by decide, by decide⟩

theorem readValue_digit {first : Char} (isDigit : first.isDigit = true) (fuel : Nat)
    (cs : List Char) : readValue (fuel + 1) (first :: cs) = readNumber (first :: cs) := by
  rw [readValue, skipSpace_cons (isSpace_of_isDigit isDigit)]
  split
  case h_7 => rfl
  all_goals
    rename_i same
    obtain rfl := (List.cons.inj same).1
    cases isDigit

theorem quote_append (text : String) (rest : List Char) :
    quote text ++ rest = '"' :: (text.toList.flatMap escapeChar ++ '"' :: rest) := by
  simp [quote]

theorem readsBack_string (layout : Layout) (text : String) : ReadsBack layout (string text) := by
  intro depth fuel rest enough _
  obtain ⟨fuel, rfl⟩ := Nat.exists_eq_succ_of_ne_zero (Nat.ne_of_gt (Nat.zero_lt_of_lt enough))
  rw [printAt, quote_append, readValue, skipSpace_cons (by decide)]
  simp only [readString_flatMap, Option.map_some, ofPieces, text?_pieceOf]

theorem readsBack_nat (layout : Layout) (n : Nat) : ReadsBack layout (nat n) := by
  intro depth fuel rest enough delimited
  obtain ⟨fuel, rfl⟩ := Nat.exists_eq_succ_of_ne_zero (Nat.ne_of_gt (Nat.zero_lt_of_lt enough))
  have number := readNumber_toDigits n delimited
  obtain ⟨first, others, digits, isDigit⟩ := exists_toDigits_cons n
  rw [digits] at number
  rw [printAt, digits, List.cons_append, readValue_digit isDigit]
  exact number

/-! ## Arrays and objects -/

/-- A list is read item by item. -/
theorem mapM_map_eq_some {α β γ : Type} {write : α → β} {read? : β → Option γ} (value : α → γ)
    {list : List α} (each : ∀ item ∈ list, read? (write item) = some (value item)) :
    (list.map write).mapM read? = some (list.map value) := by
  induction list with
  | nil => rfl
  | cons first others ih =>
      obtain ⟨here, later⟩ := List.forall_mem_cons.1 each
      rw [List.map_cons, List.mapM_cons, here, ih later]
      rfl

section

variable {layout : Layout} (isBlank : layout.IsBlank)
include isBlank

theorem delimited_items (depth : Nat) (items : List Json) (rest : List Char) :
    Delimited (printItems layout depth items ++ (layout.gap depth ++ ']' :: rest)) := by
  cases items with
  | nil => exact (delimited_cons rest (by simp)).afterBlanks (isBlank.gap depth)
  | cons item items => exact delimited_cons _ (by simp)

/-- The items of an array read back up to its closing bracket. -/
theorem readItems_print (depth : Nat) (rest : List Char) (items : List Json) :
    ∀ {item : Json} {fuel : Nat}, ReadsBack layout item →
      (∀ other ∈ items, ReadsBack layout other) →
      (printAt layout (depth + 1) item).length + (printItems layout depth items).length + 2 ≤ fuel →
      readItems fuel (printAt layout (depth + 1) item ++
        (printItems layout depth items ++ (layout.gap depth ++ ']' :: rest))) =
        some (item :: items, rest) := by
  induction items with
  | nil =>
      intro item fuel reads _ enough
      obtain ⟨fuel, rfl⟩ := Nat.exists_eq_succ_of_ne_zero (n := fuel) (by omega)
      rw [readItems, reads (depth + 1) fuel _ (by omega) (delimited_items isBlank depth [] rest)]
      simp only [printItems, List.nil_append, Option.bind_some,
        skipSpace_append (isBlank.gap depth), skipSpace_cons (show isSpace ']' = false by decide)]
  | cons next items ih =>
      intro item fuel reads each enough
      obtain ⟨fuel, rfl⟩ := Nat.exists_eq_succ_of_ne_zero (n := fuel) (by omega)
      rw [readItems, reads (depth + 1) fuel _ (by omega) (delimited_items isBlank depth _ rest)]
      rw [List.forall_mem_cons] at each
      simp only [printItems, List.length_cons, List.length_append] at enough
      have others := ih each.1 each.2 (show _ ≤ fuel by omega)
      simp only [printItems, List.cons_append, List.append_assoc, Option.bind_some,
        skipSpace_cons (show isSpace ',' = false by decide), readItems_append (isBlank.gap _),
        others, Option.map_some]

section

variable {value : Json} {more rest : List Char} {depth fuel : Nat} (reads : ReadsBack layout value)
  (delimited : Delimited more) (enough : (printAt layout (depth + 1) value).length < fuel)
  (key : String)
include reads delimited enough

/-- The last pair of an object. -/
theorem readFields_last (closes : skipSpace more = '\x7d' :: rest) :
    readFields (fuel + 1)
        (quote key ++ (layout.colon ++ (printAt layout (depth + 1) value ++ more))) =
      some ([(key.toList.map pieceOf, value)], rest) := by
  obtain ⟨blanks, colon, blank⟩ := isBlank.colon
  rw [readFields, quote_append, colon, skipSpace_cons (by decide)]
  simp only [readString_flatMap, Option.bind_some, List.cons_append,
    skipSpace_cons (show isSpace ':' = false by decide), readValue_append blank,
    reads (depth + 1) fuel more enough delimited, closes]

/-- A pair with others behind it. -/
theorem readFields_next (goesOn : skipSpace more = ',' :: rest) :
    readFields (fuel + 1)
        (quote key ++ (layout.colon ++ (printAt layout (depth + 1) value ++ more))) =
      (readFields fuel rest).map fun (fields, rest) =>
        ((key.toList.map pieceOf, value) :: fields, rest) := by
  obtain ⟨blanks, colon, blank⟩ := isBlank.colon
  rw [readFields, quote_append, colon, skipSpace_cons (by decide)]
  simp only [readString_flatMap, Option.bind_some, List.cons_append,
    skipSpace_cons (show isSpace ':' = false by decide), readValue_append blank,
    reads (depth + 1) fuel more enough delimited, goesOn]

end

/-- The pairs of an object read back up to its closing bracket, with their keys in pieces. -/
theorem readFields_print (depth : Nat) (rest : List Char) (fields : List (String × Json)) :
    ∀ (key : String) {value : Json} {fuel : Nat}, ReadsBack layout value →
      (∀ other ∈ fields, ReadsBack layout other.2) →
      (printAt layout (depth + 1) value).length + (printFields layout depth fields).length + 2 ≤
        fuel →
      readFields fuel (quote key ++ (layout.colon ++ (printAt layout (depth + 1) value ++
        (printFields layout depth fields ++ (layout.gap depth ++ '\x7d' :: rest))))) =
        some (((key, value) :: fields).map fun field => (field.1.toList.map pieceOf, field.2),
          rest) := by
  induction fields with
  | nil =>
      intro key value fuel reads _ enough
      obtain ⟨fuel, rfl⟩ := Nat.exists_eq_succ_of_ne_zero (n := fuel) (by omega)
      have closes : skipSpace (layout.gap depth ++ '\x7d' :: rest) = '\x7d' :: rest := by
        rw [skipSpace_append (isBlank.gap depth), skipSpace_cons (by decide)]
      have delimited : Delimited (layout.gap depth ++ '\x7d' :: rest) :=
        (delimited_cons rest (by simp)).afterBlanks (isBlank.gap depth)
      exact readFields_last isBlank reads delimited (by omega) key closes
  | cons field fields ih =>
      obtain ⟨nextKey, next⟩ := field
      intro key value fuel reads each enough
      obtain ⟨fuel, rfl⟩ := Nat.exists_eq_succ_of_ne_zero (n := fuel) (by omega)
      have readsNext : ReadsBack layout next := each _ (List.mem_cons_self ..)
      have readsLater := (List.forall_mem_cons.1 each).2
      have here : (printAt layout (depth + 1) value).length < fuel := by omega
      simp only [printFields, List.length_cons, List.length_append] at enough
      have others := ih nextKey readsNext readsLater (show _ ≤ fuel by omega)
      simp only [printFields, List.cons_append, List.append_assoc]
      rw [readFields_next isBlank reads (delimited_cons _ (by simp)) here key
        (skipSpace_cons (by decide) _), readFields_append (isBlank.gap _), others]
      rfl

omit isBlank in
theorem ofFields_pieceOf (fields : List (String × Json)) :
    ofFields .added (fields.map fun field => (field.1.toList.map pieceOf, field.2)) =
      object fields := by
  rw [ofFields, mapM_map_eq_some id, List.map_id]
  intro field _
  simp only [keyText?_pieceOf, Option.map_some, id]

/-- **Every plain document reads back**, by induction on its structure. -/
theorem Plain.readsBack {document : Json} (plain : Plain document) :
    ReadsBack layout document := by
  induction plain with
  | null =>
      intro depth fuel rest enough _
      obtain ⟨fuel, rfl⟩ := Nat.exists_eq_succ_of_ne_zero (Nat.ne_of_gt (Nat.zero_lt_of_lt enough))
      rfl
  | bool value =>
      intro depth fuel rest enough _
      obtain ⟨fuel, rfl⟩ := Nat.exists_eq_succ_of_ne_zero (Nat.ne_of_gt (Nat.zero_lt_of_lt enough))
      cases value <;> rfl
  | nat n => exact readsBack_nat layout n
  | string text => exact readsBack_string layout text
  | @array items plainItems each =>
      intro depth fuel rest enough _
      obtain ⟨fuel, rfl⟩ := Nat.exists_eq_succ_of_ne_zero (Nat.ne_of_gt (Nat.zero_lt_of_lt enough))
      cases items with
      | nil => rfl
      | cons item items =>
          obtain ⟨c, cs, starts, noBlank, noBracket⟩ :=
            (plainItems item (List.mem_cons_self ..)).exists_printAt layout (depth + 1)
          obtain ⟨reads, readsLater⟩ := List.forall_mem_cons.1 each
          simp only [printAt, List.length_cons, List.length_append] at enough
          have contents := readItems_print isBlank depth rest items reads readsLater
            (show _ ≤ fuel by omega)
          simp only [starts, List.cons_append] at contents
          simp only [printAt, starts, List.cons_append, List.append_assoc, List.nil_append]
          rw [readValue_array (isBlank.gap _) noBlank noBracket, contents, Option.map_some]
  | @object fields plainFields each =>
      intro depth fuel rest enough _
      obtain ⟨fuel, rfl⟩ := Nat.exists_eq_succ_of_ne_zero (Nat.ne_of_gt (Nat.zero_lt_of_lt enough))
      cases fields with
      | nil => rfl
      | cons field fields =>
          obtain ⟨key, value⟩ := field
          have reads : ReadsBack layout value := each _ (List.mem_cons_self ..)
          have readsLater := (List.forall_mem_cons.1 each).2
          simp only [printAt, List.length_cons, List.length_append] at enough
          have contents := readFields_print isBlank depth rest fields key reads readsLater
            (show _ ≤ fuel by omega)
          rw [quote_append] at contents
          simp only [printAt, List.cons_append, List.append_assoc, List.nil_append]
          rw [quote_append, readValue_object (isBlank.gap _), contents, Option.map_some]
          simp only [ofFields_pieceOf]

end

/-- **A document as text, in any layout, is read as that document.** -/
theorem parse?_print {layout : Layout} (isBlank : layout.IsBlank) {document : Json}
    (plain : Plain document) : parse? (print layout document) = some document := by
  have reads := plain.readsBack isBlank 0 ((printAt layout 0 document).length + 1) []
    (Nat.lt_succ_self _) (fun c first => by cases first)
  rw [List.append_nil] at reads
  rw [parse?, print, String.toList_ofList, parseChars?, reads]
  rfl

end ApiDocs.Json
