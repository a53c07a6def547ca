import ApiDocs.Text.Bytes

/-!
# Excerpts

The documentation keeps the text of a constant's initializer only up to a fixed number of
characters; a longer text is cut and the cut is marked.  The cut is made at a byte offset, the one
at which the first character too many starts.

## Main definitions

* `charStarts` — the byte offsets at which the characters of a text start.
* `excerpt` — the excerpt of a text.
-/

namespace ApiDocs.Text

/-- The number of characters an excerpt keeps. -/
def excerptLength : Nat := 256

/-- The mark at the end of a text that was cut. -/
def excerptMark : List Char := ['.', '.', '.']

/-- The byte offsets at which the characters of a text start, for text that begins at byte
`offset`. -/
def charStarts (offset : Nat) : List Char → List Nat
  | [] => []
  | c :: cs => offset :: charStarts (offset + c.utf8Size) cs

@[simp] theorem length_charStarts (offset : Nat) (text : List Char) :
    (charStarts offset text).length = text.length := by
  induction text generalizing offset with
  | nil => rfl
  | cons c cs ih => rw [charStarts, List.length_cons, List.length_cons, ih]

/-- A character starts behind the bytes of all characters before it. -/
theorem getElem?_charStarts_append (offset : Nat) (front : List Char) (c : Char)
    (back : List Char) :
    (charStarts offset (front ++ c :: back))[front.length]? = some (offset + byteLength front) := by
  induction front generalizing offset with
  | nil => rfl
  | cons first front ih =>
    rw [List.cons_append, charStarts, List.length_cons, List.getElem?_cons_succ, ih, byteLength,
      Nat.add_assoc]

/-- The excerpt of a list of characters: where a character starts behind those that an excerpt
keeps, the text is cut there and the mark follows.  The place is a character boundary, so the part
before it is always there. -/
def excerptChars (text : List Char) : List Char :=
  match (charStarts 0 text)[excerptLength]? with
  | some cut => (takeBytes text cut).getD [] ++ excerptMark
  | none => text

theorem excerptChars_of_le {text : List Char} (short : text.length ≤ excerptLength) :
    excerptChars text = text := by
  rw [excerptChars, List.getElem?_eq_none (by rwa [length_charStarts])]

/-- A text that begins with as many characters as an excerpt keeps, and goes on behind them: the
cut is made between the two parts. -/
theorem excerptChars_append {front back : List Char} (full : front.length = excerptLength)
    (goesOn : back ≠ []) : excerptChars (front ++ back) = front ++ excerptMark := by
  obtain ⟨c, back, rfl⟩ := List.exists_cons_of_ne_nil goesOn
  rw [excerptChars, ← full, getElem?_charStarts_append, Nat.zero_add]
  simp only [takeBytes_append, Option.getD_some]

/-- An excerpt in terms of characters: the whole text, or its first `excerptLength` characters with
the mark behind them. -/
theorem excerptChars_eq (text : List Char) :
    excerptChars text =
      if text.length ≤ excerptLength then text else text.take excerptLength ++ excerptMark := by
  split
  · exact excerptChars_of_le ‹_›
  · rename_i long
    have full : (text.take excerptLength).length = excerptLength :=
      List.length_take_of_le (by omega)
    have goesOn : text.drop excerptLength ≠ [] := fun nothing =>
      long (List.drop_eq_nil_iff.1 nothing)
    calc
      excerptChars text = excerptChars (text.take excerptLength ++ text.drop excerptLength) := by
        rw [List.take_append_drop]
      _ = text.take excerptLength ++ excerptMark := excerptChars_append full goesOn

/-- The excerpt of a text. -/
def excerpt (text : String) : String :=
  String.ofList (excerptChars text.toList)

/-- The excerpt of a text has at most its first 256 characters, and dots for the others. -/
theorem excerpt_eq (text : String) :
    excerpt text =
      if text.length ≤ 256 then text else String.ofList (text.toList.take 256) ++ "..." := by
  rw [excerpt, excerptChars_eq, String.length_toList]
  show String.ofList (if text.length ≤ 256 then _ else _) = _
  split
  · exact String.ofList_toList
  · exact String.ofList_append

end ApiDocs.Text
