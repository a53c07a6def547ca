/-!
# Byte offsets into text

Syntax nodes carry **byte offsets** into the UTF-8 form of a file's text, while the rest of the
library reads text as a list of characters.  This module is the bridge: it counts the bytes of a
list of characters, cuts the list at a byte offset, and finds the byte offsets at which a snippet
occurs.

## Main definitions

* `byteLength` — the number of bytes of a text.
* `dropBytes`, `takeBytes`, `slice` — cutting at byte offsets; each answers `none` when an offset
  lies past the end or inside a character.
* `occurrences` — the offsets of the non-overlapping occurrences of a snippet, from left to right.
-/

namespace ApiDocs.Text

/-- The number of bytes of a list of characters in UTF-8. -/
def byteLength : List Char → Nat
  | [] => 0
  | c :: cs => c.utf8Size + byteLength cs

@[simp] theorem byteLength_append (xs ys : List Char) :
    byteLength (xs ++ ys) = byteLength xs + byteLength ys := by
  induction xs with
  | nil => simp [byteLength]
  | cons c cs ih => simp [byteLength, ih, Nat.add_assoc]

/-- What remains after exactly `n` bytes; `none` when `n` is no character boundary. -/
def dropBytes : List Char → Nat → Option (List Char)
  | cs, 0 => some cs
  | [], _ + 1 => none
  | c :: cs, n + 1 => if c.utf8Size ≤ n + 1 then dropBytes cs (n + 1 - c.utf8Size) else none

/-- The characters of exactly the first `n` bytes; `none` when `n` is no character boundary. -/
def takeBytes : List Char → Nat → Option (List Char)
  | _, 0 => some []
  | [], _ + 1 => none
  | c :: cs, n + 1 =>
    if c.utf8Size ≤ n + 1 then (takeBytes cs (n + 1 - c.utf8Size)).map (c :: ·) else none

/-- The characters between two byte offsets; `none` unless both are boundaries in order. -/
def slice (cs : List Char) (start stop : Nat) : Option (List Char) :=
  if start ≤ stop then (dropBytes cs start).bind (takeBytes · (stop - start)) else none

/-- Dropping the bytes of a leading part leaves the other part. -/
theorem dropBytes_append (xs ys : List Char) : dropBytes (xs ++ ys) (byteLength xs) = some ys := by
  induction xs with
  | nil => simp [byteLength, dropBytes]
  | cons c cs ih =>
    have positive := c.utf8Size_pos
    obtain ⟨n, hn⟩ : ∃ n, c.utf8Size + byteLength cs = n + 1 :=
      ⟨c.utf8Size + byteLength cs - 1, by omega⟩
    simp only [List.cons_append, byteLength, hn, dropBytes]
    rw [if_pos (by omega), ← hn, Nat.add_sub_cancel_left]
    exact ih

/-- Taking the bytes of a leading part gives that part. -/
theorem takeBytes_append (xs ys : List Char) : takeBytes (xs ++ ys) (byteLength xs) = some xs := by
  induction xs with
  | nil => simp [byteLength, takeBytes]
  | cons c cs ih =>
    have positive := c.utf8Size_pos
    obtain ⟨n, hn⟩ : ∃ n, c.utf8Size + byteLength cs = n + 1 :=
      ⟨c.utf8Size + byteLength cs - 1, by omega⟩
    simp only [List.cons_append, byteLength, hn, takeBytes]
    rw [if_pos (by omega), ← hn, Nat.add_sub_cancel_left, ih]
    rfl

/-- The middle of three parts is the slice between their boundaries. -/
theorem slice_append (xs ys zs : List Char) :
    slice (xs ++ ys ++ zs) (byteLength xs) (byteLength xs + byteLength ys) = some ys := by
  simp [slice, List.append_assoc, dropBytes_append, takeBytes_append]

/-- The byte offsets of the occurrences of `snippet`, left to right and without overlap.  `offset`
is the byte offset of the remaining text, and `skip` the number of its characters that belong to
the occurrence found last. -/
def occurrencesFrom (snippet : List Char) (offset : Nat) : Nat → List Char → List Nat
  | _, [] => []
  | skip + 1, c :: cs => occurrencesFrom snippet (offset + c.utf8Size) skip cs
  | 0, c :: cs =>
    if snippet.isPrefixOf (c :: cs) then
      offset :: occurrencesFrom snippet (offset + c.utf8Size) (snippet.length - 1) cs
    else
      occurrencesFrom snippet (offset + c.utf8Size) 0 cs

/-- The byte offsets of the non-overlapping occurrences of a snippet in a text. -/
def occurrences (text snippet : List Char) : List Nat :=
  occurrencesFrom snippet 0 0 text

end ApiDocs.Text
