import ApiDocs.Text.Bytes

/-!
# Lines and columns

A `Position` is a zero-based line and a zero-based column that counts UTF-16 code units.  A
`LineMap` holds the byte offset at which each line of a text starts, so that a byte offset can be
turned into a position.

A line ends after a line feed, after a carriage return, and after a carriage return followed by a
line feed, which together end one line.

## Main definitions

* `LineMap.ofText` — the starts of all lines.
* `binarySearch` — the place of a number in a sorted list.
* `LineMap.position` — the position of a byte offset.  An offset past the end counts as the end,
  and an offset inside a character has column `0`.
-/

namespace ApiDocs.Text

/-- The number of UTF-16 code units of a character. -/
def unitCount (c : Char) : Nat :=
  if c.toNat < 0x10000 then 1 else 2

/-- The number of UTF-16 code units of a list of characters. -/
def units16 : List Char → Nat
  | [] => 0
  | c :: cs => unitCount c + units16 cs

/-- A zero-based line and column; the column counts UTF-16 code units. -/
structure Position where
  line : Nat
  character : Nat
deriving DecidableEq

/-! ## Search in a sorted list -/

/-- Halves a range of `size` entries that begins at `base` until one entry is left: the last one in
the range that is not above `target`, if there is one. -/
def narrow (entries : List Nat) (target base size : Nat) : Nat :=
  if size ≤ 1 then base
  else
    let half := size / 2
    let middle := base + half
    if target < (entries[middle]?).getD 0 then narrow entries target base (size - half)
    else narrow entries target middle (size - half)
termination_by size

/-- Searches a sorted list for `target`.  The answer is `ok` with the place of an entry that is
equal to it, or `error` with the place at which it could be put in. -/
def binarySearch (entries : List Nat) (target : Nat) : Except Nat Nat :=
  let base := narrow entries target 0 entries.length
  match entries[base]? with
  | none => .error 0
  | some entry =>
    if entry = target then .ok base
    else if entry < target then .error (base + 1)
    else .error base

/-! ## Lines -/

/-- The byte offsets at which the lines of a text start. -/
structure LineMap where
  starts : List Nat
deriving DecidableEq

namespace LineMap

/-- The starts of the lines after the first, for text that begins at byte `offset`. -/
def startsFrom (offset : Nat) : List Char → List Nat
  | [] => []
  | '\r' :: '\n' :: cs => (offset + 2) :: startsFrom (offset + 2) cs
  | c :: cs =>
    if c = '\n' ∨ c = '\r' then (offset + 1) :: startsFrom (offset + 1) cs
    else startsFrom (offset + c.utf8Size) cs

/-- The line map of a text; the first line starts at `0`. -/
def ofText (text : List Char) : LineMap :=
  ⟨0 :: startsFrom 0 text⟩

/-- The number of lines. -/
def lineCount (map : LineMap) : Nat :=
  map.starts.length

/-- The line of a byte offset: the one that starts there, or else the one before the place at which
a start would be put in. -/
def lineOf (map : LineMap) (offset : Nat) : Nat :=
  match binarySearch map.starts offset with
  | .ok line => line
  | .error next => next - 1

/-- The position of a byte offset in `text`, the text that the map belongs to. -/
def position (map : LineMap) (text : List Char) (offset : Nat) : Position :=
  let line := map.lineOf offset
  let stop := min offset (byteLength text)
  let start := min ((map.starts[line]?).getD 0) stop
  ⟨line, units16 ((slice text start stop).getD [])⟩

end LineMap

end ApiDocs.Text
