import ApiDocs.Text.Position
import Mathlib.Data.List.Basic

/-!
# Positions are exact

A line map is built by one scan of a text and then asked for positions without looking at the
lines again.  Here a position is described by the text alone.  The line of an offset is **the number
of line terminators that end at or before it**, and the column is the number of UTF-16 code units
between the end of the last of them and the offset.

## Main definitions

* `EndsLine` — a line terminator ends between two parts of a text.
* `lineEnds` — the offsets at which the line terminators of a text end.
* `IsBoundary` — an offset between two characters, or at an end of the text.
* `LineStart` — a text whose last line begins at a given place.

## Main statements

* `startsFrom_eq` — the scan finds the ends of the line terminators.
* `narrow_eq`, `lineOf_eq` — the search for a line counts the starts up to an offset.
* `exists_lineOf` — the line of an offset is the last one that starts at or before it.
* `positions_exact` — the positions of all offsets of a text.

## Design notes

**A carriage return with a line feed after it is one terminator**, which ends after the line feed.
So a carriage return ends a line only if no line feed follows, and a line feed always does.
-/

namespace ApiDocs.Text

/-! ## Bytes and units -/

theorem exists_of_dropBytes {text rest : List Char} {n : Nat}
    (dropped : dropBytes text n = some rest) :
    ∃ front, text = front ++ rest ∧ byteLength front = n := by
  induction text generalizing n with
  | nil =>
      cases n with
      | zero =>
          cases dropped
          exact ⟨[], rfl, rfl⟩
      | succ n => cases dropped
  | cons c cs ih =>
      cases n with
      | zero =>
          cases dropped
          exact ⟨[], rfl, rfl⟩
      | succ n =>
          rw [dropBytes] at dropped
          split at dropped
          · obtain ⟨front, same, length⟩ := ih dropped
            refine ⟨c :: front, by rw [same, List.cons_append], ?_⟩
            rw [byteLength, length]
            omega
          · cases dropped

theorem exists_of_takeBytes {text part : List Char} {n : Nat}
    (taken : takeBytes text n = some part) :
    ∃ back, text = part ++ back ∧ byteLength part = n := by
  induction text generalizing n part with
  | nil =>
      cases n with
      | zero =>
          cases taken
          exact ⟨[], rfl, rfl⟩
      | succ n => cases taken
  | cons c cs ih =>
      cases n with
      | zero =>
          cases taken
          exact ⟨c :: cs, rfl, rfl⟩
      | succ n =>
          rw [takeBytes] at taken
          split at taken
          · obtain ⟨inner, takenInner, rfl⟩ := Option.map_eq_some_iff.1 taken
            obtain ⟨back, same, length⟩ := ih takenInner
            refine ⟨back, by rw [same, List.cons_append], ?_⟩
            rw [byteLength, length]
            omega
          · cases taken

/-- A slice is a part of the text, and its offsets are boundaries. -/
theorem exists_of_slice {text part : List Char} {start stop : Nat}
    (sliced : slice text start stop = some part) :
    ∃ front back, text = front ++ part ++ back ∧ byteLength front = start ∧
      byteLength (front ++ part) = stop := by
  rw [slice] at sliced
  split at sliced
  · obtain ⟨rest, dropped, taken⟩ := Option.bind_eq_some_iff.1 sliced
    obtain ⟨front, rfl, frontLength⟩ := exists_of_dropBytes dropped
    obtain ⟨back, rfl, partLength⟩ := exists_of_takeBytes taken
    refine ⟨front, back, by rw [List.append_assoc], frontLength, ?_⟩
    rw [byteLength_append]
    omega
  · cases sliced

/-- An offset between two characters, or at an end of the text. -/
def IsBoundary (text : List Char) (offset : Nat) : Prop :=
  ∃ before after, text = before ++ after ∧ byteLength before = offset

theorem byteLength_pos {text : List Char} (nonempty : text ≠ []) : 0 < byteLength text := by
  cases text with
  | nil => exact (nonempty rfl).elim
  | cons c cs =>
      rw [byteLength]
      have positive := c.utf8Size_pos
      omega

/-- Of two beginnings of a text, the one with fewer bytes is a beginning of the other. -/
theorem prefix_of_byteLength_le {text first second : List Char} (isFirst : first <+: text)
    (isSecond : second <+: text) (shorter : byteLength first ≤ byteLength second) :
    first <+: second := by
  rcases List.prefix_or_prefix_of_prefix isFirst isSecond with here | ⟨more, rfl⟩
  · exact here
  · have nothing : more = [] := by
      by_contra something
      have positive := byteLength_pos something
      rw [byteLength_append] at shorter
      omega
    simp [nothing]

@[simp] theorem units16_append (first second : List Char) :
    units16 (first ++ second) = units16 first + units16 second := by
  induction first with
  | nil => simp [units16]
  | cons c cs ih => simp [units16, ih, Nat.add_assoc]

theorem unitCount_pos (c : Char) : 0 < unitCount c := by
  rw [unitCount]
  split <;> decide

/-- Only characters of four bytes have two code units. -/
theorem unitCount_le_utf8Size (c : Char) : unitCount c ≤ c.utf8Size := by
  rw [unitCount]
  split
  · exact c.utf8Size_pos
  · rename_i astral
    have several : c.utf8Size ≠ 1 := by
      intro one
      have small := UInt32.le_iff_toNat_le.1 (Char.utf8Size_eq_one_iff.1 one)
      rw [Char.toNat] at astral
      exact astral (Nat.lt_of_le_of_lt small (by decide))
    have positive := c.utf8Size_pos
    omega

theorem units16_le_byteLength (text : List Char) : units16 text ≤ byteLength text := by
  induction text with
  | nil => exact Nat.le_refl 0
  | cons c cs ih => exact Nat.add_le_add (unitCount_le_utf8Size c) ih

theorem units16_pos {text : List Char} (nonempty : text ≠ []) : 0 < units16 text := by
  cases text with
  | nil => exact (nonempty rfl).elim
  | cons c cs =>
      rw [units16]
      have positive := unitCount_pos c
      omega

/-! ## Line terminators -/

/-- A line terminator ends between two parts of a text: a line feed, or a carriage return without a
line feed after it. -/
def EndsLine (before after : List Char) : Prop :=
  before.getLast? = some '\n' ∨ before.getLast? = some '\r' ∧ after.head? ≠ some '\n'

instance (before after : List Char) : Decidable (EndsLine before after) :=
  inferInstanceAs (Decidable (_ ∨ _))

/-- The offsets at which the line terminators of a text end, in order. -/
def lineEnds (text : List Char) : List Nat :=
  ((List.range (text.length + 1)).filter fun n => EndsLine (text.take n) (text.drop n)).map
    fun n => byteLength (text.take n)

theorem not_endsLine_nil (after : List Char) : ¬EndsLine [] after := by
  simp [EndsLine]

theorem endsLine_cons {c d : Char} {before after : List Char} :
    EndsLine (c :: d :: before) after ↔ EndsLine (d :: before) after := by
  simp only [EndsLine, List.getLast?_cons_cons]

theorem mem_lineEnds {text : List Char} {offset : Nat} :
    offset ∈ lineEnds text ↔
      ∃ before after, text = before ++ after ∧ EndsLine before after ∧
        byteLength before = offset := by
  simp only [lineEnds, List.mem_map, List.mem_filter, decide_eq_true_eq]
  constructor
  · rintro ⟨n, ⟨-, ends⟩, rfl⟩
    exact ⟨text.take n, text.drop n, (List.take_append_drop n text).symm, ends, rfl⟩
  · rintro ⟨before, after, rfl, ends, rfl⟩
    refine ⟨before.length, ⟨List.mem_range.2 (by rw [List.length_append]; omega), ?_⟩, ?_⟩
    · simpa using ends
    · simp

theorem lineEnds_cons (c : Char) (cs : List Char) :
    lineEnds (c :: cs) =
      (if EndsLine [c] cs then [c.utf8Size] else []) ++ (lineEnds cs).map (c.utf8Size + ·) := by
  -- Behind the first two boundaries the last character before a boundary is one of `cs`.
  have deeper : ∀ n ∈ List.range cs.length,
      decide (EndsLine (c :: cs.take (n + 1)) (cs.drop (n + 1))) =
        decide (EndsLine (cs.take (n + 1)) (cs.drop (n + 1))) := by
    intro n inside
    cases cs with
    | nil => cases inside
    | cons d ds => exact decide_eq_decide.2 endsLine_cons
  have start : ∀ after, decide (EndsLine [] after) = false :=
    fun after => decide_eq_false (not_endsLine_nil after)
  simp only [lineEnds, List.length_cons, List.range_succ_eq_map, List.filter_cons, List.take_zero,
    List.drop_zero, start, List.map_cons, List.take_succ_cons, List.drop_succ_cons, List.filter_map,
    Function.comp_def, Nat.succ_eq_add_one, List.map_map, decide_eq_true_eq]
  rw [if_neg Bool.false_ne_true, if_neg Bool.false_ne_true, List.filter_congr deeper]
  split <;> simp [byteLength, Function.comp_def]

theorem LineMap.utf8Size_lineEnd {c : Char} (isEnd : c = '\n' ∨ c = '\r') : c.utf8Size = 1 := by
  rcases isEnd with rfl | rfl <;> decide

/-- **The scan finds the ends of the line terminators.** -/
theorem LineMap.startsFrom_eq (offset : Nat) (text : List Char) :
    startsFrom offset text = (lineEnds text).map (offset + ·) := by
  fun_induction startsFrom offset text with
  | case1 offset => rfl
  | case2 offset cs ih =>
      have first : ¬EndsLine ['\r'] ('\n' :: cs) := by simp [EndsLine]
      have second : EndsLine ['\n'] cs := .inl rfl
      rw [ih, lineEnds_cons, lineEnds_cons, if_neg first, if_pos second,
        utf8Size_lineEnd (.inl rfl), utf8Size_lineEnd (.inr rfl)]
      simp [Function.comp_def, ← Nat.add_assoc]
  | case3 offset c cs notPair isEnd ih =>
      have ends : EndsLine [c] cs := by
        rcases isEnd with rfl | rfl
        · exact .inl rfl
        · refine .inr ⟨rfl, fun feed => ?_⟩
          obtain ⟨more, rfl⟩ := List.head?_eq_some_iff.1 feed
          exact notPair more rfl rfl
      rw [ih, lineEnds_cons, if_pos ends, utf8Size_lineEnd isEnd]
      simp [Function.comp_def, ← Nat.add_assoc]
  | case4 offset c cs notPair noEnd ih =>
      have goesOn : ¬EndsLine [c] cs := by
        rintro (feed | ⟨carriage, -⟩)
        · exact noEnd (.inl (Option.some.inj feed))
        · exact noEnd (.inr (Option.some.inj carriage))
      rw [ih, lineEnds_cons, if_neg goesOn]
      simp [Function.comp_def, ← Nat.add_assoc]

@[simp] theorem LineMap.starts_ofText (text : List Char) :
    (ofText text).starts = 0 :: lineEnds text := by
  rw [ofText, startsFrom_eq]
  simp

theorem le_byteLength_of_mem_lineEnds {text : List Char} {offset : Nat}
    (isEnd : offset ∈ lineEnds text) : offset ≤ byteLength text := by
  obtain ⟨before, after, rfl, -, rfl⟩ := mem_lineEnds.1 isEnd
  rw [byteLength_append]
  omega

theorem pos_of_mem_lineEnds {text : List Char} {offset : Nat} (isEnd : offset ∈ lineEnds text) :
    0 < offset := by
  obtain ⟨before, after, -, ends, rfl⟩ := mem_lineEnds.1 isEnd
  apply byteLength_pos
  rintro rfl
  exact not_endsLine_nil after ends

theorem sorted_lineEnds (text : List Char) : (lineEnds text).Pairwise (· < ·) := by
  induction text with
  | nil => decide
  | cons c cs ih =>
      have later : ((lineEnds cs).map (c.utf8Size + ·)).Pairwise (· < ·) :=
        List.pairwise_map.2 (ih.imp fun {_ _} less => Nat.add_lt_add_left less _)
      rw [lineEnds_cons]
      split
      · refine List.pairwise_cons.2 ⟨fun offset isLater => ?_, later⟩
        obtain ⟨inner, isEnd, rfl⟩ := List.mem_map.1 isLater
        have positive := pos_of_mem_lineEnds isEnd
        omega
      · exact later

theorem length_lineEnds_le (text : List Char) : (lineEnds text).length ≤ byteLength text := by
  induction text with
  | nil => exact Nat.zero_le _
  | cons c cs ih =>
      have positive := c.utf8Size_pos
      rw [lineEnds_cons, byteLength, List.length_append, List.length_map]
      split <;> simp only [List.length_cons, List.length_nil] <;> omega

/-! ## The line of an offset -/

/-- In a sorted list, those entries are at most `target` that stand before as many others. -/
theorem le_iff_lt_countP {entries : List Nat} (sorted : entries.Pairwise (· < ·)) (target : Nat)
    {place entry : Nat} (found : entries[place]? = some entry) :
    entry ≤ target ↔ place < entries.countP (· ≤ target) := by
  induction entries generalizing place with
  | nil => cases found
  | cons first rest ih =>
      obtain ⟨smaller, sortedRest⟩ := List.pairwise_cons.1 sorted
      by_cases reached : first ≤ target
      · rw [List.countP_cons_of_pos (by simpa using reached)]
        cases place with
        | zero =>
            cases found
            simp [reached]
        | succ place =>
            rw [ih sortedRest found]
            omega
      · -- Nothing is at most `target`, as the first entry is the smallest.
        have beyond : ∀ other ∈ first :: rest, target < other := by
          intro other isOther
          rcases List.mem_cons.1 isOther with rfl | behind
          · omega
          · exact Nat.lt_trans (by omega) (smaller other behind)
        have none : (first :: rest).countP (· ≤ target) = 0 :=
          List.countP_eq_zero.2 fun other isOther => by simpa using beyond other isOther
        have above := beyond entry (List.mem_of_getElem? found)
        rw [none]
        omega

/-- **The search narrows to the last entry that is at most `target`**, or to the first entry if
there is none: this place stays in the range. -/
theorem narrow_eq {entries : List Nat} (sorted : entries.Pairwise (· < ·)) (target base size : Nat)
    (nonempty : 0 < size) (inside : base + size ≤ entries.length)
    (low : base = 0 ∨ base < entries.countP (· ≤ target))
    (high : entries.countP (· ≤ target) ≤ base + size) :
    narrow entries target base size = entries.countP (· ≤ target) - 1 := by
  fun_induction narrow entries target base size with
  | case1 base size single => omega
  | case2 base size several half middle above ih =>
      obtain ⟨entry, found⟩ : ∃ entry, entries[middle]? = some entry :=
        ⟨_, List.getElem?_eq_getElem (by omega)⟩
      have notReached := le_iff_lt_countP sorted target found
      rw [found, Option.getD_some] at above
      exact ih (by omega) (by omega) low (by omega)
  | case3 base size several half middle notAbove ih =>
      obtain ⟨entry, found⟩ : ∃ entry, entries[middle]? = some entry :=
        ⟨_, List.getElem?_eq_getElem (by omega)⟩
      have reached := le_iff_lt_countP sorted target found
      rw [found, Option.getD_some] at notAbove
      exact ih (by omega) (by omega) (.inr (by omega)) (by omega)

/-- Both answers of the search give the line: it is one less than the number of starts at or before
the offset. -/
theorem LineMap.lineOf_eq {map : LineMap} (sorted : map.starts.Pairwise (· < ·)) (offset : Nat) :
    map.lineOf offset = map.starts.countP (· ≤ offset) - 1 := by
  rw [lineOf, binarySearch]
  cases nothing : map.starts with
  | nil => rfl
  | cons first rest =>
      rw [← nothing]
      have positive : 0 < map.starts.length := by rw [nothing]; exact Nat.succ_pos _
      have counted : map.starts.countP (· ≤ offset) ≤ map.starts.length := List.countP_le_length
      have narrowed := narrow_eq sorted offset 0 map.starts.length positive (by omega) (.inl rfl)
        (by omega)
      obtain ⟨entry, found⟩ : ∃ entry,
          map.starts[map.starts.countP (· ≤ offset) - 1]? = some entry :=
        ⟨_, List.getElem?_eq_getElem (by omega)⟩
      have reached := le_iff_lt_countP sorted offset found
      simp only [narrowed, found]
      rcases Nat.lt_trichotomy entry offset with below | rfl | above
      · rw [if_neg (Nat.ne_of_lt below), if_pos below]
        exact Nat.add_sub_cancel _ 1
      · rw [if_pos rfl]
      · rw [if_neg (Nat.ne_of_gt above), if_neg (Nat.lt_asymm above)]
        show _ - 1 - 1 = _ - 1
        omega

namespace LineMap

variable {text : List Char}

theorem sorted_starts (text : List Char) : (ofText text).starts.Pairwise (· < ·) := by
  rw [starts_ofText]
  exact List.pairwise_cons.2 ⟨fun _ isEnd => pos_of_mem_lineEnds isEnd, sorted_lineEnds text⟩

/-- The line of an offset is the number of line terminators that end at or before it. -/
theorem lineOf_ofText (text : List Char) (offset : Nat) :
    (ofText text).lineOf offset = (lineEnds text).countP (· ≤ offset) := by
  rw [lineOf_eq (sorted_starts text), starts_ofText, List.countP_cons_of_pos (by simp)]
  exact Nat.add_sub_cancel _ _

/-- **The line of an offset is the last one that starts at or before it.** -/
theorem exists_lineOf (text : List Char) (offset : Nat) :
    ∃ start, (ofText text).starts[(ofText text).lineOf offset]? = some start ∧ start ≤ offset ∧
      ∀ other ∈ lineEnds text, other ≤ offset → other ≤ start := by
  have sorted := sorted_starts text
  have reached : 0 < (ofText text).starts.countP (· ≤ offset) := by simp
  have counted : (ofText text).starts.countP (· ≤ offset) ≤ (ofText text).starts.length :=
    List.countP_le_length
  rw [lineOf_eq sorted]
  obtain ⟨start, found⟩ : ∃ start,
      (ofText text).starts[(ofText text).starts.countP (· ≤ offset) - 1]? = some start :=
    ⟨_, List.getElem?_eq_getElem (by omega)⟩
  refine ⟨start, found, (le_iff_lt_countP sorted offset found).2 (by omega), ?_⟩
  intro other isEnd otherReached
  have isStart : other ∈ (ofText text).starts := by
    rw [starts_ofText]
    exact List.mem_cons_of_mem 0 isEnd
  obtain ⟨place, isOther⟩ := List.getElem?_of_mem isStart
  -- What is reached does not stand behind the last entry that is reached.
  have notBehind := (le_iff_lt_countP sorted offset isOther).1 otherReached
  have startPlace := (le_iff_lt_countP sorted start found).1 (Nat.le_refl start)
  exact (le_iff_lt_countP sorted start isOther).2 (by omega)

end LineMap

/-- The last line of `head ++ tail`, a text that goes on with `after`, begins between the two parts:
no line terminator ends behind that place. -/
structure LineStart (head tail after : List Char) : Prop where
  starts : head = [] ∨ EndsLine head (tail ++ after)
  within : ∀ more rest, tail = more ++ rest → more ≠ [] → ¬EndsLine (head ++ more) (rest ++ after)

namespace LineMap

/-- A line starts at the beginning of the text or behind a line terminator. -/
theorem exists_of_mem_starts {text : List Char} {start : Nat}
    (isStart : start ∈ (ofText text).starts) :
    ∃ head rest, text = head ++ rest ∧ (head = [] ∨ EndsLine head rest) ∧
      byteLength head = start := by
  rw [starts_ofText] at isStart
  rcases List.mem_cons.1 isStart with rfl | isEnd
  · exact ⟨[], text, rfl, .inl rfl, rfl⟩
  · obtain ⟨head, rest, same, ends, length⟩ := mem_lineEnds.1 isEnd
    exact ⟨head, rest, same, .inr ends, length⟩

/-- The position of a boundary, with the place where its line begins. -/
theorem exists_position_append (before after : List Char) :
    ∃ head tail, before = head ++ tail ∧ LineStart head tail after ∧
      (ofText (before ++ after)).starts[(ofText (before ++ after)).lineOf (byteLength before)]? =
        some (byteLength head) ∧
      (ofText (before ++ after)).position (before ++ after) (byteLength before) =
        ⟨(lineEnds (before ++ after)).countP (· ≤ byteLength before), units16 tail⟩ := by
  obtain ⟨start, found, reached, isLast⟩ := exists_lineOf (before ++ after) (byteLength before)
  obtain ⟨head, rest, same, begins, rfl⟩ := exists_of_mem_starts (List.mem_of_getElem? found)
  have isHead : head <+: before ++ after := ⟨rest, same.symm⟩
  obtain ⟨tail, rfl⟩ :=
    prefix_of_byteLength_le isHead (List.prefix_append before after) reached
  have restSame : rest = tail ++ after := by
    rw [List.append_assoc] at same
    exact (List.append_cancel_left same).symm
  subst restSame
  refine ⟨head, tail, rfl, ⟨begins, ?_⟩, found, ?_⟩
  · rintro more rest rfl something ends
    have isEnd : byteLength (head ++ more) ∈ lineEnds (head ++ (more ++ rest) ++ after) :=
      mem_lineEnds.2 ⟨head ++ more, rest ++ after, by simp, ends, rfl⟩
    have notBehind := isLast _ isEnd (by simp)
    have positive := byteLength_pos something
    rw [byteLength_append] at notBehind
    omega
  · have clamped : min (byteLength (head ++ tail)) (byteLength (head ++ tail ++ after)) =
        byteLength head + byteLength tail := by
      simp
    rw [position, found, Option.getD_some, clamped,
      Nat.min_eq_left (Nat.le_add_right _ _), slice_append, Option.getD_some, lineOf_ofText]

/-- Inside a character there is no column. -/
theorem position_of_not_isBoundary {text : List Char} {offset : Nat}
    (inside : ¬IsBoundary text offset) (within : offset ≤ byteLength text) :
    (ofText text).position text offset = ⟨(lineEnds text).countP (· ≤ offset), 0⟩ := by
  have noSlice : ∀ start, slice text start offset = none := by
    intro start
    rw [Option.eq_none_iff_forall_ne_some]
    intro part sliced
    obtain ⟨front, back, same, -, length⟩ := exists_of_slice sliced
    exact inside ⟨front ++ part, back, same, length⟩
  rw [position, lineOf_ofText, Nat.min_eq_left within, noSlice]
  rfl

/-- Past the end a position is that of the end. -/
theorem position_past (text : List Char) {offset : Nat} (past : byteLength text ≤ offset) :
    (ofText text).position text offset = (ofText text).position text (byteLength text) := by
  have sameLine : (ofText text).lineOf offset = (ofText text).lineOf (byteLength text) := by
    rw [lineOf_ofText, lineOf_ofText]
    apply List.countP_congr
    intro start isEnd
    have bounded := le_byteLength_of_mem_lineEnds isEnd
    simp only [decide_eq_true_eq]
    omega
  simp only [position, sameLine, Nat.min_eq_right past, Nat.min_self]

/-- **Positions are ordered like the boundaries they belong to.** -/
theorem position_lt {text : List Char} {first second : Nat} (isFirst : IsBoundary text first)
    (isSecond : IsBoundary text second) (less : first < second) :
    ((ofText text).position text first).line < ((ofText text).position text second).line ∨
      ((ofText text).position text first).line = ((ofText text).position text second).line ∧
      ((ofText text).position text first).character <
        ((ofText text).position text second).character := by
  obtain ⟨before, after, rfl, rfl⟩ := isFirst
  obtain ⟨before', after', same, rfl⟩ := isSecond
  obtain ⟨head, tail, rfl, -, start, atFirst⟩ := exists_position_append before after
  obtain ⟨head', tail', rfl, -, start', atSecond⟩ := exists_position_append before' after'
  rw [← same] at start' atSecond
  rw [atFirst, atSecond]
  have notLess : (lineEnds (head ++ tail ++ after)).countP (· ≤ byteLength (head ++ tail)) ≤
      (lineEnds (head ++ tail ++ after)).countP (· ≤ byteLength (head' ++ tail')) := by
    apply List.countP_mono_left
    intro start _ reached
    simp only [decide_eq_true_eq] at reached ⊢
    omega
  rcases Nat.lt_or_eq_of_le notLess with earlier | sameLine
  · exact .inl earlier
  · -- On one line both columns are counted from the same place.
    refine .inr ⟨sameLine, ?_⟩
    rw [lineOf_ofText, sameLine, ← lineOf_ofText, start'] at start
    have sameStart : byteLength head' = byteLength head := Option.some.inj start
    have isHead : head <+: head ++ tail ++ after := ⟨tail ++ after, by simp⟩
    have isHead' : head' <+: head ++ tail ++ after := ⟨tail' ++ after', by rw [same]; simp⟩
    obtain rfl : head = head' :=
      (prefix_of_byteLength_le isHead isHead' (Nat.le_of_eq sameStart.symm)).eq_of_length_le
        (prefix_of_byteLength_le isHead' isHead (Nat.le_of_eq sameStart)).length_le
    have longer : head ++ tail <+: head ++ tail' :=
      prefix_of_byteLength_le ⟨after, rfl⟩ ⟨after', same.symm⟩ (Nat.le_of_lt less)
    obtain ⟨more, rfl⟩ := (List.prefix_append_right_inj head).1 longer
    have something : more ≠ [] := by
      rintro rfl
      simp at less
    have positive := units16_pos something
    show units16 tail < units16 (tail ++ more)
    rw [units16_append]
    omega

/-- **The positions of all offsets of a text.**  The line of a boundary is the number of line
terminators that end at or before it, its column counts the code units behind the last of them. -/
theorem positions_exact (text : List Char) (small : byteLength text < UInt32.size) :
    (∀ before after, text = before ++ after →
      ∃ head tail, before = head ++ tail ∧ LineStart head tail after ∧
        (ofText text).position text (byteLength before) =
          ⟨(lineEnds text).countP (· ≤ byteLength before), units16 tail⟩) ∧
    (∀ first second, IsBoundary text first → IsBoundary text second → first < second →
      ((ofText text).position text first).line < ((ofText text).position text second).line ∨
        ((ofText text).position text first).line = ((ofText text).position text second).line ∧
        ((ofText text).position text first).character <
          ((ofText text).position text second).character) ∧
    (∀ offset, byteLength text ≤ offset →
      (ofText text).position text offset = (ofText text).position text (byteLength text)) ∧
    (ofText text).lineCount = (lineEnds text).length + 1 ∧
    (∀ start ∈ (ofText text).starts, start < UInt32.size) ∧
    (∀ offset,
      (∃ start, (ofText text).starts[((ofText text).position text offset).line]? = some start ∧
        start ≤ offset) ∧
      ((ofText text).position text offset).line < UInt32.size ∧
      ((ofText text).position text offset).character < UInt32.size) ∧
    (∀ offset, offset ≤ byteLength text → ¬IsBoundary text offset →
      (ofText text).position text offset = ⟨(lineEnds text).countP (· ≤ offset), 0⟩) := by
  refine ⟨?_, fun _ _ => position_lt, fun _ => position_past text, ?_, ?_,
    fun offset => ⟨?_, ?_, ?_⟩,
    fun _ within inside => position_of_not_isBoundary inside within⟩
  · rintro before after rfl
    obtain ⟨head, tail, same, begins, -, here⟩ := exists_position_append before after
    exact ⟨head, tail, same, begins, here⟩
  · rw [lineCount, starts_ofText, List.length_cons]
  · intro start isStart
    obtain ⟨head, rest, rfl, -, rfl⟩ := exists_of_mem_starts isStart
    rw [byteLength_append] at small
    omega
  · obtain ⟨start, found, reached, -⟩ := exists_lineOf text offset
    exact ⟨start, found, reached⟩
  · have fewEnds := length_lineEnds_le text
    have fewHere : (lineEnds text).countP (· ≤ offset) ≤ (lineEnds text).length :=
      List.countP_le_length
    show (ofText text).lineOf offset < UInt32.size
    rw [lineOf_ofText]
    omega
  · show units16 ((slice text _ _).getD []) < UInt32.size
    cases sliced : slice text _ _ with
    | none => exact Nat.two_pow_pos 32
    | some part =>
        obtain ⟨front, back, rfl, -, -⟩ := exists_of_slice sliced
        have fewUnits := units16_le_byteLength part
        simp only [byteLength_append] at small
        rw [Option.getD_some]
        omega

/-- Four lines with three different terminators, and a character of two code units. -/
def mixedLines : List Char :=
  ['a', '\r', '\n', '😀', 'b', '\r', 'c', '\n', 'd']

theorem positions_exact_mixedLines :
    byteLength mixedLines < UInt32.size ∧ lineEnds mixedLines = [3, 9, 11] ∧
    (∃ head tail, ['a', '\r', '\n', '😀', 'b'] = head ++ tail ∧
      LineStart head tail ['\r', 'c', '\n', 'd'] ∧
      (ofText mixedLines).position mixedLines 8 = ⟨1, units16 tail⟩) ∧
    (ofText mixedLines).position mixedLines 8 = ⟨1, 3⟩ ∧
    (ofText mixedLines).position mixedLines 40 = (ofText mixedLines).position mixedLines 12 ∧
    (ofText mixedLines).lineCount = 4 := by
  have small : byteLength mixedLines < UInt32.size := by decide
  obtain ⟨exactly, -, past, count, -⟩ := positions_exact mixedLines small
  refine ⟨small, by decide, ?_, by decide +kernel, past 40 (by decide), count⟩
  exact exactly ['a', '\r', '\n', '😀', 'b'] ['\r', 'c', '\n', 'd'] rfl

end LineMap

end ApiDocs.Text
