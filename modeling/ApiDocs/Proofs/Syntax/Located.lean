import ApiDocs.Proofs.Syntax.Parents
import ApiDocs.Proofs.Text.Lines
import ApiDocs.Syntax.Builder

/-!
# Located nodes carry their snippets

A node of a hand-built file is placed by its text: the file is searched for a snippet, and the node
spans one of the occurrences.  The search goes once through the text and skips what it has found, so
it never looks at an occurrence that overlaps the one before.  Here the occurrences are described
without a search: **the next occurrence is the first one behind the end of the last**.

## Main definitions

* `OccursAt`, `FirstFrom`, `NthFrom` — an occurrence of a snippet, the first one from an offset on,
  and the `n`-th one without overlap.
* `SourceFile.Gains` — a file to which one node was added.
* `SourceFile.ShowsSnippet` — what a file says of a node that spans an occurrence.

## Main statements

* `getElem?_occurrencesFrom` — the search finds the occurrences in order.
* `NthFrom.exists_before` — occurrences are disjoint, and they come in order.
* `addNode_gains` — adding a node changes nothing that was there.
* `located_nodes_carry_snippets` — all nodes that are located by a snippet.

## Design notes

**A span holds words.**  A text of fewer than `2 ^ 32 - 1` bytes has no occurrence whose offsets
overflow, or whose start is the offset that marks a node without text.
-/

namespace ApiDocs

/-! ## Occurrences -/

namespace Text

/-- A snippet occurs in a text at a byte offset. -/
def OccursAt (text snippet : List Char) (start : Nat) : Prop :=
  ∃ before after, text = before ++ snippet ++ after ∧ byteLength before = start

/-- The first occurrence of a snippet at or behind an offset. -/
def FirstFrom (text snippet : List Char) (offset start : Nat) : Prop :=
  IsLeast { place | offset ≤ place ∧ OccursAt text snippet place } start

/-- The `n`-th occurrence of a snippet from an offset on, counted from zero and without overlap:
behind the first one, those from its end on. -/
def NthFrom (text snippet : List Char) : Nat → Nat → Nat → Prop
  | offset, 0, start => FirstFrom text snippet offset start
  | offset, n + 1, start => ∃ first, FirstFrom text snippet offset first ∧
      NthFrom text snippet (first + byteLength snippet) n start

variable {text snippet : List Char} {offset start n : Nat}

theorem OccursAt.end_le (occurs : OccursAt text snippet start) :
    start + byteLength snippet ≤ byteLength text := by
  obtain ⟨before, after, rfl, rfl⟩ := occurs
  simp only [byteLength_append]
  omega

theorem NthFrom.occursAt (isNth : NthFrom text snippet offset n start) :
    offset ≤ start ∧ OccursAt text snippet start := by
  induction n generalizing offset with
  | zero => exact isNth.1
  | succ n ih =>
      obtain ⟨first, ⟨⟨reached, -⟩, -⟩, behind⟩ := isNth
      obtain ⟨later, occurs⟩ := ih behind
      exact ⟨by omega, occurs⟩

/-- **Occurrences are disjoint, and they come in order.** -/
theorem NthFrom.exists_before {m : Nat} (isNth : NthFrom text snippet offset n start)
    (less : m < n) :
    ∃ earlier, NthFrom text snippet offset m earlier ∧ earlier + byteLength snippet ≤ start := by
  induction n generalizing offset m with
  | zero => exact (Nat.not_lt_zero m less).elim
  | succ n ih =>
      obtain ⟨first, isFirst, behind⟩ := isNth
      cases m with
      | zero => exact ⟨first, isFirst, behind.occursAt.1⟩
      | succ m =>
          obtain ⟨earlier, isEarlier, apart⟩ := ih behind (Nat.lt_of_succ_lt_succ less)
          exact ⟨earlier, ⟨first, isFirst, isEarlier⟩, apart⟩

/-! ## The search -/

/-- An occurrence behind a part of the text lies in what follows the part. -/
theorem occursAt_append_iff {before rest : List Char} {place : Nat} :
    byteLength before ≤ place ∧ OccursAt (before ++ rest) snippet place ↔
      ∃ between after, rest = between ++ snippet ++ after ∧
        byteLength before + byteLength between = place := by
  constructor
  · rintro ⟨reached, front, after, same, rfl⟩
    obtain ⟨between, rfl⟩ := prefix_of_byteLength_le (List.prefix_append before rest)
      ⟨snippet ++ after, by rw [same, List.append_assoc]⟩ reached
    refine ⟨between, after, ?_, (byteLength_append _ _).symm⟩
    simpa [List.append_assoc] using same
  · rintro ⟨between, after, rfl, rfl⟩
    exact ⟨Nat.le_add_right _ _, before ++ between, after, by simp, byteLength_append _ _⟩

/-- Nothing occurs behind the end. -/
theorem not_nthFrom_end (nonempty : snippet ≠ []) :
    ¬NthFrom text snippet (byteLength text) n start := by
  intro isNth
  obtain ⟨reached, occurs⟩ := isNth.occursAt
  have within := occurs.end_le
  have positive := byteLength_pos nonempty
  omega

/-- A snippet that begins here occurs here first. -/
theorem firstFrom_here {before rest : List Char} (here : snippet <+: rest) :
    FirstFrom (before ++ rest) snippet (byteLength before) start ↔ byteLength before = start := by
  have isFirst : FirstFrom (before ++ rest) snippet (byteLength before) (byteLength before) := by
    obtain ⟨after, rfl⟩ := here
    exact ⟨⟨Nat.le_refl _, before, after, by rw [List.append_assoc], rfl⟩, fun _ there => there.1⟩
  exact ⟨fun other => isFirst.unique other, fun same => same ▸ isFirst⟩

/-- Behind a snippet that begins here, the search goes on from its end. -/
theorem nthFrom_succ_here {before rest : List Char} (here : snippet <+: rest) :
    NthFrom (before ++ rest) snippet (byteLength before) (n + 1) start ↔
      NthFrom (before ++ rest) snippet (byteLength before + byteLength snippet) n start := by
  simp only [NthFrom, firstFrom_here here, exists_eq_left']

/-- Where the snippet does not begin, the search goes on behind the next character. -/
theorem nthFrom_cons {before cs : List Char} {c : Char} (notHere : ¬snippet <+: c :: cs) :
    NthFrom (before ++ c :: cs) snippet (byteLength before) n start ↔
      NthFrom (before ++ c :: cs) snippet (byteLength before + c.utf8Size) n start := by
  have samePlaces : { place | byteLength before ≤ place ∧
        OccursAt (before ++ c :: cs) snippet place } =
      { place | byteLength before + c.utf8Size ≤ place ∧
        OccursAt (before ++ c :: cs) snippet place } := by
    ext place
    refine ⟨fun ⟨reached, occurs⟩ => ⟨?_, occurs⟩, fun ⟨reached, occurs⟩ => ⟨by omega, occurs⟩⟩
    obtain ⟨between, after, same, rfl⟩ := occursAt_append_iff.1 ⟨reached, occurs⟩
    cases between with
    | nil => exact (notHere ⟨after, same.symm⟩).elim
    | cons d between =>
        obtain ⟨rfl, -⟩ := List.cons.inj same
        rw [byteLength]
        omega
  cases n with
  | zero => simp only [NthFrom, FirstFrom, samePlaces]
  | succ n => simp only [NthFrom, FirstFrom, samePlaces]

/-- **The search finds the occurrences in order.**  It has come to the end of `before`, and the last
occurrence it found covers `skip` more characters. -/
theorem getElem?_occurrencesFrom {before rest : List Char} {skip : Nat} (nonempty : snippet ≠ []) :
    (occurrencesFrom snippet (byteLength before) skip rest)[n]? = some start ↔
      NthFrom (before ++ rest) snippet (byteLength before + byteLength (rest.take skip)) n
        start := by
  induction rest generalizing before skip n with
  | nil =>
      rw [occurrencesFrom, List.append_nil, List.take_nil]
      exact iff_of_false (by simp) (not_nthFrom_end nonempty)
  | cons c cs ih =>
      have further : byteLength before + c.utf8Size = byteLength (before ++ [c]) := by
        simp [byteLength]
      have whole : before ++ c :: cs = before ++ [c] ++ cs := by simp
      cases skip with
      | succ skip =>
          rw [occurrencesFrom, List.take_succ_cons, byteLength, ← Nat.add_assoc, further, whole]
          exact ih
      | zero =>
          rw [occurrencesFrom, List.take_zero, byteLength, Nat.add_zero]
          split
          · rename_i begins
            have here := List.isPrefixOf_iff_prefix.1 begins
            cases n with
            | zero =>
                rw [List.getElem?_cons_zero, Option.some.injEq, NthFrom, firstFrom_here here]
            | succ n =>
                -- What is skipped is the rest of the snippet.
                have covered : byteLength (before ++ [c]) +
                    byteLength (cs.take (snippet.length - 1)) =
                      byteLength before + byteLength snippet := by
                  obtain ⟨d, ds, rfl⟩ := List.exists_cons_of_ne_nil nonempty
                  obtain ⟨rfl, more⟩ := List.cons_prefix_cons.1 here
                  rw [List.length_cons, Nat.add_sub_cancel, ← List.prefix_iff_eq_take.1 more,
                    byteLength, ← Nat.add_assoc, further]
                rw [List.getElem?_cons_succ, further, ih, covered, nthFrom_succ_here here, whole]
          · rename_i notBegins
            have notHere : ¬snippet <+: c :: cs := fun here =>
              notBegins (List.isPrefixOf_iff_prefix.2 here)
            rw [further, ih, nthFrom_cons notHere, further, whole, List.take_zero, byteLength,
              Nat.add_zero]

/-- The search of a whole text. -/
theorem getElem?_occurrences (nonempty : snippet ≠ []) :
    (occurrences text snippet)[n]? = some start ↔ NthFrom text snippet 0 n start := by
  show (occurrencesFrom snippet (byteLength []) 0 text)[n]? = some start ↔
    NthFrom ([] ++ text) snippet (byteLength [] + byteLength (text.take 0)) n start
  exact getElem?_occurrencesFrom nonempty

end Text

/-! ## Files -/

/-- A node whose span is in order has source text, unless it starts at the offset of synthetic
nodes. -/
theorem Node.isSynthetic_eq_false {node : Node} (starts : node.start.toNat < UInt32.size - 1)
    (ordered : node.start.toNat ≤ node.stop.toNat) : node.isSynthetic = false := by
  have different : node.start ≠ syntheticStart := by
    intro same
    rw [same] at starts
    exact absurd starts (by decide)
  simpa [isSynthetic, different, UInt32.le_iff_toNat_le] using ordered

namespace SourceFile

/-- A file to which a node was added.  The node is the last one, and the answered index leads to it
as long as there are indexes left.  Each node that was there is the same node, with the same text
and position. -/
structure Gains (file : SourceFile) (node : Node) (index : NodeIndex) (grown : SourceFile) :
    Prop where
  nodes : grown.arena.nodes = file.arena.nodes.push node
  found : file.arena.nodes.size < NodeIndex.absent.toNat → grown.arena.get? index = some node
  earlier : ∀ other old, file.arena.get? other = some old →
    grown.arena.get? other = some old ∧ grown.nodeText other = file.nodeText other ∧
      grown.nodePosition? other = file.nodePosition? other
  path : grown.path = file.path
  text : grown.text = file.text
  statements : grown.statements = file.statements
  commentMap : grown.commentMap = file.commentMap

/-- **Adding a node changes nothing that was there.** -/
theorem addNode_gains (file : SourceFile) (node : Node) :
    file.Gains node (file.addNode node).1 (file.addNode node).2 where
  nodes := rfl
  found room := by
    have isPresent := NodeIndex.isPresent_iff.2 (NodeIndex.ofNat_ne_absent room)
    simp [addNode, Arena.add, Arena.get?, isPresent, NodeIndex.toNat_ofNat room]
  earlier other old was := by
    have still : (file.addNode node).2.arena.get? other = some old := by
      rw [Arena.get?] at was ⊢
      split at was
      · obtain ⟨inside, -⟩ := Array.getElem?_eq_some_iff.1 was
        rw [if_pos ‹_›, ← was]
        show (file.arena.nodes.push node)[other.toNat]? = file.arena.nodes[other.toNat]?
        rw [Array.getElem?_push, if_neg (Nat.ne_of_lt inside)]
      · cases was
    refine ⟨still, ?_, ?_⟩
    · rw [nodeText, nodeText, still, was]
      rfl
    · rw [nodePosition?, nodePosition?, still, was]
      rfl
  path := rfl
  text := rfl
  statements := rfl
  commentMap := rfl

/-- What a file says of a node that spans the occurrence of a snippet at an offset.  The text of the
node is the snippet, its line is the number of line terminators that end at or before the offset,
and its column counts the code units from the beginning of that line on. -/
structure ShowsSnippet (file : SourceFile) (index : NodeIndex) (snippet : String) (start : Nat) :
    Prop where
  text : file.nodeText index = snippet
  position : ∃ head tail after, file.text.toList = head ++ tail ++ snippet.toList ++ after ∧
    Text.byteLength (head ++ tail) = start ∧
    Text.LineStart head tail (snippet.toList ++ after) ∧
    file.nodePosition? index =
      some ⟨(Text.lineEnds file.text.toList).countP (· ≤ start), Text.units16 tail⟩

variable {file : SourceFile} {snippet : String} {n start : Nat}

theorem showsSnippet_of_span {index : NodeIndex} {node : Node}
    (found : file.arena.get? index = some node) (real : node.isSynthetic = false)
    (occurs : Text.OccursAt file.text.toList snippet.toList start)
    (starts : node.start.toNat = start)
    (stops : node.stop.toNat = start + Text.byteLength snippet.toList) :
    file.ShowsSnippet index snippet start := by
  obtain ⟨before, after, isText, rfl⟩ := occurs
  constructor
  · simp only [nodeText, found, real, Bool.false_eq_true, if_false, starts, stops, isText,
      Text.slice_append, Option.getD_some, String.ofList_toList]
  · obtain ⟨head, tail, rfl, begins, -, here⟩ :=
      Text.LineMap.exists_position_append before (snippet.toList ++ after)
    rw [← List.append_assoc, ← isText] at here
    refine ⟨head, tail, after, isText, rfl, begins, ?_⟩
    simp only [nodePosition?, found, real, Bool.false_eq_true, if_false, starts, lineMap, here]

/-! ## Spans -/

theorem locate_eq_noSpan (nowhere : snippet = "" ∨
      ∀ start, ¬Text.NthFrom file.text.toList snippet.toList 0 n start) :
    file.locate snippet n = noSpan := by
  rw [locate]
  split
  · rfl
  · rename_i nonempty
    split
    · rename_i start found
      have isNth := (Text.getElem?_occurrences (mt String.toList_eq_nil_iff.1 nonempty)).1 found
      exact (nowhere.resolve_left nonempty start isNth).elim
    · rfl

/-- In a text whose offsets are words, the span of an occurrence is exact. -/
theorem locate_nth (small : Text.byteLength file.text.toList < UInt32.size - 1)
    (nonempty : snippet ≠ "")
    (isNth : Text.NthFrom file.text.toList snippet.toList 0 n start) :
    (file.locate snippet n).1.toNat = start ∧
      (file.locate snippet n).2.toNat = start + Text.byteLength snippet.toList := by
  have found := (Text.getElem?_occurrences (mt String.toList_eq_nil_iff.1 nonempty)).2 isNth
  have within := isNth.occursAt.2.end_le
  have startFits : start < UInt32.size := by omega
  have stopFits : start + Text.byteLength snippet.toList < UInt32.size := by omega
  have located : file.locate snippet n =
      (UInt32.ofNat start, UInt32.ofNat (start + Text.byteLength snippet.toList)) := by
    rw [locate, if_neg nonempty, found]
  rw [located]
  exact ⟨Nat.mod_eq_of_lt startFits, Nat.mod_eq_of_lt stopFits⟩

theorem exists_nth (located : file.locate snippet n ≠ noSpan) :
    snippet ≠ "" ∧ ∃ start, Text.NthFrom file.text.toList snippet.toList 0 n start := by
  by_contra nowhere
  refine located (locate_eq_noSpan ?_)
  by_cases nonempty : snippet = ""
  · exact .inl nonempty
  · exact .inr fun start isNth => nowhere ⟨nonempty, start, isNth⟩

/-- **Located nodes carry their snippets.**  A node that is located by the `n`-th occurrence of a
snippet, counted from left to right and without overlap, spans this occurrence.  Its text is the
snippet, and its position is that of the occurrence.  Without such an occurrence the node has no
text and no position.  The spans of later occurrences lie behind those of earlier ones, and no call
changes a node that was there. -/
theorem located_nodes_carry_snippets (file : SourceFile)
    (small : Text.byteLength file.text.toList < UInt32.size - 1) (kind : Kind) (snippet : String)
    (payload : Payload) :
    (∀ n, ∃ node index grown, file.addLocated kind snippet n payload = (index, grown) ∧
      file.Gains node index grown ∧ node.kind = kind ∧ node.flags = 0 ∧ node.payload = payload ∧
      (node.start, node.stop) = file.locate snippet n ∧
      (∀ start, snippet ≠ "" → Text.NthFrom file.text.toList snippet.toList 0 n start →
        node.isSynthetic = false ∧ node.start.toNat = start ∧
          node.stop.toNat = start + Text.byteLength snippet.toList ∧
          ∀ leading, grown.arena.get? leading = some node →
            grown.ShowsSnippet leading snippet start) ∧
      ((snippet = "" ∨ ∀ start, ¬Text.NthFrom file.text.toList snippet.toList 0 n start) →
        node.isSynthetic = true ∧ ∀ leading, grown.arena.get? leading = some node →
          grown.nodeText leading = "" ∧ grown.nodePosition? leading = none)) ∧
    ∀ earlier later, earlier < later → file.locate snippet later ≠ noSpan →
      (file.locate snippet earlier).1 < (file.locate snippet earlier).2 ∧
      (file.locate snippet earlier).2 ≤ (file.locate snippet later).1 ∧
      (file.locate snippet later).1 < (file.locate snippet later).2 := by
  refine ⟨fun n => ?_, fun earlier later less located => ?_⟩
  · let node : Node :=
      { kind, payload, start := (file.locate snippet n).1, stop := (file.locate snippet n).2 }
    refine ⟨node, _, _, rfl, file.addNode_gains node, rfl, rfl, rfl, rfl, ?_, ?_⟩
    · intro start nonempty isNth
      obtain ⟨starts, stops⟩ : node.start.toNat = start ∧
          node.stop.toNat = start + Text.byteLength snippet.toList :=
        locate_nth small nonempty isNth
      have within := isNth.occursAt.2.end_le
      have real : node.isSynthetic = false := Node.isSynthetic_eq_false (by omega) (by omega)
      refine ⟨real, starts, stops, fun leading found => ?_⟩
      exact showsSnippet_of_span found real isNth.occursAt.2 starts stops
    · intro nowhere
      have unreal : node.isSynthetic = true := by
        simp [node, Node.isSynthetic, locate_eq_noSpan nowhere, noSpan]
      refine ⟨unreal, fun leading found => ⟨?_, ?_⟩⟩
      · rw [nodeText, found]
        exact if_pos unreal
      · rw [nodePosition?, found]
        exact if_pos unreal
  · obtain ⟨nonempty, start, isLater⟩ := exists_nth located
    obtain ⟨before, isEarlier, apart⟩ := isLater.exists_before less
    obtain ⟨starts, stops⟩ := locate_nth small nonempty isEarlier
    obtain ⟨startsLater, stopsLater⟩ := locate_nth small nonempty isLater
    have positive := Text.byteLength_pos (mt String.toList_eq_nil_iff.1 nonempty)
    simp only [UInt32.lt_iff_toNat_lt, UInt32.le_iff_toNat_le]
    omega

/-- A file with characters of one and of two bytes, in which occurrences overlap. -/
def overlapFile : SourceFile where
  path := "/project/overlap.ts"
  text := "é aaa\naaaa"
  commentMap := .empty

/-- There are three occurrences without overlap.  The last one ends the second line, and there is no
fourth one. -/
theorem located_nodes_carry_snippets_overlap :
    Text.byteLength overlapFile.text.toList < UInt32.size - 1 ∧
    (∃ node index grown, overlapFile.addLocated .identifier "aa" 2 .empty = (index, grown) ∧
      grown.arena.get? index = some node ∧ node.start.toNat = 9 ∧ node.stop.toNat = 11 ∧
      grown.nodeText index = "aa" ∧ grown.nodePosition? index = some ⟨1, 2⟩) ∧
    (∃ index grown, overlapFile.addLocated .identifier "aa" 3 .empty = (index, grown) ∧
      grown.nodeText index = "" ∧ grown.nodePosition? index = none) ∧
    (overlapFile.locate "aa" 0).2 ≤ (overlapFile.locate "aa" 1).1 := by
  have small : Text.byteLength overlapFile.text.toList < UInt32.size - 1 := by decide
  have isNth : ∀ {n start}, (Text.occurrences overlapFile.text.toList ['a', 'a'])[n]? = some start ↔
      Text.NthFrom overlapFile.text.toList "aa".toList 0 n start :=
    Text.getElem?_occurrences (by decide)
  obtain ⟨located, apart⟩ := located_nodes_carry_snippets overlapFile small .identifier "aa" .empty
  refine ⟨small, ?_, ?_, (apart 0 1 (by decide) (by decide)).2.1⟩
  · obtain ⟨node, index, grown, made, gains, -, -, -, -, spans, -⟩ := located 2
    obtain ⟨-, starts, stops, shows⟩ := spans 9 (by decide) (isNth.1 (by decide))
    have found := gains.found (by decide)
    refine ⟨node, index, grown, made, found, starts, stops, (shows index found).text, ?_⟩
    cases made
    decide +kernel
  · obtain ⟨node, index, grown, made, gains, -, -, -, -, -, missing⟩ := located 3
    have nowhere : ∀ start, ¬Text.NthFrom overlapFile.text.toList "aa".toList 0 3 start := by
      intro start fourth
      have few : (Text.occurrences overlapFile.text.toList ['a', 'a'])[3]? = none := by decide
      cases few.symm.trans (isNth.2 fourth)
    obtain ⟨-, blank⟩ := missing (.inr nowhere)
    exact ⟨index, grown, made, blank index (gains.found (by decide))⟩

end SourceFile

end ApiDocs
