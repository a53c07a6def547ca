import ApiDocs.Proofs.Reference.Chain
import ApiDocs.Proofs.Reference.Memory
import ApiDocs.Proofs.Reference.Settling
import Mathlib.Data.List.Basic

/-!
# Names with a hint

A name that is written with a qualifier is looked up with the qualifier as a hint, and the hint is
compared with the namespaces of a symbol **as a text**: it has to be the joined names, or to follow
a dot at their end.  What is meant is a comparison of lists.  As long as names have no dots of their
own, the two are the same: no hint matches a part of a name only.

## Main definitions

* `Program.Denotes` — a symbol that a name with a hint can mean.
* `Program.FirstDenoted` — the first such symbol in the order of the table.

## Main statements

* `endsWithSegments_iff` — comparing joined names is comparing the ends of lists.
* `symbolByName?_eq_some_iff` — look-up by name finds the first symbol that is meant.
* `hints_match_segments` — the answers of an index with any memory.

## Design notes

**Symbols are numbered by words**, and a table with more entries than there are words would give one
number to two symbols.  This is why the size of the table is bounded here.
-/

namespace ApiDocs

/-! ## Joined names -/

/-- Between two lists of names that are joined there is a dot. -/
theorem intercalate_dot_append {front back : List (List Char)} (someFront : front ≠ [])
    (someBack : back ≠ []) :
    ['.'].intercalate (front ++ back) =
      ['.'].intercalate front ++ '.' :: ['.'].intercalate back := by
  induction front with
  | nil => exact (someFront rfl).elim
  | cons name front ih =>
      cases front with
      | nil =>
          obtain ⟨first, rest, rfl⟩ := List.exists_cons_of_ne_nil someBack
          simp [List.intercalate_cons_cons]
      | cons second front =>
          rw [List.cons_append, List.cons_append, List.intercalate_cons_cons, ← List.cons_append,
            ih (by simp), List.intercalate_cons_cons, List.append_assoc (name ++ ['.'])]

theorem splitOn_append_dot (front back : List Char) :
    (front ++ '.' :: back).splitOn '.' = front.splitOn '.' ++ back.splitOn '.' :=
  List.splitOnP_append_cons front back (by simp)

/-- A hint that is found at the end of joined names, as a whole or behind a dot, is made of the last
of them. -/
theorem joined_suffix_iff {names segments : List (List Char)}
    (plainNames : ∀ name ∈ names, '.' ∉ name) (nonempty : segments ≠ [])
    (plainSegments : ∀ segment ∈ segments, segment ≠ [] ∧ '.' ∉ segment) :
    (['.'].intercalate names = ['.'].intercalate segments ∨
      '.' :: ['.'].intercalate segments <:+ ['.'].intercalate names) ↔ segments <:+ names := by
  have splitSegments : (['.'].intercalate segments).splitOn '.' = segments :=
    List.splitOn_intercalate '.' (fun segment member => (plainSegments segment member).2) nonempty
  -- Without names there is no text, but the hint is one.
  have someNames : ['.'].intercalate names ≠ [] → names ≠ [] := by
    rintro someText rfl
    exact someText rfl
  constructor
  · rintro (same | ⟨front, whole⟩)
    · have someText : ['.'].intercalate segments ≠ [] := by
        obtain ⟨first, rest, rfl⟩ := List.exists_cons_of_ne_nil nonempty
        have someFirst := (plainSegments first List.mem_cons_self).1
        cases rest with
        | nil => simpa using someFirst
        | cons second rest => simp [List.intercalate_cons_cons]
      have splitNames := List.splitOn_intercalate '.' plainNames (someNames (same ▸ someText))
      rw [same, splitSegments] at splitNames
      rw [splitNames]
    · have splitNames := List.splitOn_intercalate '.' plainNames
        (someNames (by rw [← whole]; simp))
      rw [← whole, splitOn_append_dot, splitSegments] at splitNames
      exact ⟨front.splitOn '.', splitNames⟩
  · rintro ⟨front, rfl⟩
    cases front with
    | nil => exact .inl rfl
    | cons name front =>
        rw [intercalate_dot_append (by simp) nonempty]
        exact .inr (List.suffix_append _ _)

/-- **Comparing joined names is comparing the ends of lists.**  The names may be empty, the segments
of the hint may not. -/
theorem endsWithSegments_iff {names segments : List String}
    (plainNames : ∀ name ∈ names, '.' ∉ name.toList) (nonempty : segments ≠ [])
    (plainSegments : ∀ segment ∈ segments, segment ≠ "" ∧ '.' ∉ segment.toList) :
    endsWithSegments (".".intercalate names) (".".intercalate segments) = true ↔
      segments <:+ names := by
  have letters : ∀ list : List String,
      (".".intercalate list).toList = ['.'].intercalate (list.map String.toList) :=
    fun list => String.toList_intercalate
  have injective : Function.Injective String.toList := fun _ _ => String.toList_inj.1
  rw [endsWithSegments, Bool.or_eq_true, beq_iff_eq, List.isSuffixOf_iff_suffix, letters, letters,
    ← String.toList_inj, letters, letters, joined_suffix_iff]
  · constructor
    · intro ending
      obtain ⟨list, isEnd, same⟩ := List.suffix_map_iff.1 ending
      rwa [List.map_injective_iff.2 injective same]
    · intro ending
      exact ending.map String.toList
  · simpa using plainNames
  · simpa using nonempty
  · simpa using plainSegments

/-! ## Symbols that a name can mean -/

namespace Program

variable {program : Program}

/-- If following parents ends from every symbol, there is a chain of modules around each. -/
theorem exists_moduleChain {n : Nat} {parent : Option SymbolId}
    (ends : program.above^[n] parent = none) : ∃ names, program.ModuleChain parent names := by
  induction n generalizing parent with
  | zero =>
      obtain rfl : parent = none := ends
      exact ⟨[], .root⟩
  | succ n ih =>
      cases parent with
      | none => exact ⟨[], .root⟩
      | some id =>
          cases found : program.symbol? id with
          | none => exact ⟨[], .stop (by simp [found])⟩
          | some symbol =>
              cases isModule : symbol.hasAny Flag.module with
              | false => exact ⟨[], .stop (by simp [found, isModule])⟩
              | true =>
                  have goesOn : program.above (some id) = symbol.parent := by
                    simp [above, found]
                  rw [Function.iterate_succ_apply, goesOn] at ends
                  obtain ⟨names, above⟩ := ih ends
                  exact ⟨symbol.name :: names, .module found isModule above⟩

/-- The names of a chain are names of symbols. -/
theorem ModuleChain.plain {parent : Option SymbolId} {names : List String}
    (chain : program.ModuleChain parent names)
    (plain : ∀ symbol ∈ program.symbols, '.' ∉ symbol.name.toList) :
    ∀ name ∈ names, '.' ∉ name.toList := by
  induction chain with
  | root => simp
  | stop noModule => simp
  | module found isModule above ih =>
      intro name member
      rcases List.mem_cons.1 member with rfl | further
      · exact plain _ (Array.mem_of_getElem? found)
      · exact ih name further

/-- A symbol that a name can mean if it is written with a hint: it has the name, it is neither a
placeholder nor a type parameter, and the namespaces around it, outermost first, end with the
segments of the hint. -/
def Denotes (program : Program) (name : String) (segments : List String) (id : SymbolId) : Prop :=
  ∃ symbol names, program.symbol? id = some symbol ∧ symbol.name = name ∧
    symbol.hasAny Flag.internal = false ∧ symbol.hasAny Flag.typeParameter = false ∧
    program.ModuleChain symbol.parent names.reverse ∧ segments <:+ names

/-- The first symbol in the order of the table that a name with a hint can mean. -/
def FirstDenoted (program : Program) (name : String) (segments : List String) (id : SymbolId) :
    Prop :=
  program.Denotes name segments id ∧
    ∀ other, program.Denotes name segments other → id.toNat ≤ other.toNat

section Numbered

variable (numbered : program.symbols.size ≤ UInt32.size)
include numbered

theorem toNat_ofNat_of_mem {symbol : Symbol} {n : Nat}
    (member : (symbol, n) ∈ program.symbols.toList.zipIdx) :
    (SymbolId.mk (UInt32.ofNat n)).toNat = n := by
  have found := List.mk_mem_zipIdx_iff_getElem?.1 member
  have inside : n < program.symbols.size := by
    simpa using (List.getElem?_eq_some_iff.1 found).1
  exact UInt32.toNat_ofNat_of_lt' (Nat.lt_of_lt_of_le inside numbered)

theorem mem_symbolsNamed {name : String} {id : SymbolId} :
    id ∈ program.symbolsNamed name ↔
      ∃ symbol, program.symbol? id = some symbol ∧ symbol.name = name := by
  unfold symbolsNamed
  rw [List.mem_filterMap]
  constructor
  · rintro ⟨⟨symbol, n⟩, member, chosen⟩
    have place := toNat_ofNat_of_mem numbered member
    obtain ⟨named, rfl⟩ : symbol.name = name ∧ ⟨UInt32.ofNat n⟩ = id := by simpa using chosen
    refine ⟨symbol, ?_, named⟩
    rw [symbol?, place, ← Array.getElem?_toList]
    exact List.mk_mem_zipIdx_iff_getElem?.1 member
  · rintro ⟨symbol, found, named⟩
    have member : (symbol, id.toNat) ∈ program.symbols.toList.zipIdx := by
      rw [List.mk_mem_zipIdx_iff_getElem?, Array.getElem?_toList]
      exact found
    refine ⟨(symbol, id.toNat), member, ?_⟩
    show (if symbol.name = name then some _ else none) = some id
    rw [if_pos named]
    exact congrArg some (SymbolId.toNat_injective (toNat_ofNat_of_mem numbered member))

/-- Symbols of one name are listed in the order of the table. -/
theorem sorted_symbolsNamed (name : String) :
    (program.symbolsNamed name).Pairwise (·.toNat < ·.toNat) := by
  have places : program.symbols.toList.zipIdx.Pairwise (·.2 < ·.2) := by
    rw [← List.pairwise_map (R := (· < ·)), List.zipIdx_map_snd]
    exact List.pairwise_lt_range'
  unfold symbolsNamed
  rw [List.pairwise_filterMap]
  refine places.imp_of_mem
    fun {first second} isFirst isSecond less id chosen other otherChosen => ?_
  obtain ⟨-, rfl⟩ : first.1.name = name ∧ ⟨UInt32.ofNat first.2⟩ = id := by simpa using chosen
  obtain ⟨-, rfl⟩ : second.1.name = name ∧ ⟨UInt32.ofNat second.2⟩ = other := by
    simpa using otherChosen
  rw [toNat_ofNat_of_mem numbered isFirst, toNat_ofNat_of_mem numbered isSecond]
  exact less

variable (plain : ∀ symbol ∈ program.symbols, '.' ∉ symbol.name.toList)
  (ends : ∀ id, ∃ n, program.above^[n] (some id) = none)
  {hint : Option (List String)}
  (isHint : ∀ segments ∈ hint, segments ≠ [] ∧
    ∀ segment ∈ segments, segment ≠ "" ∧ '.' ∉ segment.toList)
include plain ends isHint

/-- The candidates among the symbols of a name are the symbols that are meant. -/
theorem denotes_iff {name : String} {id : SymbolId} :
    program.Denotes name (hint.getD []) id ↔
      id ∈ program.symbolsNamed name ∧
        program.isCandidate (hint.map (".".intercalate ·)) id = true := by
  rw [mem_symbolsNamed numbered]
  -- Both sides ask for a symbol, which then is the one with the number.
  cases found : program.symbol? id with
  | none => simp [Denotes, found]
  | some symbol =>
      obtain ⟨reversed, chain⟩ : ∃ names, program.ModuleChain symbol.parent names := by
        obtain ⟨n, finish⟩ := ends id
        cases n with
        | zero => cases finish
        | succ n =>
            rw [Function.iterate_succ_apply] at finish
            have goesOn : program.above (some id) = symbol.parent := by simp [above, found]
            exact exists_moduleChain (goesOn ▸ finish)
      obtain ⟨names, rfl⟩ : ∃ names : List String, reversed = names.reverse :=
        ⟨reversed.reverse, by simp⟩
      have matched : (hint.map (".".intercalate ·)).all
          (endsWithSegments (".".intercalate (program.namespaceChain symbol))) = true ↔
            hint.getD [] <:+ names := by
        rw [namespaceChain_eq chain]
        cases hint with
        | none => simp
        | some segments =>
            obtain ⟨nonempty, plainSegments⟩ := isHint segments rfl
            have plainNames : ∀ name ∈ names, '.' ∉ name.toList := by
              simpa using chain.plain plain
            exact endsWithSegments_iff plainNames nonempty plainSegments
      have listed : symbol.hasAny Flag.unlisted = false ↔
          symbol.hasAny Flag.internal = false ∧ symbol.hasAny Flag.typeParameter = false :=
        Flag.meets_or_eq_false
      simp only [isCandidate, found, Bool.and_eq_true, Bool.not_eq_true', listed, matched]
      constructor
      · rintro ⟨same, others, foundSame, named, visible, noParameter, otherChain, ending⟩
        obtain rfl := Option.some.inj (found.symm.trans foundSame)
        have sameNames := List.reverse_injective (chain.unique otherChain)
        exact ⟨⟨symbol, rfl, named⟩, ⟨visible, noParameter⟩, sameNames ▸ ending⟩
      · rintro ⟨⟨same, isSame, named⟩, ⟨visible, noParameter⟩, ending⟩
        obtain rfl := Option.some.inj isSame
        exact ⟨symbol, names, found, named, visible, noParameter, chain, ending⟩

theorem symbolByName?_eq_none_iff {name : String} :
    program.symbolByName? name (hint.map (".".intercalate ·)) = none ↔
      ¬∃ id, program.Denotes name (hint.getD []) id := by
  simp only [symbolByName?, List.find?_eq_none, denotes_iff numbered plain ends isHint, not_exists,
    not_and]

/-- What look-up by name finds is meant, and it is the first such symbol. -/
theorem firstDenoted_of_symbolByName? {name : String} {id : SymbolId}
    (found : program.symbolByName? name (hint.map (".".intercalate ·)) = some id) :
    program.FirstDenoted name (hint.getD []) id := by
  have denotes : ∀ id, program.Denotes name (hint.getD []) id ↔ _ :=
    fun id => denotes_iff numbered plain ends isHint
  obtain ⟨isCandidate, earlier, later, whole, refused⟩ := List.find?_eq_some_iff_append.1 found
  refine ⟨(denotes id).2 ⟨by simp [whole], isCandidate⟩, fun other isOther => ?_⟩
  obtain ⟨isNamed, otherCandidate⟩ := (denotes other).1 isOther
  have sorted := sorted_symbolsNamed numbered name
  rw [whole] at sorted isNamed
  rcases List.mem_append.1 isNamed with before | behind
  · have notCandidate := refused other before
    rw [otherCandidate] at notCandidate
    cases notCandidate
  · rcases List.mem_cons.1 behind with rfl | after
    · exact Nat.le_refl _
    · have pairs := (List.pairwise_append.1 sorted).2.1
      exact Nat.le_of_lt ((List.pairwise_cons.1 pairs).1 other after)

/-- **Look-up by name finds the first symbol that is meant.** -/
theorem symbolByName?_eq_some_iff {name : String} {id : SymbolId} :
    program.symbolByName? name (hint.map (".".intercalate ·)) = some id ↔
      program.FirstDenoted name (hint.getD []) id := by
  have first : ∀ {id}, _ → program.FirstDenoted name (hint.getD []) id :=
    firstDenoted_of_symbolByName? numbered plain ends isHint
  refine ⟨first, fun ⟨isDenoted, isFirst⟩ => ?_⟩
  cases found : program.symbolByName? name (hint.map (".".intercalate ·)) with
  | none =>
      exact ((symbolByName?_eq_none_iff numbered plain ends isHint).1 found ⟨id, isDenoted⟩).elim
  | some other =>
      obtain ⟨otherDenoted, otherFirst⟩ := first found
      have same : other.toNat = id.toNat :=
        Nat.le_antisymm (otherFirst id isDenoted) (isFirst other otherDenoted)
      rw [SymbolId.toNat_injective same]

end Numbered

end Program

/-! ## Answers -/

/-- A symbol that is meant has a reference. -/
theorem Program.Denotes.locate?_isSome {program : Program} {name : String} {segments : List String}
    {id : SymbolId} (denotes : program.Denotes name segments id) (base : String) :
    (program.locate? base id).isSome = true := by
  obtain ⟨symbol, names, found, -, visible, noParameter, -⟩ := denotes
  have listed : symbol.hasAny Flag.unlisted = false :=
    Flag.meets_or_eq_false.2 ⟨visible, noParameter⟩
  simp [locate?, found, listed]

/-- **A name with a hint means a symbol whose namespaces end with the segments of the hint.**  After
any look-ups, the index answers for the first such symbol in the order of the table as it does for
the number of that symbol, and it has no answer exactly if there is no such symbol.  Without a hint
every symbol of the name is one. -/
theorem hints_match_segments (program : Program) (base : String) (builtins : List String)
    (numbered : program.symbols.size ≤ UInt32.size)
    (plain : ∀ symbol ∈ program.symbols, '.' ∉ symbol.name.toList)
    (ends : ∀ id, ∃ n, program.above^[n] (some id) = none)
    (name : String) (hint : Option (List String))
    (isHint : ∀ segments ∈ hint, segments ≠ [] ∧
      ∀ segment ∈ segments, segment ≠ "" ∧ '.' ∉ segment.toList)
    {memory : ReferenceIndex.Memory}
    (reached : ReferenceIndex.Reached program base builtins memory) :
    (∀ id, program.FirstDenoted name (hint.getD []) id →
      (∀ other, ReferenceIndex.Reached program base builtins other →
        ((ReferenceIndex.remembering program base builtins).byName name
            (hint.map (".".intercalate ·)) memory).1 =
          ((ReferenceIndex.remembering program base builtins).bySymbol id other).1) ∧
      ((ReferenceIndex.remembering program base builtins).byName name
        (hint.map (".".intercalate ·)) memory).1.isSome = true) ∧
    (((ReferenceIndex.remembering program base builtins).byName name
        (hint.map (".".intercalate ·)) memory).1 = none ↔
      ¬∃ id, program.Denotes name (hint.getD []) id) := by
  have derived := (ReferenceIndex.agrees_byName program base builtins name
    (hint.map (".".intercalate ·)) memory reached.recalls).1
  rw [derived]
  show (∀ id, _ → (∀ other, _ → (program.symbolByName? name _).bind _ = _) ∧
    ((program.symbolByName? name _).bind _).isSome = true) ∧
      ((program.symbolByName? name _).bind _ = none ↔ _)
  constructor
  · intro id isFirst
    rw [(Program.symbolByName?_eq_some_iff numbered plain ends isHint).2 isFirst, Option.bind_some]
    refine ⟨fun other reachedOther => ?_, isFirst.1.locate?_isSome base⟩
    exact (ReferenceIndex.agrees_bySymbol program base builtins id other
      reachedOther.recalls).1.symm
  · rw [← Program.symbolByName?_eq_none_iff numbered plain ends isHint]
    cases found : program.symbolByName? name (hint.map (".".intercalate ·)) with
    | none => simp
    | some id =>
        have isFirst := (Program.symbolByName?_eq_some_iff numbered plain ends isHint).1 found
        have isSome := isFirst.1.locate?_isSome base
        rw [Option.bind_some]
        simp [Option.isSome_iff_ne_none.1 isSome]

/-- Two classes `Box`, one in the namespace `AB` and one in `lib.B`, and a placeholder of the same
name in `lib.B` before them. -/
def boxes : Program where
  symbols := #[
    { name := "AB", flags := Flag.module },
    { name := "lib", flags := Flag.module },
    { name := "B", flags := Flag.module, parent := some ⟨1⟩ },
    { name := "Box", flags := Flag.internal, parent := some ⟨2⟩ },
    { name := "Box", flags := Flag.classType, parent := some ⟨0⟩ },
    { name := "Box", flags := Flag.classType, parent := some ⟨2⟩ }]

theorem boxes_ends (id : SymbolId) : ∃ n, boxes.above^[n] (some id) = none := by
  cases found : boxes.symbol? id with
  | none => exact ⟨1, by simp [Program.above, found]⟩
  | some symbol =>
      have inside : id.toNat < 6 := (Array.getElem?_eq_some_iff.1 found).1
      have places : id = ⟨0⟩ ∨ id = ⟨1⟩ ∨ id = ⟨2⟩ ∨ id = ⟨3⟩ ∨ id = ⟨4⟩ ∨ id = ⟨5⟩ := by
        simp only [← SymbolId.toNat_injective.eq_iff]
        exact (by omega : id.toNat = 0 ∨ id.toNat = 1 ∨ id.toNat = 2 ∨ id.toNat = 3 ∨
          id.toNat = 4 ∨ id.toNat = 5)
      refine ⟨3, ?_⟩
      rcases places with rfl | rfl | rfl | rfl | rfl | rfl <;> decide

/-- The hint `B` is no part of the name `AB`, and the placeholder does not count. -/
theorem hints_match_segments_boxes :
    boxes.FirstDenoted "Box" ["B"] ⟨5⟩ ∧
      ((ReferenceIndex.remembering boxes "/project" []).byName "Box" (some "B") {}).1 =
        ((ReferenceIndex.remembering boxes "/project" []).bySymbol ⟨5⟩ {}).1 ∧
      ((ReferenceIndex.remembering boxes "/project" []).byName "Box" (some "B") {}).1.isSome =
        true := by
  have numbered : boxes.symbols.size ≤ UInt32.size := by decide
  have plain : ∀ symbol ∈ boxes.symbols, '.' ∉ symbol.name.toList := by decide
  have isHint : ∀ segments ∈ some ["B"], segments ≠ [] ∧
      ∀ segment ∈ segments, segment ≠ "" ∧ '.' ∉ segment.toList := by
    rintro segments ⟨⟩
    decide
  have isFirst : boxes.FirstDenoted "Box" ["B"] ⟨5⟩ :=
    (Program.symbolByName?_eq_some_iff numbered plain boxes_ends isHint).1 (by decide +kernel)
  obtain ⟨found, -⟩ := hints_match_segments boxes "/project" [] numbered plain boxes_ends "Box"
    (some ["B"]) isHint .empty
  obtain ⟨same, isSome⟩ := found ⟨5⟩ isFirst
  exact ⟨isFirst, same {} .empty, isSome⟩

end ApiDocs
