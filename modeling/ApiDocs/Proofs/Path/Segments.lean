import ApiDocs.Proofs.Path.Spelling

/-!
# Segments undo joining

The segments of a file are found by normalizing two paths and comparing their components.  Whoever
writes a path below a base joins the base with names, one after the other, and may put in steps that
lead nowhere: a `.`, or a name and a `..` after it.  **The segments are the names again**, whatever
the base is, because normalizing a joined path goes on where normalizing the base has stopped.

Normalizing works on components, and its result is a text that has to be read again.  The text of a
normal form has the components of the normal form, so nothing is lost on the way.

## Main definitions

* `Ordinary` — the texts that stand for a name in every place of a path.
* `IsNormal` — the lists of components that normalizing leads to.
* `joinAll` — a base joined with several texts, one after the other.
* `Winding` — the steps of a way with some that lead nowhere put in.

## Main statements

* `isNormal_pushNormal`, `isNormal_normalize` — what one component keeps, and what a whole path has.
* `normalize_of_isNormal`, `components_render` — normal forms are left alone and read back.
* `Winding.foldl_pushNormal` — steps that lead nowhere make no difference.
* `segments_undo_joining` — the segments of joined paths, and of any two paths.
-/

namespace ApiDocs.Path

/-! ## Ordinary names -/

/-- A text that stands for a name in every place of a path. -/
def Ordinary (text : String) : Prop :=
  text ∉ ["", ".", ".."] ∧ '/' ∉ text.toList

instance : DecidablePred Ordinary :=
  fun text => inferInstanceAs (Decidable (text ∉ ["", ".", ".."] ∧ '/' ∉ text.toList))

/-- A component that can stand behind others: a step up, or an ordinary name. -/
def Component.Inner : Component → Prop
  | .up => True
  | .name text => Ordinary text
  | _ => False

/-- A text without slashes is a single part. -/
theorem piecesOf_of_noSlash {text : List Char} (noSlash : '/' ∉ text) : piecesOf text = [text] := by
  induction text with
  | nil => rfl
  | cons c text ih =>
      rw [List.mem_cons, not_or] at noSlash
      obtain ⟨piece, rest, parts, longer⟩ := piecesOf_cons (Ne.symm noSlash.1) text
      rw [ih noSlash.2, List.cons.injEq] at parts
      rw [longer, ← parts.1, ← parts.2]

/-- No part has a slash in it. -/
theorem noSlash_of_mem_piecesOf {text piece : List Char} (member : piece ∈ piecesOf text) :
    '/' ∉ piece := by
  induction text generalizing piece with
  | nil => simp_all [piecesOf]
  | cons c text ih =>
      by_cases slash : c = '/'
      · subst slash
        rcases List.mem_cons.1 member with rfl | further
        · simp
        · exact ih further
      · obtain ⟨first, rest, parts, longer⟩ := piecesOf_cons slash text
        rw [parts] at ih
        rw [longer] at member
        rcases List.mem_cons.1 member with rfl | further
        · simp [Ne.symm slash, ih List.mem_cons_self]
        · exact ih (List.mem_cons_of_mem _ further)

/-- What a part without slashes can mean behind others. -/
theorem inner_of_innerComponent? {piece : List Char} {part : Component} (noSlash : '/' ∉ piece)
    (isPart : innerComponent? piece = some part) : part.Inner := by
  unfold innerComponent? at isPart
  split at isPart
  · cases isPart
  · split at isPart
    · cases isPart
    · split at isPart
      · cases isPart
        trivial
      · rename_i nonempty noDot noDots
        cases isPart
        refine ⟨?_, by rwa [String.toList_ofList]⟩
        simp only [List.mem_cons, List.not_mem_nil, or_false, not_or, ← String.toList_inj,
          String.toList_ofList]
        exact ⟨nonempty, noDot, noDots⟩

/-- The text of an inner component means that component. -/
theorem innerComponent?_text {part : Component} (inner : part.Inner) :
    innerComponent? part.text.toList = some part := by
  cases part with
  | up => rfl
  | name text =>
      obtain ⟨special, -⟩ := inner
      simp only [List.mem_cons, List.not_mem_nil, or_false, not_or, ← String.toList_inj] at special
      have nonempty : text.toList ≠ [] := special.1
      have noDot : text.toList ≠ ['.'] := special.2.1
      have noDots : text.toList ≠ ['.', '.'] := special.2.2
      rw [Component.text, innerComponent?, if_neg nonempty, if_neg noDot, if_neg noDots,
        String.ofList_toList]
  | root => exact inner.elim
  | here => exact inner.elim

theorem Component.Inner.noSlash {part : Component} (inner : part.Inner) :
    '/' ∉ part.text.toList := by
  cases part with
  | up => decide
  | name text => exact inner.2
  | root => exact inner.elim
  | here => exact inner.elim

theorem isAbsolute_of_noSlash {path : String} (noSlash : '/' ∉ path.toList) :
    isAbsolute path = false := by
  rw [isAbsolute, beq_eq_false_iff_ne]
  exact fun slash => noSlash (List.mem_of_mem_head? slash)

/-- A path without slashes is a single component, as a continuation. -/
theorem innerComponents_text {part : Component} (inner : part.Inner) :
    innerComponents part.text = [part] := by
  rw [innerComponents, pieces, piecesOf_of_noSlash inner.noSlash, List.filterMap_cons,
    innerComponent?_text inner]
  rfl

/-- The components of a path: the root, a leading `.`, and inner components. -/
theorem components_cases {path : String} {part : Component} (member : part ∈ components path) :
    part = .root ∨ part = .here ∨ part.Inner := by
  have inner : ∀ {parts : List (List Char)}, parts ⊆ pieces path →
      part ∈ parts.filterMap innerComponent? → part.Inner := by
    intro parts inPath member
    obtain ⟨piece, isPiece, isPart⟩ := List.mem_filterMap.1 member
    exact inner_of_innerComponent? (noSlash_of_mem_piecesOf (inPath isPiece)) isPart
  unfold components at member
  cases parts : pieces path with
  | nil => exact (piecesOf_ne_nil _ parts).elim
  | cons first rest =>
      have inRest : rest ⊆ pieces path := parts ▸ List.subset_cons_self first rest
      rw [parts] at member
      by_cases empty : first = []
      · by_cases alone : rest = []
        · rw [empty, alone] at member
          cases member
        · rw [empty, componentsOf_root alone] at member
          exact (List.mem_cons.1 member).imp_right fun further => .inr (inner inRest further)
      · by_cases dot : first = ['.']
        · rw [dot] at member
          exact .inr ((List.mem_cons.1 member).imp_right (inner inRest))
        · rw [componentsOf_name empty dot, ← parts] at member
          exact .inr (.inr (inner (List.Subset.refl _) member))

/-! ## Normal forms -/

/-- A normal path, given in reverse: ordinary names, before them at most a `..`, and before that at
most the root. -/
def IsNormal (stack : List Component) : Prop :=
  ∃ names : List String, ∃ start ∈ [[], [.up], [.root], [.up, .root]],
    (∀ name ∈ names, Ordinary name) ∧ stack = names.map .name ++ start

/-- **One component keeps a path normal.**  A `..` removes the last component, if it can. -/
theorem isNormal_pushNormal {stack : List Component} (normal : IsNormal stack) {part : Component}
    (isPart : part = .root ∨ part = .here ∨ part.Inner) : IsNormal (pushNormal stack part) := by
  obtain ⟨names, start, isStart, ordinary, rfl⟩ := normal
  rcases isPart with rfl | rfl | inner
  · exact ⟨[], [.root], by simp, by simp, rfl⟩
  · exact ⟨names, start, isStart, ordinary, rfl⟩
  · cases part with
    | root => exact inner.elim
    | here => exact inner.elim
    | name text =>
        exact ⟨text :: names, start, isStart, List.forall_mem_cons.2 ⟨inner, ordinary⟩, rfl⟩
    | up =>
        cases names with
        | cons name names =>
            exact ⟨names, start, isStart, (List.forall_mem_cons.1 ordinary).2, rfl⟩
        | nil =>
            -- What is left is one of the four starts, and so is what a `..` makes of it.
            simp only [List.mem_cons, List.not_mem_nil, or_false] at isStart
            rcases isStart with rfl | rfl | rfl | rfl
            · exact ⟨[], [.up], by simp, by simp, rfl⟩
            · exact ⟨[], [], by simp, by simp, rfl⟩
            · exact ⟨[], [.up, .root], by simp, by simp, rfl⟩
            · exact ⟨[], [.root], by simp, by simp, rfl⟩

/-- **Every path has a normal form.** -/
theorem isNormal_normalize (path : String) : IsNormal (normalize (components path)).reverse := by
  have keeps : ∀ (parts : List Component) (stack : List Component), IsNormal stack →
      (∀ part ∈ parts, part = .root ∨ part = .here ∨ part.Inner) →
      IsNormal (parts.foldl pushNormal stack) := by
    intro parts
    induction parts with
    | nil => exact fun stack normal _ => normal
    | cons part parts ih =>
        intro stack normal each
        obtain ⟨first, others⟩ := List.forall_mem_cons.1 each
        exact ih _ (isNormal_pushNormal normal first) others
  rw [normalize, List.reverse_reverse]
  exact keeps _ [] ⟨[], [], by simp, by simp, rfl⟩ fun _ => components_cases

/-- A normal form from its start: one of four beginnings, and ordinary names. -/
theorem eq_append_of_isNormal {parts : List Component} (normal : IsNormal parts.reverse) :
    ∃ start ∈ [[], [.up], [.root], [.root, .up]], ∃ names : List String,
      (∀ name ∈ names, Ordinary name) ∧ parts = start ++ names.map .name := by
  obtain ⟨names, start, isStart, ordinary, whole⟩ := normal
  refine ⟨start.reverse, ?_, names.reverse, ?_, ?_⟩
  · simp only [List.mem_cons, List.not_mem_nil, or_false] at isStart
    rcases isStart with rfl | rfl | rfl | rfl <;> simp
  · simpa using ordinary
  · rw [← List.reverse_reverse parts, whole, List.reverse_append, List.map_reverse]

/-- Normal forms are left alone. -/
theorem normalize_of_isNormal {parts : List Component} (normal : IsNormal parts.reverse) :
    normalize parts = parts := by
  obtain ⟨start, isStart, names, -, rfl⟩ := eq_append_of_isNormal normal
  have kept : start.foldl pushNormal [] = start.reverse := by
    simp only [List.mem_cons, List.not_mem_nil, or_false] at isStart
    rcases isStart with rfl | rfl | rfl | rfl <;> rfl
  rw [normalize, List.foldl_append, kept, foldl_pushNormal_names]
  simp

/-- A normal form is made of inner components, with the root before them or not. -/
theorem inner_of_isNormal {parts : List Component} (normal : IsNormal parts.reverse) :
    ∃ below, (∀ part ∈ below, part.Inner) ∧ (parts = below ∨ parts = .root :: below) := by
  obtain ⟨start, isStart, names, ordinary, rfl⟩ := eq_append_of_isNormal normal
  have inner : ∀ part ∈ names.map Component.name, part.Inner := by
    intro part member
    obtain ⟨name, isName, rfl⟩ := List.mem_map.1 member
    exact ordinary name isName
  have climbing : ∀ part ∈ Component.up :: names.map .name, part.Inner :=
    List.forall_mem_cons.2 ⟨trivial, inner⟩
  simp only [List.mem_cons, List.not_mem_nil, or_false] at isStart
  rcases isStart with rfl | rfl | rfl | rfl
  · exact ⟨_, inner, .inl rfl⟩
  · exact ⟨_, climbing, .inl rfl⟩
  · exact ⟨_, inner, .inr rfl⟩
  · exact ⟨_, climbing, .inr rfl⟩

/-- A normal form has no `.`, and a `..` only at the start or after the root. -/
theorem shape_of_isNormal {parts : List Component} (normal : IsNormal parts.reverse) :
    .here ∉ parts ∧ ∀ before after, parts = before ++ .up :: after →
      before = [] ∨ before = [.root] := by
  obtain ⟨start, isStart, names, -, rfl⟩ := eq_append_of_isNormal normal
  have noUp : Component.up ∉ names.map Component.name := by simp
  constructor
  · simp only [List.mem_cons, List.not_mem_nil, or_false] at isStart
    rcases isStart with rfl | rfl | rfl | rfl <;> simp
  · intro before after whole
    rcases List.append_eq_append_iff.1 whole with ⟨more, -, further⟩ | ⟨more, front, further⟩
    · -- The `..` would stand among the names.
      exact (noUp (by simp [further])).elim
    · simp only [List.mem_cons, List.not_mem_nil, or_false] at isStart
      cases more with
      | nil =>
          rw [List.nil_append] at further
          exact (noUp (by simp [← further])).elim
      | cons part more =>
          rw [List.cons_append, List.cons.injEq] at further
          obtain rfl := further.1
          -- No start has a `..` at another place than these.
          rcases before with _ | ⟨first, _ | ⟨second, rest⟩⟩
          · exact .inl rfl
          · rcases isStart with rfl | rfl | rfl | rfl
            · cases front
            · cases front
            · cases front
            · cases front
              exact .inr rfl
          · rcases isStart with rfl | rfl | rfl | rfl <;> simp at front

/-! ## Reading normal forms -/

/-- Joined texts have the texts for parts. -/
theorem piecesOf_intercalate {texts : List (List Char)} (nonempty : texts ≠ [])
    (noSlash : ∀ text ∈ texts, '/' ∉ text) : piecesOf (['/'].intercalate texts) = texts := by
  induction texts with
  | nil => exact (nonempty rfl).elim
  | cons text texts ih =>
      obtain ⟨first, others⟩ := List.forall_mem_cons.1 noSlash
      cases texts with
      | nil => simpa using piecesOf_of_noSlash first
      | cons second texts =>
          rw [List.intercalate_cons_cons, List.append_assoc, List.singleton_append,
            piecesOf_append_slash, piecesOf_of_noSlash first, ih (by simp) others]
          rfl

theorem pieces_intercalate {parts : List Component} (nonempty : parts ≠ [])
    (inner : ∀ part ∈ parts, part.Inner) :
    pieces ("/".intercalate (parts.map Component.text)) =
      parts.map fun part => part.text.toList := by
  rw [pieces, String.toList_intercalate, List.map_map]
  refine piecesOf_intercalate (by simpa using nonempty) fun text member => ?_
  obtain ⟨part, isPart, rfl⟩ := List.mem_map.1 member
  exact (inner part isPart).noSlash

/-- The text of inner components, read as a continuation. -/
theorem innerComponents_intercalate {parts : List Component} (inner : ∀ part ∈ parts, part.Inner) :
    innerComponents ("/".intercalate (parts.map Component.text)) = parts := by
  by_cases empty : parts = []
  · rw [empty]
    rfl
  · calc innerComponents ("/".intercalate (parts.map Component.text))
        = parts.filterMap fun part => innerComponent? part.text.toList := by
          rw [innerComponents, pieces_intercalate empty inner, List.filterMap_map]
          rfl
      _ = parts.filterMap some :=
          List.filterMap_congr fun part isPart => innerComponent?_text (inner part isPart)
      _ = parts := List.filterMap_some

/-- The text of inner components has no other components: it starts neither with a slash nor with a
`.` alone. -/
theorem components_intercalate {parts : List Component} (inner : ∀ part ∈ parts, part.Inner) :
    components ("/".intercalate (parts.map Component.text)) = parts := by
  refine Eq.trans ?_ (innerComponents_intercalate inner)
  cases parts with
  | nil => rfl
  | cons first rest =>
      have isFirst := innerComponent?_text (List.forall_mem_cons.1 inner).1
      have nonempty : first.text.toList ≠ [] := by
        intro empty
        rw [empty] at isFirst
        cases isFirst
      have noDot : first.text.toList ≠ ['.'] := by
        intro dot
        rw [dot] at isFirst
        cases isFirst
      rw [components, innerComponents, pieces_intercalate (by simp) inner]
      exact componentsOf_name nonempty noDot

/-- **Normal forms read back**: the text of a normal form has its components. -/
theorem components_render {parts : List Component} (normal : IsNormal parts.reverse) :
    components (render parts) = parts := by
  obtain ⟨below, inner, rfl | rfl⟩ := inner_of_isNormal normal
  · have text : render parts = "/".intercalate (parts.map Component.text) := by
      cases parts with
      | nil => rfl
      | cons first rest =>
          cases first with
          | root => exact (inner .root List.mem_cons_self).elim
          | _ => rfl
    rw [text, components_intercalate inner]
  · have text : pieces ("/" ++ "/".intercalate (below.map Component.text)) =
        [] :: pieces ("/".intercalate (below.map Component.text)) := by
      rw [pieces, String.toList_append]
      rfl
    have read : componentsOf (pieces ("/" ++ "/".intercalate (below.map Component.text))) =
        .root :: innerComponents ("/".intercalate (below.map Component.text)) := by
      rw [text]
      exact componentsOf_root (piecesOf_ne_nil _)
    rw [render, components, read, innerComponents_intercalate inner]

/-- The components of the normal form of a path, read from its text. -/
theorem components_normalText (path : String) :
    components (normalText path) = normalize (components path) :=
  components_render (isNormal_normalize path)

/-! ## Joining step by step -/

/-- A base joined with several texts, one after the other. -/
def joinAll (base : String) (steps : List String) : String :=
  steps.foldl join base

/-- The steps of a way with some that lead nowhere put in: a `.`, or a detour over a name. -/
inductive Winding (way : List String) : List String → Prop
  | direct : Winding way way
  | here {before after : List String} (winds : Winding way (before ++ after)) :
      Winding way (before ++ "." :: after)
  | detour {before after : List String} {name : String} (winds : Winding way (before ++ after))
      (ordinary : Ordinary name) : Winding way (before ++ name :: ".." :: after)

/-- Normalizing a joined path goes on where normalizing the base has stopped. -/
theorem foldl_components_join {base path : String} (relative : isAbsolute path = false) :
    (components (join base path)).foldl pushNormal [] =
      (innerComponents path).foldl pushNormal ((components base).foldl pushNormal []) := by
  by_cases empty : base = ""
  · have same : join base path = path := by
      rw [empty, join, relative]
      simp
    rw [same, empty, foldl_components rfl relative]
    rfl
  · rw [components_join empty relative, List.foldl_append]

theorem foldl_components_joinAll {steps : List String}
    (relative : ∀ step ∈ steps, isAbsolute step = false) :
    ∀ base, (components (joinAll base steps)).foldl pushNormal [] =
      (steps.flatMap innerComponents).foldl pushNormal ((components base).foldl pushNormal []) := by
  induction steps with
  | nil => exact fun base => rfl
  | cons step steps ih =>
      intro base
      obtain ⟨first, others⟩ := List.forall_mem_cons.1 relative
      rw [List.flatMap_cons, List.foldl_append, ← foldl_components_join first]
      exact ih others (join base step)

theorem innerComponents_of_ordinary {name : String} (ordinary : Ordinary name) :
    innerComponents name = [.name name] :=
  innerComponents_text (show (Component.name name).Inner from ordinary)

namespace Winding

variable {way steps : List String}

theorem relative (winds : Winding way steps) (direct : ∀ step ∈ way, isAbsolute step = false) :
    ∀ step ∈ steps, isAbsolute step = false := by
  induction winds with
  | direct => exact direct
  | here _ ih =>
      simp only [List.forall_mem_append, List.forall_mem_cons] at ih ⊢
      exact ⟨ih.1, by decide +kernel, ih.2⟩
  | detour _ ordinary ih =>
      simp only [List.forall_mem_append, List.forall_mem_cons] at ih ⊢
      exact ⟨ih.1, isAbsolute_of_noSlash ordinary.2, by decide +kernel, ih.2⟩

/-- **Steps that lead nowhere make no difference**: a `.` is passed over, and a `..` removes the
name before it, wherever they stand. -/
theorem foldl_pushNormal (winds : Winding way steps) (stack : List Component) :
    (steps.flatMap innerComponents).foldl pushNormal stack =
      (way.flatMap innerComponents).foldl pushNormal stack := by
  induction winds with
  | direct => rfl
  | here _ ih =>
      rw [← ih, List.flatMap_append, List.flatMap_append, List.flatMap_cons]
      rfl
  | detour _ ordinary ih =>
      rw [← ih]
      simp only [List.flatMap_append, List.flatMap_cons, innerComponents_of_ordinary ordinary,
        List.foldl_append]
      rfl

end Winding

/-- The normal form of a base joined with names, whatever steps that lead nowhere are put in. -/
theorem normalize_joinAll {way steps : List String} (ordinary : ∀ name ∈ way, Ordinary name)
    (winds : Winding way steps) (base : String) :
    normalize (components (joinAll base steps)) =
      normalize (components base) ++ way.map .name := by
  have names : way.flatMap innerComponents = way.map .name := by
    rw [List.map_eq_flatMap]
    exact List.flatMap_congr fun name isName => innerComponents_of_ordinary (ordinary name isName)
  have relative := winds.relative fun step member => isAbsolute_of_noSlash (ordinary step member).2
  rw [normalize, foldl_components_joinAll relative, winds.foldl_pushNormal, names,
    foldl_pushNormal_names, List.reverse_append, ← List.map_reverse, List.reverse_reverse]
  rfl

/-! ## Segments -/

/-- **Segments undo joining.**  Let a base be joined with names, the last of them that of a file,
and let steps that lead nowhere be put in anywhere after the base: the segments are the names before
the last.  Normalizing twice is normalizing once, and its result has no `.`, and a `..` only at the
start or after the root.  In general there are segments exactly if the components of the normal form
of the file go on from those of the base, and then they are what follows, without the last. -/
theorem segments_undo_joining :
    (∀ (base : String) (names : List String) (file : String) (steps : List String),
        (∀ name ∈ names, Ordinary name) → Ordinary file → Winding (names ++ [file]) steps →
        segments? base (joinAll base steps) = some names) ∧
      (∀ path : String, normalText (normalText path) = normalText path ∧
        .here ∉ components (normalText path) ∧
        ∀ before after, components (normalText path) = before ++ .up :: after →
          before = [] ∨ before = [.root]) ∧
      ∀ base file : String,
        (∀ names, segments? base file = some names ↔
          ∃ below, components (normalText file) = components (normalText base) ++ below ∧
            names = below.dropLast.map Component.text) ∧
        (segments? base file = none ↔
          ¬∃ below, components (normalText file) = components (normalText base) ++ below) := by
  refine ⟨?_, fun path => ⟨?_, ?_⟩, fun base file => ⟨fun names => ?_, ?_⟩⟩
  · intro base names file steps ordinary ordinaryFile winds
    have each : ∀ name ∈ names ++ [file], Ordinary name :=
      List.forall_mem_append.2 ⟨ordinary, List.forall_mem_singleton.2 ordinaryFile⟩
    have below : remainder? (normalize (components base))
        (normalize (components (joinAll base steps))) = some ((names ++ [file]).map .name) :=
      remainder?_eq_some_iff.2 (normalize_joinAll each winds base)
    rw [segments?, below, Option.map_some, ← List.map_dropLast, List.dropLast_concat, List.map_map]
    exact congrArg some (List.map_id names)
  · rw [normalText, components_normalText, normalize_of_isNormal (isNormal_normalize path)]
    rfl
  · rw [components_normalText]
    exact shape_of_isNormal (isNormal_normalize path)
  · simp only [segments?, Option.map_eq_some_iff, remainder?_eq_some_iff, components_normalText,
      eq_comm (a := names)]
  · rw [segments?, Option.map_eq_none_iff, remainder?_eq_none_iff, components_normalText,
      components_normalText]
    simp only [List.IsPrefix, eq_comm]

/-- A base that climbs and has a `.` of its own, and a file two names below it on a way with a `.`
and with detours at both ends.  The file is outside a base with another name. -/
theorem segments_undo_joining_lib :
    joinAll "../lib/." ["x", "..", "text", ".", "lines", "y.ts", "z", ".."] =
        "../lib/./x/../text/./lines/y.ts/z/.." ∧
      segments? "../lib/." "../lib/./x/../text/./lines/y.ts/z/.." = some ["text", "lines"] ∧
      normalText (normalText "../lib/.") = "../lib" ∧
      segments? "../app" "../lib/./x/../text/./lines/y.ts/z/.." = none := by
  obtain ⟨joined, normal, general⟩ := segments_undo_joining
  have text : joinAll "../lib/." ["x", "..", "text", ".", "lines", "y.ts", "z", ".."] =
      "../lib/./x/../text/./lines/y.ts/z/.." := by decide +kernel
  have straight : Winding (["text", "lines"] ++ ["y.ts"]) (["text"] ++ ["lines", "y.ts"]) :=
    .direct
  have dotted : Winding (["text", "lines"] ++ ["y.ts"]) ([] ++ ["text", ".", "lines", "y.ts"]) :=
    straight.here
  have around : Winding (["text", "lines"] ++ ["y.ts"])
      (["x", "..", "text", ".", "lines", "y.ts"] ++ []) :=
    Winding.detour dotted (show Ordinary "x" by decide +kernel)
  refine ⟨text, ?_, ?_, ?_⟩
  · rw [← text]
    exact joined _ _ "y.ts" _ (by decide +kernel) (by decide +kernel)
      (Winding.detour around (show Ordinary "z" by decide +kernel))
  · rw [(normal _).1]
    decide +kernel
  · rw [(general _ _).2]
    rintro ⟨below, whole⟩
    have start : components (normalText "../app") = [.up, .name "app"] := by decide +kernel
    have file : components (normalText "../lib/./x/../text/./lines/y.ts/z/..") =
        [.up, .name "lib", .name "text", .name "lines", .name "y.ts"] := by decide +kernel
    rw [start, file] at whole
    simp at whole

end ApiDocs.Path
