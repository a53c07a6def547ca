import ApiDocs.Path.Normal
import ApiDocs.Proofs.Path.Join

/-!
# Relative and absolute spellings of a path

A relative path climbs some levels above the directory that it starts from, and then goes down along
names.  Below an absolute directory the levels are names of that directory, so its normal form has
the same course with the names filled in.  Whether a file lies below a base can then be compared:
where **both climb equally far**, the two spellings give the same segments, and where they do not,
the absolute spelling also depends on the names of the directory, which no relative spelling tells.

## Main definitions

* `Course` — how far a relative path climbs, and the names it goes down along.
* `height`, `descent` — the two parts of the course of a path.
* `placeIn` — the names of the place that a relative path leads to from a directory.

## Main statements

* `normalize_relative`, `normalize_join` — the two normal forms of a relative path.
* `segments_spelling` — how the segments of the two spellings compare.
* `segments_depend_on_directory` — why the spellings cannot always give the same segments.

## Design notes

**Two levels cancel.**  A `..` removes an earlier `..` of a relative path, so the normal form of a
relative path only tells whether its height is odd.  Statements about different heights are about
heights of at most one, which the normal form does tell.
-/

namespace ApiDocs.Path

/-! ## Courses -/

/-- Where a path has led so far: so many levels up, and from there down along names, the last one
first. -/
structure Course where
  height : Nat := 0
  names : List String := []

/-- One more component of a path. -/
def Course.advance (course : Course) : Component → Course
  | .up =>
    match course.names with
    | [] => { course with height := course.height + 1 }
    | _ :: rest => { course with names := rest }
  | .name text => { course with names := text :: course.names }
  | _ => course

/-- The course of a path. -/
def courseOf (path : String) : Course :=
  (components path).foldl Course.advance {}

/-- How many levels a path climbs above the directory that it starts from. -/
def height (path : String) : Nat :=
  (courseOf path).height

/-- The names that a path goes down along after it has climbed. -/
def descent (path : String) : List String :=
  (courseOf path).names.reverse

/-- One component climbs one level or none, and only a `..` climbs. -/
theorem Course.height_advance (course : Course) (part : Component) :
    course.height ≤ (course.advance part).height ∧
      (course.advance part).height ≤ course.height + [part].count .up := by
  unfold advance
  split
  · split <;> simp
  · simp
  · simp

/-- A path climbs no more levels than it has `..` components, and never back down. -/
theorem Course.height_foldl_advance (parts : List Component) :
    ∀ course : Course, course.height ≤ (parts.foldl advance course).height ∧
      (parts.foldl advance course).height ≤ course.height + parts.count .up := by
  induction parts with
  | nil => intro course; simp
  | cons part parts ih =>
      intro course
      have first := course.height_advance part
      have rest := ih (course.advance part)
      have split : (part :: parts).count .up = [part].count .up + parts.count .up := by
        rw [← List.count_append, List.singleton_append]
      rw [List.foldl_cons, split]
      omega

theorem height_le_count (path : String) : height path ≤ (components path).count .up := by
  have bound := (Course.height_foldl_advance (components path) {}).2
  rwa [Nat.zero_add] at bound

/-! ## Normal forms -/

/-- What is left of a relative path, in reverse: a `..` if the height is odd, and the names. -/
def Course.relative (course : Course) : List Component :=
  course.names.map .name ++ List.replicate (course.height % 2) .up

/-- What is left of a path below a directory with the given names, in reverse. -/
def Course.below (course : Course) (directory : List String) : List Component :=
  course.names.map .name ++
    ((directory.take (directory.length - course.height)).reverse.map .name ++ [.root])

theorem pushNormal_relative (course : Course) {part : Component}
    (inner : part = .up ∨ ∃ text, part = .name text) :
    pushNormal course.relative part = (course.advance part).relative := by
  obtain ⟨height, names⟩ := course
  rcases inner with rfl | ⟨text, rfl⟩
  · cases names with
    | cons text rest => rfl
    | nil =>
        -- The `..` cancels the one that is left of an odd height.
        rcases Nat.mod_two_eq_zero_or_one height with even | odd
        · have next : (height + 1) % 2 = 1 := by omega
          simp [Course.relative, Course.advance, even, next, pushNormal]
        · have next : (height + 1) % 2 = 0 := by omega
          simp [Course.relative, Course.advance, odd, next, pushNormal]
  · rfl

theorem pushNormal_below (course : Course) (directory : List String) {part : Component}
    (inner : part = .up ∨ ∃ text, part = .name text)
    (inside : (course.advance part).height ≤ directory.length) :
    pushNormal (course.below directory) part = (course.advance part).below directory := by
  obtain ⟨height, names⟩ := course
  rcases inner with rfl | ⟨text, rfl⟩
  · cases names with
    | cons text rest => rfl
    | nil =>
        -- The `..` removes the last name of the directory that is left.
        have room : height + 1 ≤ directory.length := inside
        obtain ⟨left, isLeft⟩ : ∃ left, directory.length - height = left + 1 :=
          ⟨directory.length - height - 1, by omega⟩
        have next : directory.length - (height + 1) = left := by omega
        have shorter : left < directory.length := by omega
        simp only [Course.below, Course.advance, isLeft, next, List.map_nil, List.nil_append]
        rw [List.take_succ_eq_append_getElem shorter, List.reverse_append]
        rfl
  · rfl

theorem foldl_pushNormal_relative {parts : List Component}
    (inner : ∀ part ∈ parts, part = .up ∨ ∃ text, part = .name text) :
    ∀ course : Course,
      parts.foldl pushNormal course.relative = (parts.foldl Course.advance course).relative := by
  induction parts with
  | nil => intro course; rfl
  | cons part parts ih =>
      intro course
      rw [List.forall_mem_cons] at inner
      rw [List.foldl_cons, List.foldl_cons, pushNormal_relative course inner.1]
      exact ih inner.2 _

theorem foldl_pushNormal_below (directory : List String) {parts : List Component}
    (inner : ∀ part ∈ parts, part = .up ∨ ∃ text, part = .name text) :
    ∀ course : Course, (parts.foldl Course.advance course).height ≤ directory.length →
      parts.foldl pushNormal (course.below directory) =
        (parts.foldl Course.advance course).below directory := by
  induction parts with
  | nil => intro course inside; rfl
  | cons part parts ih =>
      intro course inside
      rw [List.forall_mem_cons] at inner
      rw [List.foldl_cons] at inside
      have room := Nat.le_trans (Course.height_foldl_advance parts (course.advance part)).1 inside
      rw [List.foldl_cons, List.foldl_cons, pushNormal_below course directory inner.1 room]
      exact ih inner.2 _ inside

/-- The course of a relative path, read off its inner components. -/
theorem courseOf_relative {path : String} (relative : isAbsolute path = false) :
    courseOf path = (innerComponents path).foldl Course.advance {} :=
  foldl_components rfl relative

/-- The normal form of a relative path: a `..` if its height is odd, and its descent. -/
theorem normalize_relative {path : String} (relative : isAbsolute path = false) :
    normalize (components path) =
      List.replicate (height path % 2) .up ++ (descent path).map .name := by
  have folded : (components path).foldl pushNormal [] = (courseOf path).relative := by
    rw [foldl_components rfl relative, courseOf_relative relative]
    exact foldl_pushNormal_relative (fun _ => innerComponents_cases) {}
  rw [normalize, folded, Course.relative, List.reverse_append, List.reverse_replicate,
    ← List.map_reverse]
  rfl

/-- A path with the root among its components is absolute. -/
theorem isAbsolute_of_components {path : String} {rest : List Component}
    (rooted : components path = .root :: rest) : isAbsolute path = true := by
  by_contra relative
  rw [Bool.not_eq_true] at relative
  rcases components_of_relative relative with same | dotted
  · have member : Component.root ∈ innerComponents path := by simp [← same, rooted]
    rcases innerComponents_cases member with impossible | ⟨text, impossible⟩ <;> cases impossible
  · rw [rooted] at dotted
    cases dotted

/-- The names of the place that a relative path leads to from a directory: what is left of the names
of the directory, and the descent. -/
def placeIn (directory : List String) (path : String) : List String :=
  directory.take (directory.length - height path) ++ descent path

theorem foldl_pushNormal_names (names : List String) :
    ∀ stack, (names.map .name).foldl pushNormal stack = names.reverse.map .name ++ stack := by
  induction names with
  | nil => intro stack; rfl
  | cons name names ih =>
      intro stack
      rw [List.map_cons, List.foldl_cons, ih]
      simp [pushNormal]

/-- The normal form of a relative path below a directory that it does not climb out of. -/
theorem normalize_join {base path : String} {directory : List String}
    (isDirectory : components base = .root :: directory.map .name)
    (relative : isAbsolute path = false) (inside : height path ≤ directory.length) :
    normalize (components (join base path)) = .root :: (placeIn directory path).map .name := by
  have start : (components base).foldl pushNormal [] = Course.below {} directory := by
    rw [isDirectory, List.foldl_cons, foldl_pushNormal_names]
    simp [Course.below, pushNormal]
  have folded : (components (join base path)).foldl pushNormal [] =
      (courseOf path).below directory := by
    rw [components_join (ne_empty_of_isAbsolute (isAbsolute_of_components isDirectory)) relative,
      List.foldl_append, start, courseOf_relative relative]
    refine foldl_pushNormal_below directory (fun _ => innerComponents_cases) {} ?_
    rwa [← courseOf_relative relative]
  rw [normalize, folded, Course.below, placeIn]
  simp [descent, height]

/-! ## Segments -/

/-- A common beginning makes no difference to what a list continues with. -/
theorem remainder?_append (start base parts : List Component) :
    remainder? (start ++ base) (start ++ parts) = remainder? base parts := by
  induction start with
  | nil => rfl
  | cons part start ih => rw [List.cons_append, List.cons_append, remainder?, if_pos rfl, ih]

theorem remainder?_eq_none_iff {base parts : List Component} :
    remainder? base parts = none ↔ ¬base <+: parts := by
  rw [Option.eq_none_iff_forall_ne_some]
  constructor
  · rintro never ⟨below, whole⟩
    exact never below (remainder?_eq_some_iff.2 whole.symm)
  · rintro different below isBelow
    exact different ⟨below, (remainder?_eq_some_iff.1 isBelow).symm⟩

theorem map_name_prefix_iff {first second : List String} :
    first.map Component.name <+: second.map Component.name ↔ first <+: second := by
  have injective : Function.Injective Component.name := by
    intro one other same
    cases same
    rfl
  rw [List.prefix_iff_eq_take, List.prefix_iff_eq_take, List.length_map, ← List.map_take]
  exact (List.map_injective_iff.2 injective).eq_iff

/-- **How two spellings of a base and a file compare.**  Let both be relative, and let the directory
`root` have at least as many names as either has `..` components.  If both climb equally far, the
segments are the same below the directory as without it.  Below the directory there are none exactly
if the place of the base does not lead to the place of the file.  Without it there are none if one
of the two climbs a level, the other stays, and the base is not empty. -/
theorem segments_spelling {root base file : String} {directory : List String}
    (isDirectory : components root = .root :: directory.map .name)
    (relativeBase : isAbsolute base = false) (relativeFile : isAbsolute file = false)
    (roomForBase : (components base).count .up ≤ directory.length)
    (roomForFile : (components file).count .up ≤ directory.length) :
    (height base = height file →
        segments? (join root base) (join root file) = segments? base file) ∧
      (segments? (join root base) (join root file) = none ↔
        ¬placeIn directory base <+: placeIn directory file) ∧
      (height base ≠ height file → height base ≤ 1 → height file ≤ 1 →
        (height base ≠ 0 ∨ descent base ≠ []) → segments? base file = none) := by
  have insideBase := Nat.le_trans (height_le_count base) roomForBase
  have insideFile := Nat.le_trans (height_le_count file) roomForFile
  have absolute : segments? (join root base) (join root file) =
      (remainder? ((placeIn directory base).map .name) ((placeIn directory file).map .name)).map
        fun below => below.dropLast.map Component.text := by
    rw [segments?, normalize_join isDirectory relativeBase insideBase,
      normalize_join isDirectory relativeFile insideFile, remainder?, if_pos rfl]
  have relative : segments? base file =
      (remainder? (List.replicate (height base % 2) .up ++ (descent base).map .name)
        (List.replicate (height file % 2) .up ++ (descent file).map .name)).map
        fun below => below.dropLast.map Component.text := by
    rw [segments?, normalize_relative relativeBase, normalize_relative relativeFile]
  rw [absolute, relative]
  refine ⟨?_, ?_, ?_⟩
  · intro same
    rw [placeIn, placeIn, same, List.map_append, List.map_append, remainder?_append,
      remainder?_append]
  · rw [Option.map_eq_none_iff, remainder?_eq_none_iff, map_name_prefix_iff]
  · intro different baseLow fileLow notEmpty
    rw [Option.map_eq_none_iff, remainder?_eq_none_iff]
    -- One of the two normal forms starts with `..`, and the other one does not.
    rcases Nat.le_one_iff_eq_zero_or_eq_one.1 baseLow with baseStays | baseClimbs
    · have fileClimbs : height file = 1 := by omega
      rw [baseStays, fileClimbs]
      cases down : descent base with
      | nil => exact (notEmpty.elim (· baseStays) (· down)).elim
      | cons name names => simp
    · have fileStays : height file = 0 := by omega
      rw [baseClimbs, fileStays]
      cases descent file <;> simp

/-- A base and a file that both climb one level have the same segments in both spellings.  A file
that stays is outside a base that climbs, in the relative spelling, and below it in a directory. -/
theorem segments_spelling_project :
    segments? (join "/project/app" "../lib") (join "/project/app" "../lib/text/x.ts") =
        segments? "../lib" "../lib/text/x.ts" ∧
      segments? ".." "x.ts" = none ∧
      segments? (join "/project/app" "..") (join "/project/app" "x.ts") ≠ none := by
  have isDirectory : components "/project/app" = .root :: ["project", "app"].map .name := by
    decide +kernel
  have libRelative : isAbsolute "../lib" = false := by decide +kernel
  have textRelative : isAbsolute "../lib/text/x.ts" = false := by decide +kernel
  have upRelative : isAbsolute ".." = false := by decide +kernel
  have fileRelative : isAbsolute "x.ts" = false := by decide +kernel
  obtain ⟨same, -, -⟩ := segments_spelling isDirectory libRelative textRelative
    (by decide +kernel) (by decide +kernel)
  obtain ⟨-, below, outside⟩ := segments_spelling isDirectory upRelative fileRelative
    (by decide +kernel) (by decide +kernel)
  refine ⟨same (by decide +kernel), ?_, ?_⟩
  · apply outside <;> decide +kernel
  · rw [Ne, below]
    decide +kernel

/-- The directory that both paths start from makes a difference: a base that climbs one level leads
to the file `x.ts` through the name of that directory, which is a segment of the absolute spelling
and which the relative spelling does not tell. -/
theorem segments_depend_on_directory :
    ¬∀ (root base file : String) (directory : List String),
      components root = .root :: directory.map .name →
      isAbsolute base = false → isAbsolute file = false →
      (components base).count .up ≤ directory.length →
      (components file).count .up ≤ directory.length →
      segments? (join root base) (join root file) = segments? base file := by
  intro independent
  have inProject := independent "/project" ".." "x.ts" ["project"] (by decide +kernel)
    (by decide +kernel) (by decide +kernel) (by decide +kernel) (by decide +kernel)
  revert inProject
  decide +kernel

end ApiDocs.Path
