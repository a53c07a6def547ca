import ApiDocs.Path.Basic
import Mathlib.Data.List.Basic

/-!
# Components of joined paths

Joining works on texts and reading components works on the parts between slashes.  Here the two are
put together: the components of a relative path below another one are those of the other path and
then those of the relative one, whether or not the other path ends in a slash.

## Main definitions

* `innerComponents` — the components of a path that is read as a continuation.

## Main statements

* `piecesOf_append_slash` — a slash between two texts separates their parts.
* `components_join` — the components of a relative path below a path that is not empty.
* `foldl_components` — a relative path has its inner components, up to a leading `.`.
-/

namespace ApiDocs.Path

/-! ## Parts -/

theorem piecesOf_ne_nil (text : List Char) : piecesOf text ≠ [] := by
  fun_cases piecesOf text <;> simp_all

theorem piecesOf_cons {c : Char} (inside : c ≠ '/') (text : List Char) :
    ∃ piece rest, piecesOf text = piece :: rest ∧ piecesOf (c :: text) = (c :: piece) :: rest := by
  cases parts : piecesOf text with
  | nil => exact (piecesOf_ne_nil text parts).elim
  | cons piece rest =>
      refine ⟨piece, rest, rfl, ?_⟩
      rw [piecesOf, parts]
      exact inside

/-- Only the empty text has a single empty part. -/
theorem eq_nil_of_piecesOf {text : List Char} (empty : piecesOf text = [[]]) : text = [] := by
  cases text with
  | nil => rfl
  | cons c text =>
      by_cases slash : c = '/'
      · subst slash
        exact (piecesOf_ne_nil text (List.cons.inj empty).2).elim
      · obtain ⟨piece, rest, -, longer⟩ := piecesOf_cons slash text
        rw [longer] at empty
        cases empty

/-- A slash between two texts separates their parts. -/
theorem piecesOf_append_slash (first second : List Char) :
    piecesOf (first ++ '/' :: second) = piecesOf first ++ piecesOf second := by
  induction first with
  | nil => rfl
  | cons c first ih =>
      by_cases slash : c = '/'
      · subst slash
        show [] :: piecesOf (first ++ '/' :: second) = [] :: piecesOf first ++ piecesOf second
        rw [ih]
        rfl
      · obtain ⟨piece, rest, parts, longer⟩ := piecesOf_cons slash first
        obtain ⟨wholePiece, wholeRest, wholeParts, wholeLonger⟩ :=
          piecesOf_cons slash (first ++ '/' :: second)
        rw [ih, parts, List.cons_append, List.cons.injEq] at wholeParts
        obtain ⟨rfl, rfl⟩ := wholeParts
        rw [List.cons_append, wholeLonger, longer]
        rfl

/-! ## Components -/

/-- The components of a path that is read as the continuation of another one. -/
def innerComponents (path : String) : List Component :=
  (pieces path).filterMap innerComponent?

theorem componentsOf_root {rest : List (List Char)} (more : rest ≠ []) :
    componentsOf ([] :: rest) = .root :: rest.filterMap innerComponent? := by
  cases rest with
  | nil => exact (more rfl).elim
  | cons piece rest => rfl

theorem componentsOf_name {first : List Char} {rest : List (List Char)} (nonempty : first ≠ [])
    (noDot : first ≠ ['.']) :
    componentsOf (first :: rest) = (first :: rest).filterMap innerComponent? := by
  unfold componentsOf
  split
  · rename_i nothing
    cases nothing
  · rename_i empty
    exact (nonempty (List.cons.inj empty).1).elim
  · rename_i empty
    exact (nonempty (List.cons.inj empty).1).elim
  · rename_i dot
    exact (noDot (List.cons.inj dot).1).elim
  · rename_i same
    rw [same]

/-- What can be an inner component: a step up or a name. -/
theorem innerComponent?_cases {piece : List Char} {part : Component}
    (isPart : innerComponent? piece = some part) : part = .up ∨ ∃ text, part = .name text := by
  unfold innerComponent? at isPart
  split at isPart
  · cases isPart
  · split at isPart
    · cases isPart
    · split at isPart
      · cases isPart
        exact .inl rfl
      · cases isPart
        exact .inr ⟨_, rfl⟩

theorem innerComponents_cases {path : String} {part : Component}
    (member : part ∈ innerComponents path) : part = .up ∨ ∃ text, part = .name text := by
  obtain ⟨piece, -, isPart⟩ := List.mem_filterMap.1 member
  exact innerComponent?_cases isPart

/-- The first part of a relative path is empty only if the path is. -/
theorem pieces_of_relative {path : String} (relative : isAbsolute path = false) :
    pieces path = [[]] ∨ ∃ c piece rest, pieces path = (c :: piece) :: rest := by
  unfold isAbsolute at relative
  unfold pieces
  cases letters : path.toList with
  | nil => exact .inl rfl
  | cons c text =>
      have inside : c ≠ '/' := by simpa [letters] using relative
      obtain ⟨piece, rest, -, longer⟩ := piecesOf_cons inside text
      exact .inr ⟨c, piece, rest, longer⟩

/-- A relative path has its inner components, and before them at most a `.`. -/
theorem components_of_relative {path : String} (relative : isAbsolute path = false) :
    components path = innerComponents path ∨ components path = .here :: innerComponents path := by
  unfold components innerComponents
  rcases pieces_of_relative relative with empty | ⟨c, piece, rest, parts⟩
  · rw [empty]
    exact .inl rfl
  · rw [parts]
    by_cases dot : c :: piece = ['.']
    · rw [dot]
      exact .inr rfl
    · exact .inl (componentsOf_name (by simp) dot)

/-- Folds that pass over `.` see the inner components of a relative path. -/
theorem foldl_components {σ : Type} {step : σ → Component → σ} {state : σ}
    (idle : step state .here = state) {path : String} (relative : isAbsolute path = false) :
    (components path).foldl step state = (innerComponents path).foldl step state := by
  rcases components_of_relative relative with same | dotted
  · rw [same]
  · rw [dotted, List.foldl_cons, idle]

/-- More parts are read as a continuation, unless there was only an empty part before. -/
theorem componentsOf_append {start : List (List Char)} (nonempty : start ≠ [])
    (notEmpty : start ≠ [[]]) (more : List (List Char)) :
    componentsOf (start ++ more) = componentsOf start ++ more.filterMap innerComponent? := by
  obtain ⟨first, rest, rfl⟩ := List.exists_cons_of_ne_nil nonempty
  by_cases empty : first = []
  · have goesOn : rest ≠ [] := fun nothing => notEmpty (by rw [empty, nothing])
    rw [empty, List.cons_append, componentsOf_root (by simp [goesOn]), componentsOf_root goesOn,
      List.filterMap_append, List.cons_append]
  · by_cases dot : first = ['.']
    · rw [dot, List.cons_append]
      show Component.here :: (rest ++ more).filterMap _ = Component.here :: rest.filterMap _ ++ _
      rw [List.filterMap_append, List.cons_append]
    · rw [List.cons_append, componentsOf_name empty dot, componentsOf_name empty dot,
        ← List.cons_append, List.filterMap_append]

theorem ne_empty_of_isAbsolute {path : String} (absolute : isAbsolute path = true) :
    path ≠ "" := by
  rintro rfl
  cases absolute

/-- The components of a relative path below a path that is not empty. -/
theorem components_join {base path : String} (nonempty : base ≠ "")
    (relative : isAbsolute path = false) :
    components (join base path) = components base ++ innerComponents path := by
  unfold components innerComponents
  rw [join, relative, if_neg (by simp)]
  by_cases slash : base.toList.getLast?.all (· == '/') = true
  · -- The last part of the base is empty, and the parts of the path stand in its place.
    rcases List.eq_nil_or_concat base.toList with empty | ⟨front, last, letters⟩
    · exact (nonempty (String.toList_eq_nil_iff.1 empty)).elim
    · obtain rfl : last = '/' := by simpa [letters] using slash
      rw [List.concat_eq_append] at letters
      have joined : pieces (base ++ path) = piecesOf front ++ pieces path := by
        unfold pieces
        rw [String.toList_append, letters, List.append_assoc]
        exact piecesOf_append_slash front path.toList
      have ends : pieces base = piecesOf front ++ [[]] := by
        rw [pieces, letters]
        exact piecesOf_append_slash front []
      rw [if_pos slash, joined, ends]
      by_cases isRoot : piecesOf front = [[]]
      · rw [isRoot]
        exact componentsOf_root (piecesOf_ne_nil path.toList)
      · rw [componentsOf_append (piecesOf_ne_nil front) isRoot,
          componentsOf_append (piecesOf_ne_nil front) isRoot]
        simp [innerComponent?]
  · have joined : pieces (base ++ "/" ++ path) = pieces base ++ pieces path := by
      show piecesOf (base ++ "/" ++ path).toList = _
      rw [String.toList_append, String.toList_append, List.append_assoc]
      exact piecesOf_append_slash base.toList path.toList
    have notEmpty : pieces base ≠ [[]] := by
      intro empty
      exact nonempty (String.toList_eq_nil_iff.1 (eq_nil_of_piecesOf empty))
    rw [if_neg slash, joined]
    exact componentsOf_append (piecesOf_ne_nil base.toList) notEmpty _

end ApiDocs.Path
