/-!
# Maps keyed by words

A `WordMap` is a finite map from 32-bit words.  Its entries are kept in ascending order of their
keys, so that two maps with the same look-ups are equal and a written map has one form only.

## Main definitions

* `WordMap.find?` — look-up.
* `WordMap.insert` — sets the value of a key.
* `WordMap.ofList` — inserts the pairs of a list one after the other; the last value of a key stays.
-/

namespace ApiDocs

/-- Whether the keys of a list of pairs ascend. -/
def Ascending {α : Type} (entries : List (UInt32 × α)) : Prop :=
  entries.Pairwise fun first second => first.1 < second.1

/-- A finite map from 32-bit words, with its entries in ascending order. -/
@[ext] structure WordMap (α : Type) where
  entries : List (UInt32 × α) := []
  ascending : Ascending entries := by exact List.Pairwise.nil

namespace WordMap

variable {α : Type}

/-- The map without entries. -/
def empty : WordMap α := {}

/-- The value of a key in a list of pairs. -/
def lookup (key : UInt32) : List (UInt32 × α) → Option α
  | [] => none
  | (k, value) :: rest => if k = key then some value else lookup key rest

/-- Sets the value of a key at its place in an ascending list. -/
def insertEntry (key : UInt32) (value : α) : List (UInt32 × α) → List (UInt32 × α)
  | [] => [(key, value)]
  | (k, old) :: rest =>
    if key < k then (key, value) :: (k, old) :: rest
    else if key = k then (key, value) :: rest
    else (k, old) :: insertEntry key value rest

theorem mem_insertEntry {key : UInt32} {value : α} {entries : List (UInt32 × α)}
    {entry : UInt32 × α} (member : entry ∈ insertEntry key value entries) :
    entry = (key, value) ∨ entry ∈ entries := by
  induction entries with
  | nil => simpa [insertEntry] using member
  | cons first rest ih =>
    obtain ⟨k, old⟩ := first
    simp only [insertEntry] at member
    split at member
    · simpa using member
    · split at member
      · rcases List.mem_cons.1 member with same | later
        · exact .inl same
        · exact .inr (List.mem_cons_of_mem _ later)
      · rcases List.mem_cons.1 member with same | later
        · exact .inr (same ▸ List.mem_cons_self ..)
        · rcases ih later with same | old
          · exact .inl same
          · exact .inr (List.mem_cons_of_mem _ old)

theorem ascending_insertEntry (key : UInt32) (value : α) {entries : List (UInt32 × α)}
    (ascending : Ascending entries) : Ascending (insertEntry key value entries) := by
  induction entries with
  | nil => simp [insertEntry, Ascending]
  | cons first rest ih =>
    obtain ⟨k, old⟩ := first
    obtain ⟨below, tail⟩ := List.pairwise_cons.1 ascending
    simp only [insertEntry]
    split
    · rename_i smaller
      refine List.pairwise_cons.2 ⟨fun entry member => ?_, ascending⟩
      rcases List.mem_cons.1 member with same | later
      · exact same ▸ smaller
      · exact UInt32.lt_trans smaller (below entry later)
    · rename_i notSmaller
      split
      · rename_i same
        subst same
        exact List.pairwise_cons.2 ⟨below, tail⟩
      · rename_i different
        refine List.pairwise_cons.2 ⟨fun entry member => ?_, ih tail⟩
        rcases mem_insertEntry member with same | later
        · subst same
          exact UInt32.lt_of_le_of_ne (UInt32.not_lt.1 notSmaller) (Ne.symm different)
        · exact below entry later

/-- The value of a key. -/
def find? (map : WordMap α) (key : UInt32) : Option α :=
  lookup key map.entries

/-- Sets the value of a key. -/
def insert (map : WordMap α) (key : UInt32) (value : α) : WordMap α :=
  ⟨insertEntry key value map.entries, ascending_insertEntry key value map.ascending⟩

/-- Inserts the pairs of a list, the first one first. -/
def ofList (pairs : List (UInt32 × α)) : WordMap α :=
  pairs.foldl (fun map (key, value) => map.insert key value) {}

theorem lookup_insertEntry (key other : UInt32) (value : α) (entries : List (UInt32 × α)) :
    lookup other (insertEntry key value entries) =
      if other = key then some value else lookup other entries := by
  induction entries with
  | nil =>
    by_cases same : other = key
    · simp [insertEntry, lookup, same]
    · simp [insertEntry, lookup, same, Ne.symm same]
  | cons first rest ih =>
    obtain ⟨k, old⟩ := first
    simp only [insertEntry]
    split
    · by_cases same : other = key
      · simp [lookup, same]
      · simp [lookup, same, Ne.symm same]
    · split
      · rename_i here
        subst here
        by_cases same : other = key
        · simp [lookup, same]
        · simp [lookup, same, Ne.symm same]
      · rename_i different
        by_cases same : other = key
        · subst same
          simp [lookup, Ne.symm different, ih]
        · simp [lookup, same, ih]

/-- What an `insert` does to look-up. -/
theorem find?_insert (map : WordMap α) (key other : UInt32) (value : α) :
    (map.insert key value).find? other = if other = key then some value else map.find? other :=
  lookup_insertEntry key other value map.entries

/-- A new key adds its entry to those that are there. -/
theorem perm_insertEntry {key : UInt32} {entries : List (UInt32 × α)}
    (fresh : ∀ entry ∈ entries, entry.1 ≠ key) (value : α) :
    (insertEntry key value entries).Perm ((key, value) :: entries) := by
  induction entries with
  | nil => exact .refl _
  | cons first rest ih =>
    obtain ⟨different, later⟩ := List.forall_mem_cons.1 fresh
    rw [insertEntry, if_neg (Ne.symm different)]
    split
    · exact .refl _
    · exact ((ih later).cons first).trans (.swap ..)

/-- Pairs with distinct keys are all kept. -/
theorem perm_ofList {pairs : List (UInt32 × α)} (distinct : (pairs.map (·.1)).Nodup) :
    (ofList pairs).entries.Perm pairs := by
  -- The keys that are there already are part of what has to be distinct.
  have grows : ∀ (rest : List (UInt32 × α)) (start : WordMap α),
      ((start.entries ++ rest).map (·.1)).Nodup →
      (rest.foldl (fun map pair => map.insert pair.1 pair.2) start).entries.Perm
        (start.entries ++ rest) := by
    intro rest
    induction rest with
    | nil => intro start _; rw [List.append_nil]; exact .refl _
    | cons pair rest ih =>
      intro start distinct
      have front : (start.entries ++ pair :: rest).Perm (pair :: start.entries ++ rest) :=
        List.perm_middle
      have fresh : ∀ entry ∈ start.entries, entry.1 ≠ pair.1 := by
        intro entry member same
        have new := (List.nodup_cons.1 ((front.map (·.1)).nodup_iff.1 distinct)).1
        exact new (List.mem_map.2 ⟨entry, List.mem_append_left _ member, same⟩)
      have inserted : ((start.insert pair.1 pair.2).entries ++ rest).Perm
          (pair :: start.entries ++ rest) := (perm_insertEntry fresh pair.2).append_right rest
      have together := inserted.trans front.symm
      exact (ih _ ((together.map (·.1)).nodup_iff.2 distinct)).trans together
  exact grows pairs {} distinct

/-- **The order of insertion does not matter**: the entries of a map give the map in any order. -/
theorem ofList_of_perm {map : WordMap α} {order : List (UInt32 × α)}
    (permutes : order.Perm map.entries) : ofList order = map := by
  have distinct : (order.map (·.1)).Nodup := by
    rw [(permutes.map (·.1)).nodup_iff]
    exact List.pairwise_map.2 (map.ascending.imp UInt32.ne_of_lt)
  refine WordMap.ext (List.Perm.eq_of_pairwise ?_ (ofList order).ascending map.ascending
    ((perm_ofList distinct).trans permutes))
  intro first second _ _ below above
  exact absurd (UInt32.lt_trans below above) (UInt32.lt_irrefl _)

end WordMap

end ApiDocs
