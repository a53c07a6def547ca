/-!
# Tables in insertion order

A `Table` is a finite map that remembers the order in which its keys were first inserted.  Named
collections of declarations are tables: their order is the order of the documentation.

## Main definitions

* `Table.find?`, `Table.contains` — look-up.
* `Table.insert` — sets the value of a key; a key that is already there keeps its place.
* `Table.update` — changes the value of a key that is there.
* `Table.upsert` — changes the value of a key, starting from an initial value for a new one.

## Main statements

Each operation has one lemma for what it does to look-up and one for what it does to the keys.
-/

namespace ApiDocs

/-- A finite map in insertion order. -/
structure Table (κ α : Type) where
  entries : List (κ × α) := []

namespace Table

variable {κ α : Type} [DecidableEq κ]

/-- The value of a key in a list of pairs. -/
def lookup (key : κ) : List (κ × α) → Option α
  | [] => none
  | (k, value) :: rest => if k = key then some value else lookup key rest

/-- Changes the first pair with the given key, or adds a pair at the end. -/
def upsertEntries (key : κ) (initial : α) (change : α → α) : List (κ × α) → List (κ × α)
  | [] => [(key, change initial)]
  | (k, value) :: rest =>
    if k = key then (k, change value) :: rest
    else (k, value) :: upsertEntries key initial change rest

/-- The value of a key. -/
def find? (table : Table κ α) (key : κ) : Option α :=
  lookup key table.entries

/-- Whether a key is there. -/
def contains (table : Table κ α) (key : κ) : Bool :=
  (table.find? key).isSome

/-- Changes the value of a key, starting from `initial` for a new key, which goes last. -/
def upsert (table : Table κ α) (key : κ) (initial : α) (change : α → α) : Table κ α :=
  ⟨upsertEntries key initial change table.entries⟩

/-- Sets the value of a key; a new key goes last, an old one keeps its place. -/
def insert (table : Table κ α) (key : κ) (value : α) : Table κ α :=
  table.upsert key value fun _ => value

/-- Changes the value of a key that is there. -/
def update (table : Table κ α) (key : κ) (change : α → α) : Table κ α :=
  ⟨table.entries.map fun (k, value) => if k = key then (k, change value) else (k, value)⟩

omit [DecidableEq κ] in
/-- The keys, in order. -/
def keys (table : Table κ α) : List κ :=
  table.entries.map (·.1)

omit [DecidableEq κ] in
/-- The values, in the order of their keys. -/
def values (table : Table κ α) : List α :=
  table.entries.map (·.2)

omit [DecidableEq κ] in
/-- The number of keys. -/
def size (table : Table κ α) : Nat :=
  table.entries.length

theorem lookup_upsertEntries (key other : κ) (initial : α) (change : α → α)
    (entries : List (κ × α)) :
    lookup other (upsertEntries key initial change entries) =
      if other = key then some (change ((lookup key entries).getD initial))
      else lookup other entries := by
  induction entries with
  | nil =>
    by_cases same : other = key
    · simp [upsertEntries, lookup, same]
    · simp [upsertEntries, lookup, same, Ne.symm same]
  | cons entry rest ih =>
    obtain ⟨k, value⟩ := entry
    by_cases here : k = key
    · subst here
      by_cases same : other = k
      · simp [upsertEntries, lookup, same]
      · simp [upsertEntries, lookup, same, Ne.symm same]
    · by_cases same : other = key
      · subst same
        simp [upsertEntries, lookup, here, ih]
      · simp [upsertEntries, lookup, here, ih, same]

/-- What an `upsert` does to look-up. -/
theorem find?_upsert (table : Table κ α) (key other : κ) (initial : α) (change : α → α) :
    (table.upsert key initial change).find? other =
      if other = key then some (change ((table.find? key).getD initial)) else table.find? other :=
  lookup_upsertEntries key other initial change table.entries

/-- What an `insert` does to look-up. -/
theorem find?_insert (table : Table κ α) (key other : κ) (value : α) :
    (table.insert key value).find? other =
      if other = key then some value else table.find? other := by
  simp [insert, find?_upsert]

/-- An `upsert` adds its key at the end unless it is there. -/
theorem keys_upsert (table : Table κ α) (key : κ) (initial : α) (change : α → α) :
    (table.upsert key initial change).keys =
      if key ∈ table.keys then table.keys else table.keys ++ [key] := by
  obtain ⟨entries⟩ := table
  simp only [upsert, keys]
  induction entries with
  | nil => simp [upsertEntries]
  | cons entry rest ih =>
    obtain ⟨k, value⟩ := entry
    by_cases here : k = key
    · simp [upsertEntries, here]
    · simp only [upsertEntries, here, if_false, List.map_cons, ih, List.mem_cons]
      by_cases later : key ∈ rest.map (·.1)
      · simp [later]
      · simp [later, Ne.symm here]

/-- An `update` keeps the keys. -/
theorem keys_update (table : Table κ α) (key : κ) (change : α → α) :
    (table.update key change).keys = table.keys := by
  simp only [keys, update, List.map_map]
  apply List.map_congr_left
  rintro ⟨k, value⟩ _
  by_cases here : k = key <;> simp [here]

/-- What an `update` does to look-up. -/
theorem find?_update (table : Table κ α) (key other : κ) (change : α → α) :
    (table.update key change).find? other =
      if other = key then (table.find? key).map change else table.find? other := by
  obtain ⟨entries⟩ := table
  simp only [find?, update]
  induction entries with
  | nil => simp [lookup]
  | cons entry rest ih =>
    obtain ⟨k, value⟩ := entry
    by_cases here : k = key
    · subst here
      by_cases same : other = k
      · simp [lookup, same]
      · simp [lookup, same, Ne.symm same, ih]
    · by_cases same : other = key
      · subst same
        simp [lookup, here, ih]
      · by_cases there : k = other <;> simp [lookup, here, there, same, ih]

/-- A key is there exactly when look-up answers. -/
theorem contains_iff_mem_keys (table : Table κ α) (key : κ) :
    table.contains key = true ↔ key ∈ table.keys := by
  obtain ⟨entries⟩ := table
  simp only [contains, find?, keys]
  induction entries with
  | nil => simp [lookup]
  | cons entry rest ih =>
    obtain ⟨k, value⟩ := entry
    by_cases here : k = key
    · simp [lookup, here]
    · simp [lookup, here, ih, Ne.symm here]

end Table

end ApiDocs
