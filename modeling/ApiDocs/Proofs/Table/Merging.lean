import ApiDocs.Table
import Mathlib.Data.List.Induction

/-!
# Tables that lists build

A table is built from a list of declarations in two rounds.  The first round **gathers**: each
element changes the value of its key, and the first element of a key also says what to start from.
The second round **revises**: each element changes the value of its key once more.  Both rounds are
seen through the keys and through look-up, and at a key only its own elements count.

## Main definitions

* `Table.gather`, `Table.revise` — the two rounds.
* `Table.merged` — the value that the elements of one key come to in the first round.

## Main statements

* `keys_gather`, `keys_revise` — the keys stand in the order of their first elements.
* `find?_gather`, `find?_revise` — the value of a key is made from its elements, in order.
-/

namespace ApiDocs

theorem nodup_eraseDups : ∀ list : List String, list.eraseDups.Nodup
  | [] => List.nodup_nil
  | first :: rest => by
    rw [List.eraseDups_cons, List.nodup_cons]
    exact ⟨by simp [List.mem_eraseDups], nodup_eraseDups _⟩
termination_by list => list.length
decreasing_by exact Nat.lt_succ_of_le (List.length_filter_le ..)

namespace Table

variable {κ α δ : Type} [DecidableEq κ]

/-- An `upsert` adds its key and keeps all others. -/
@[simp] theorem contains_upsert (table : Table κ α) (key other : κ) (initial : α)
    (change : α → α) :
    (table.upsert key initial change).contains other =
      (decide (other = key) || table.contains other) := by
  rw [contains, find?_upsert]
  by_cases same : other = key
  · simp [same]
  · simp [same, contains]

/-- An `update` keeps all keys. -/
@[simp] theorem contains_update (table : Table κ α) (key other : κ) (change : α → α) :
    (table.update key change).contains other = table.contains other := by
  rw [contains, find?_update]
  by_cases same : other = key
  · simp [same, contains]
  · simp [same, contains]

/-! ## Gathering -/

/-- Changes the value of the key of each element, starting from the initial value of the element
for a new key. -/
def gather (key : δ → κ) (initial : δ → α) (change : δ → α → α) (table : Table κ α)
    (list : List δ) : Table κ α :=
  list.foldl
    (fun table element => table.upsert (key element) (initial element) (change element)) table

/-- What the elements of one key come to: the first one says what to start from, and each of them
changes it. -/
def merged (initial : δ → α) (change : δ → α → α) : List δ → Option α
  | [] => none
  | first :: rest =>
    some ((first :: rest).foldl (fun value element => change element value) (initial first))

/-- The keys that a list adds to the empty table, in the order of their first elements. -/
theorem keys_gather (key : δ → κ) (initial : δ → α) (change : δ → α → α) (list : List δ) :
    (gather key initial change {} list).keys = (list.map key).eraseDups := by
  induction list using List.reverseRecOn with
  | nil => rfl
  | append_singleton list last ih =>
      rw [gather] at ih ⊢
      rw [List.foldl_append, List.foldl_cons, List.foldl_nil, keys_upsert, ih, List.map_append,
        List.eraseDups_append]
      by_cases old : key last ∈ list.map key
      · have nothing : ([key last]).removeAll (list.map key) = [] := by
          rw [List.removeAll, List.filter_cons_of_neg (by simpa using old), List.filter_nil]
        rw [List.map_singleton, nothing, if_pos (List.mem_eraseDups.2 old), List.eraseDups_nil,
          List.append_nil]
      · have itself : ([key last]).removeAll (list.map key) = [key last] := by
          rw [List.removeAll, List.filter_cons_of_pos (by simpa using old), List.filter_nil]
        rw [List.map_singleton, itself, if_neg (mt List.mem_eraseDups.1 old)]
        rfl

/-- Look-up after gathering, from any table: the elements of the key change its value in order. -/
theorem find?_gather_from (key : δ → κ) (initial : δ → α) (change : δ → α → α) (list : List δ)
    (other : κ) :
    ∀ table : Table κ α, (gather key initial change table list).find? other =
      (list.filter (key · = other)).foldl
        (fun value element => some (change element (value.getD (initial element))))
        (table.find? other) := by
  induction list with
  | nil => intro table; rfl
  | cons first rest ih =>
      intro table
      rw [gather, List.foldl_cons, ← gather, ih, find?_upsert]
      by_cases same : key first = other
      · simp [same]
      · simp [same, Ne.symm same]

theorem foldl_some (initial : δ → α) (change : δ → α → α) (list : List δ) :
    ∀ value : α, list.foldl
        (fun value element => some (change element (value.getD (initial element)))) (some value) =
      some (list.foldl (fun value element => change element value) value) := by
  induction list with
  | nil => intro value; rfl
  | cons first rest ih => intro value; exact ih (change first value)

/-- Look-up after gathering into the empty table. -/
theorem find?_gather (key : δ → κ) (initial : δ → α) (change : δ → α → α) (list : List δ)
    (other : κ) :
    (gather key initial change {} list).find? other =
      merged initial change (list.filter (key · = other)) := by
  rw [find?_gather_from]
  -- From the first element of the key on there is a value to change.
  cases list.filter (key · = other) with
  | nil => rfl
  | cons first rest => exact foldl_some initial change rest (change first (initial first))

/-- The first of the elements of a key has that key. -/
theorem key_of_filter_eq_cons {key : δ → κ} {list rest : List δ} {other : κ}
    {first : δ} (split : list.filter (key · = other) = first :: rest) : key first = other := by
  have member : first ∈ list.filter (key · = other) := by
    rw [split]
    exact List.mem_cons_self
  simpa using (List.mem_filter.1 member).2

/-! ## Revising -/

/-- Changes the value of the key of each element, if the key is there. -/
def revise (key : δ → κ) (change : δ → α → α) (table : Table κ α) (list : List δ) : Table κ α :=
  list.foldl (fun table element => table.update (key element) (change element)) table

theorem keys_revise (key : δ → κ) (change : δ → α → α) (list : List δ) :
    ∀ table : Table κ α, (revise key change table list).keys = table.keys := by
  induction list with
  | nil => intro table; rfl
  | cons first rest ih =>
      intro table
      rw [revise, List.foldl_cons, ← revise, ih, keys_update]

theorem find?_revise (key : δ → κ) (change : δ → α → α) (list : List δ) (other : κ) :
    ∀ table : Table κ α, (revise key change table list).find? other =
      (table.find? other).map
        ((list.filter (key · = other)).foldl fun value element => change element value) := by
  induction list with
  | nil => intro table; exact Option.map_id'.symm
  | cons first rest ih =>
      intro table
      rw [revise, List.foldl_cons, ← revise, ih, find?_update]
      by_cases same : key first = other
      · simp [same, Function.comp_def]
      · simp [same, Ne.symm same]

/-! ## Replacing

Where the first round replaces the value by an outline of the element, and the second round
completes it in a way that forgets earlier completions, the last element of a key is its value. -/

section

variable {key : α → κ} {outline : α → α} {complete : α → α → α}

theorem complete_foldl
    (forgets : ∀ own other value, complete own (complete other value) = complete own value)
    (own : α) (list : List α) :
    ∀ value, complete own (list.foldl (fun value element => complete element value) value) =
      complete own value := by
  induction list with
  | nil => intro value; rfl
  | cons first rest ih =>
      intro value
      rw [List.foldl_cons, ih, forgets]

theorem find?_replaced
    (forgets : ∀ own other value, complete own (complete other value) = complete own value)
    (restores : ∀ own, complete own (outline own) = own) (list : List α) (other : κ) :
    (revise key complete (gather key outline (fun own _ => outline own) {} list) list).find?
        other =
      (list.filter (key · = other)).getLast? := by
  rw [find?_revise, find?_gather]
  -- Of the elements of the key, the last one has the last word in both rounds.
  rcases List.eq_nil_or_concat (list.filter (key · = other)) with none | ⟨earlier, last, split⟩
  · rw [none]
    rfl
  · have outlined : merged outline (fun own _ => outline own) (earlier ++ [last]) =
        some (outline last) := by
      cases earlier with
      | nil => rfl
      | cons first rest => simp [merged]
    rw [split, List.concat_eq_append, outlined, Option.map_some, List.foldl_append,
      List.foldl_cons, List.foldl_nil, complete_foldl forgets, restores, List.getLast?_concat]

end

end Table

end ApiDocs
