import ApiDocs.Extract

/-!
# A memory of derived answers

An index that remembers its answers and one that derives every answer anew cannot be told apart.
The reason is an invariant of the memory: whatever it holds for a symbol is what would be derived
for that symbol.  Two computations that differ in the index alone then **agree**: from every such
memory the first returns what the second is, and leaves such a memory behind.

## Main definitions

* `ReferenceIndex.Recalls` — the memories that hold derived answers only.
* `ReferenceIndex.Agrees` — a computation with a memory, beside one without.
* `ReferenceIndex.Reached` — the memories that look-ups lead to.

## Main statements

* `Agrees.pure`, `Agrees.bind`, `Agrees.map`, `Agrees.mapM` — agreement is closed under the
  operations that programs are made of.
* `agrees_bySymbol`, `agrees_byName` — the two indexes agree.
-/

namespace ApiDocs

namespace ReferenceIndex

variable {program : Program} {base : String} {α β : Type}

/-- A memory that holds for each symbol what is derived for it, or nothing. -/
def Recalls (program : Program) (base : String) (memory : Memory) : Prop :=
  ∀ id answer, memory.find? id = some answer → answer = program.locate? base id

/-- A computation with a memory agrees with a value: from every memory of derived answers it returns
the value, and it leaves such a memory behind. -/
def Agrees (program : Program) (base : String) (computation : StateM Memory α) (value : Id α) :
    Prop :=
  ∀ memory, Recalls program base memory →
    (computation memory).1 = value ∧ Recalls program base (computation memory).2

theorem recalls_empty (program : Program) (base : String) : Recalls program base {} := by
  intro id answer found
  cases found

theorem Recalls.insert {memory : Memory} (recalls : Recalls program base memory) (id : SymbolId) :
    Recalls program base (memory.insert id (program.locate? base id)) := by
  intro other answer found
  rw [Table.find?_insert] at found
  by_cases same : other = id
  · rw [if_pos same] at found
    rw [same]
    exact (Option.some.inj found).symm
  · rw [if_neg same] at found
    exact recalls other answer found

namespace Agrees

protected theorem pure (value : α) :
    Agrees program base (Pure.pure value) (Pure.pure value) :=
  fun _ recalls => ⟨rfl, recalls⟩

protected theorem bind {computation : StateM Memory α} {value : Id α}
    {continuation : α → StateM Memory β} {next : α → Id β}
    (first : Agrees program base computation value)
    (rest : ∀ value, Agrees program base (continuation value) (next value)) :
    Agrees program base (computation >>= continuation) (value >>= next) := by
  intro memory recalls
  obtain ⟨same, recallsLater⟩ := first memory recalls
  have continued := rest (computation memory).1 _ recallsLater
  rw [same] at continued
  exact same ▸ continued

protected theorem map {computation : StateM Memory α} {value : Id α} (change : α → β)
    (first : Agrees program base computation value) :
    Agrees program base (change <$> computation) (Pure.pure (change value.run)) := by
  intro memory recalls
  obtain ⟨same, recallsLater⟩ := first memory recalls
  exact ⟨congrArg change same, recallsLater⟩

protected theorem mapM {remembering : α → StateM Memory β} {direct : α → Id β}
    (each : ∀ element, Agrees program base (remembering element) (direct element))
    (list : List α) :
    Agrees program base (list.mapM remembering) (list.mapM direct) := by
  induction list with
  | nil =>
      rw [List.mapM_nil, List.mapM_nil]
      exact .pure []
  | cons element rest ih =>
      rw [List.mapM_cons, List.mapM_cons]
      exact (each element).bind fun _ => ih.bind fun _ => .pure _

protected theorem collectM {remembering : α → StateM Memory (Option β)}
    {direct : α → Id (Option β)}
    (each : ∀ element, Agrees program base (remembering element) (direct element))
    (list : List α) :
    Agrees program base (collectM remembering list) (collectM direct list) := by
  induction list with
  | nil => exact .pure []
  | cons element rest ih => exact (each element).bind fun _ => ih.bind fun _ => .pure _

end Agrees

/-! ## The two indexes -/

theorem agrees_remembered (program : Program) (base : String) (id : SymbolId) :
    Agrees program base (remembered program base id) (program.locate? base id) := by
  intro memory recalls
  cases found : memory.find? id with
  | some answer =>
      have unchanged :
          remembered program base id program.symbolBound memory = (answer, memory) := by
        simp only [remembered, found]
      rw [unchanged]
      exact ⟨recalls id answer found, recalls⟩
  | none =>
      have derived : remembered program base id program.symbolBound memory =
          (program.locate? base id, memory.insert id (program.locate? base id)) := by
        simp only [remembered, found]
      rw [derived]
      exact ⟨rfl, recalls.insert id⟩

theorem agrees_bySymbol (program : Program) (base : String) (builtins : List String)
    (id : SymbolId) :
    Agrees program base ((remembering program base builtins).bySymbol id)
      ((direct program base builtins).bySymbol id) :=
  agrees_remembered program base id

theorem agrees_byName (program : Program) (base : String) (builtins : List String)
    (name : String) (qualifier : Option String) :
    Agrees program base ((remembering program base builtins).byName name qualifier)
      ((direct program base builtins).byName name qualifier) := by
  simp only [remembering, direct]
  cases program.symbolByName? name qualifier with
  | some id => exact agrees_remembered program base id
  | none => exact .pure none

/-- The memories that look-ups lead to, made in any order. -/
inductive Reached (program : Program) (base : String) (builtins : List String) : Memory → Prop
  | empty : Reached program base builtins {}
  | bySymbol {memory : Memory} (id : SymbolId) (before : Reached program base builtins memory) :
      Reached program base builtins ((remembering program base builtins).bySymbol id memory).2
  | byName {memory : Memory} (name : String) (qualifier : Option String)
      (before : Reached program base builtins memory) :
      Reached program base builtins
        ((remembering program base builtins).byName name qualifier memory).2

theorem Reached.recalls {builtins : List String} {memory : Memory}
    (reached : Reached program base builtins memory) : Recalls program base memory := by
  induction reached with
  | empty => exact recalls_empty program base
  | bySymbol id before ih => exact (agrees_bySymbol program base builtins id _ ih).2
  | byName name qualifier before ih =>
      exact (agrees_byName program base builtins name qualifier _ ih).2

end ReferenceIndex

end ApiDocs
