import ApiDocs.Program.Decode
import ApiDocs.Program.Encode
import ApiDocs.Proofs.Json.Fields

/-!
# Written syntax reads back

The nodes of a file are written as one record each, with the typed data under a word that names its
layout.  **Every layout reads back** as what was written: no two layouts share a word, no field is
written under another name than it is read, and the index of an absent node is written and read as
any other.

## Main statements

* `Kind.ofName?_name` — the words of kinds stand for their kinds.
* `Payload.decode?_encode` — typed data reads back, layout by layout.
* `Node.decode?_encode`, `Arena.decode?_encode` — nodes and arenas read back.
* `Arena.plain_encode` — an arena is written as a plain document.
-/

namespace ApiDocs

open Json

/-! ## Kinds and indexes -/

theorem Kind.mem_all (kind : Kind) : kind ∈ Kind.all := by
  cases kind <;> decide

theorem Kind.ofName?_name (kind : Kind) : Kind.ofName? kind.name = some kind := by
  have each : ∀ kind ∈ Kind.all, Kind.ofName? kind.name = some kind := by decide +kernel
  exact each kind kind.mem_all

@[simp] theorem Kind.decode?_encode (kind : Kind) : decode? kind.encode = some kind :=
  Kind.ofName?_name kind

@[simp] theorem Kind.plain_encode (kind : Kind) : Plain kind.encode := .string _

@[simp] theorem NodeIndex.decode?_encode (index : NodeIndex) :
    decode? index.encode = some index := by
  simp [NodeIndex.decode?, NodeIndex.encode]

@[simp] theorem NodeIndex.plain_encode (index : NodeIndex) : Plain index.encode := plain_word _

@[simp] theorem decodeNodes?_encodeNodes (nodes : NodeList) :
    decodeNodes? (encodeNodes nodes) = some nodes := by
  simp [decodeNodes?, encodeNodes, slots?_object, list?_map]

@[simp] theorem plain_encodeNodes (nodes : NodeList) : Plain (encodeNodes nodes) := by
  simp [encodeNodes]

/-- An absent list is not an empty one: it is written as `null`, which no list is. -/
@[simp] theorem nullable_encodeNodes? (nodes : Option NodeList) :
    (Slot.present (encodeNodes? nodes)).nullable decodeNodes? = some nodes :=
  nullable_ofOption (fun inner _ => decodeNodes?_encodeNodes inner) nofun

@[simp] theorem plain_encodeNodes? (nodes : Option NodeList) : Plain (encodeNodes? nodes) :=
  plain_ofOption plain_encodeNodes nodes

/-! ## Typed data -/

@[simp] theorem ClassPayload.decode?_encode (data : ClassPayload) :
    decode? data.encode = some data := by
  simp [ClassPayload.decode?, ClassPayload.encode, slots?_object]

@[simp] theorem ClassPayload.plain_encode (data : ClassPayload) : Plain data.encode := by
  simp [ClassPayload.encode]

namespace Payload

theorem eq_empty_of_encodeTagged? {payload : Payload} (noTag : payload.encodeTagged? = none) :
    payload = .empty := by
  cases payload with
  | empty => rfl
  | _ => cases noTag

/-- **Each word is read with the layout it was written for.** -/
theorem decodeTagged?_encodeTagged? {payload : Payload} {tag : String} {body : Json}
    (tagged : payload.encodeTagged? = some (tag, body)) :
    decodeTagged? tag body = some payload := by
  cases payload
  case empty => cases tagged
  all_goals
    simp only [encodeTagged?, Option.some.injEq, Prod.mk.injEq] at tagged
    obtain ⟨rfl, rfl⟩ := tagged
    simp [decodeTagged?, decodeText?, decodePair?, decodeNode?, decodeList?, decodeApplied?,
      decodeHeritage?, decodeOperator?, CallPayload.decode?, EnumPayload.decode?,
      AliasPayload.decode?, FunctionPayload.decode?, VariablesPayload.decode?,
      VariablePayload.decode?, NamespacePayload.decode?, PropertyPayload.decode?,
      IndexSignaturePayload.decode?, ParameterPayload.decode?, TypeParameterPayload.decode?,
      slots?_object]

theorem plain_encodeTagged? {payload : Payload} {tag : String} {body : Json}
    (tagged : payload.encodeTagged? = some (tag, body)) : Plain body := by
  cases payload
  case empty => cases tagged
  all_goals
    simp only [encodeTagged?, Option.some.injEq, Prod.mk.injEq] at tagged
    obtain ⟨-, rfl⟩ := tagged
    simp

@[simp] theorem decode?_encode (payload : Payload) : decode? payload.encode = some payload := by
  cases tagged : payload.encodeTagged? with
  | none => rw [eq_empty_of_encodeTagged? tagged]; rfl
  | some pair => rw [encode, tagged]; exact decodeTagged?_encodeTagged? tagged

@[simp] theorem plain_encode (payload : Payload) : Plain payload.encode := by
  cases tagged : payload.encodeTagged? with
  | none => rw [eq_empty_of_encodeTagged? tagged]; exact .string _
  | some pair =>
      have plain : Plain pair.2 := plain_encodeTagged? tagged
      simpa [encode, tagged] using plain

end Payload

/-! ## Nodes and arenas -/

@[simp] theorem Node.decode?_encode (node : Node) : decode? node.encode = some node := by
  simp [Node.decode?, Node.encode, slots?_object]

@[simp] theorem Node.plain_encode (node : Node) : Plain node.encode := by
  simp [Node.encode]

@[simp] theorem Arena.decode?_encode (arena : Arena) : decode? arena.encode = some arena := by
  simp [Arena.decode?, Arena.encode, slots?_object, list?_map]

@[simp] theorem Arena.plain_encode (arena : Arena) : Plain arena.encode := by
  simp [Arena.encode]

end ApiDocs
