import ApiDocs.Json.Value

/-!
# Reading records

A record may be written in two ways: as an object, with any keys besides the record's own, or as
an array of its fields in order.  `Json.slots?` reads both into one `Slot` for each field, and a
slot is then read by the rule that belongs to the field.

## Main definitions

* `Slot` — what was written for a field.
* `Json.slots?` — the slots of a record with the given field names.
* `Slot.required`, `Slot.withDefault`, `Slot.nullable`, `Slot.optional` — the four kinds of
  fields.

## Design notes

**Missing is not the same as cut off.**  A nullable field that an object does not mention is
absent, but an array that ends before such a field is refused: only a field with a default may be
cut off.

**A repeated field is refused**, also when both values agree.
-/

namespace ApiDocs

/-- What a document says about one field of a record. -/
inductive Slot where
  | present (value : Json)
  /-- Not a key of the object. -/
  | missing
  /-- Past the end of the array. -/
  | cutOff

namespace Slot

/-- The value of a field that has to be there. -/
def required {α : Type} (decode : Json → Option α) : Slot → Option α
  | present value => decode value
  | _ => none

/-- The value of a field with a default. -/
def withDefault {α : Type} (default : α) (decode : Json → Option α) : Slot → Option α
  | present value => decode value
  | _ => some default

/-- The value of a field that may be `null`, and that an object may leave out. -/
def nullable {α : Type} (decode : Json → Option α) : Slot → Option (Option α)
  | present .null => some none
  | present value => (decode value).map some
  | missing => some none
  | cutOff => none

/-- The value of a field that may be `null`, left out or cut off. -/
def optional {α : Type} (decode : Json → Option α) : Slot → Option (Option α)
  | present .null => some none
  | present value => (decode value).map some
  | _ => some none

end Slot

namespace Json

/-- The values that an object gives to a key, in order. -/
def valuesOf (name : String) (fields : List (String × Json)) : List Json :=
  (fields.filter (·.1 = name)).map (·.2)

/-- The slot of a key; `none` if the key is repeated. -/
def slot? (fields : List (String × Json)) (name : String) : Option Slot :=
  match valuesOf name fields with
  | [] => some .missing
  | [value] => some (.present value)
  | _ => none

/-- The slots of an array for a number of fields; `none` if the array is longer. -/
def positional? : Nat → List Json → Option (List Slot)
  | count, [] => some (List.replicate count .cutOff)
  | 0, _ :: _ => none
  | count + 1, item :: items => (positional? count items).map (.present item :: ·)

/-- The slots of a record with the given fields. -/
def slots? (names : List String) : Json → Option (List Slot)
  | object fields => names.mapM (slot? fields)
  | array items => positional? names.length items
  | _ => none

/-- A string. -/
def text? : Json → Option String
  | string text => some text
  | _ => none

/-- A truth value. -/
def bool? : Json → Option Bool
  | bool value => some value
  | _ => none

/-- The number of 32-bit words. -/
def wordCount : Nat := 4294967296

/-- The number of 16-bit words. -/
def halfWordCount : Nat := 65536

/-- A natural number of 32 bits. -/
def word? : Json → Option UInt32
  | nat n => if n < wordCount then some (UInt32.ofNat n) else none
  | _ => none

/-- A natural number of 16 bits. -/
def halfWord? : Json → Option UInt16
  | nat n => if n < halfWordCount then some (UInt16.ofNat n) else none
  | _ => none

/-- An array of values of one kind. -/
def list? {α : Type} (decode : Json → Option α) : Json → Option (List α)
  | array items => items.mapM decode
  | _ => none

/-- A number as it is written. -/
def word (value : UInt32) : Json :=
  nat value.toNat

end Json

end ApiDocs
