/-!
# JSON values

The documents this library reads and writes.  An object is a **list of pairs**: the order of its
keys is part of what is written, and a reader has to see a repeated key.

## Main definitions

* `Json` — a document.
* `Json.ofOption` — an absent value is written as `null`.

## Design notes

**Natural numbers are the only numbers that are ever used.**  They have their own constructor;
every other number literal is kept as it was written.

**Syntax may be valid and still denote no value.**  A string with an unpaired surrogate escape is
such a literal: it may stand where its value is skipped, and nowhere else.  A reader turns it into
`unreadable`, and an object with such a key as well.
-/

namespace ApiDocs

/-- A JSON document. -/
inductive Json where
  | null
  | bool (value : Bool)
  | nat (value : Nat)
  /-- A number literal that is not a natural number, as written. -/
  | number (literal : String)
  | string (text : String)
  | array (items : List Json)
  | object (fields : List (String × Json))
  /-- Valid syntax without a value; it can be skipped and cannot be used. -/
  | unreadable

namespace Json

/-- The value itself, or `null` in its absence. -/
def ofOption {α : Type} (encode : α → Json) : Option α → Json
  | none => null
  | some value => encode value

/-- A list of strings. -/
def strings (texts : List String) : Json :=
  array (texts.map string)

/-- Whether a value can be used, with everything in it. -/
def isReadable : Json → Bool
  | unreadable => false
  | array items => itemsReadable items
  | object fields => fieldsReadable fields
  | _ => true
where
  itemsReadable : List Json → Bool
    | [] => true
    | item :: items => item.isReadable && itemsReadable items
  fieldsReadable : List (String × Json) → Bool
    | [] => true
    | (_, value) :: fields => value.isReadable && fieldsReadable fields

/-- How deep arrays and objects are nested. -/
def depth : Json → Nat
  | array items => itemsDepth items + 1
  | object fields => fieldsDepth fields + 1
  | _ => 0
where
  itemsDepth : List Json → Nat
    | [] => 0
    | item :: items => max item.depth (itemsDepth items)
  fieldsDepth : List (String × Json) → Nat
    | [] => 0
    | (_, value) :: fields => max value.depth (fieldsDepth fields)

end Json

end ApiDocs
