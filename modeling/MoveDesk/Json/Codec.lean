import MoveDesk.Json.Basic

/-!
# Values as JSON

`Codec α` writes the values of a type as JSON and reads them back. A record is read from an object,
where fields that it does not have are passed over, or from an array with its fields in order;
an enumeration from a label, or from an object whose only field is the label, with null in it.
-/

namespace MoveDesk

/-- A form of the values of a type as JSON. -/
class Codec (α : Type) where
  /-- The value as JSON. -/
  encode : α → Json
  /-- The value that the JSON stands for. -/
  decode? : Json → Option α

export Codec (encode decode?)

namespace Codec

instance : Codec String where
  encode := .text
  decode? := Json.text?

instance : Codec Bool where
  encode := .bool
  decode? := Json.bool?

/-- Natural numbers below 2⁶⁴ can be read. -/
instance : Codec Nat where
  encode := .nat
  decode?
    | .int n => if 0 ≤ n && n.toNat < UInt64.size then some n.toNat else none
    | _ => none

instance {α : Type} [Codec α] : Codec (List α) where
  encode items := .array (items.map encode)
  decode?
    | .array items => items.mapM decode?
    | _ => none

/-- The fields of a record, by name. -/
abbrev Record := String → Option Json

/-- The fields of a record with the given names, from an object or from an array in order. -/
def record? (names : List String) : Json → Option Record
  | .object fields => some fun name => Json.field? name (.object fields)
  | .array items =>
    if items.length ≤ names.length then some fun name => (names.zip items).lookup name else none
  | _ => none

/-- A field that has to be there. -/
def required {α : Type} [Codec α] (record : Record) (name : String) : Option α :=
  (record name).bind decode?

/-- A field that has a value even when it is not there. -/
def withDefault {α : Type} [Codec α] (default : α) (record : Record) (name : String) : Option α :=
  match record name with
  | some value => decode? value
  | none => some default

/-- A value of an enumeration with the given way to find a value by its label. -/
def labelled? {α : Type} (ofLabel? : String → Option α) : Json → Option α
  | .text label => ofLabel? label
  | .object [(label, .null)] => ofLabel? label
  | _ => none

end Codec

end MoveDesk
