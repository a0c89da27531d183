/-!
# JSON values

Fields of an object keep their order. A number that is written as an integer and fits in 64 bits is
held as one; any other keeps its literal.
-/

namespace MoveDesk

/-- A JSON value. -/
inductive Json where
  /-- The null value. -/
  | null
  /-- A truth value. -/
  | bool (value : Bool)
  /-- A number written without fraction or exponent, that fits in 64 bits. -/
  | int (value : Int)
  /-- Any other number, as it is written. -/
  | real (literal : String)
  /-- A text. -/
  | text (value : String)
  /-- An array. -/
  | array (items : List Json)
  /-- An object. -/
  | object (fields : List (String × Json))
deriving Inhabited, Repr

namespace Json

/-- An array of texts. -/
def texts (items : List String) : Json := array (items.map text)

/-- A natural number. -/
def nat (n : Nat) : Json := int n

/-- The value of the last field of that name. -/
def field? (name : String) : Json → Option Json
  | object fields => fields.reverse.lookup name
  | _ => none

/-- The text, if the value is one. -/
def text? : Json → Option String
  | text value => some value
  | _ => none

/-- The truth value, if the value is one. -/
def bool? : Json → Option Bool
  | bool value => some value
  | _ => none

/-- The integer, if the value is one. -/
def int? : Json → Option Int
  | int value => some value
  | _ => none

/-- The items, if the value is an array. -/
def items? : Json → Option (List Json)
  | array items => some items
  | _ => none

/-- The texts, if the value is an array of texts. -/
def texts? : Json → Option (List String)
  | array items => items.mapM text?
  | _ => none

end Json

end MoveDesk
