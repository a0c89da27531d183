import MoveDesk.Decimal.Binary64
import MoveDesk.Text.Lowercase
import MoveDesk.Text.Split

/-!
# Layers of settings

How one source of settings is written over another, before anyone knows what the settings are for.
`Settings.load` writes the file over the defaults and the environment over both in this way.

* A `Setting` is a value as a source gives it. Keys are held in lowercase.
* `write` and `overlay` merge tables key by key; any other value takes the place of what stood under
  its key.
* A key can be a path: `steps` reads names with points between them and indices in brackets, and
  `writeAt` writes where the steps lead. An index may make a list longer, up to `maxItems`.
* `withLayer` writes a whole source.
-/

namespace MoveDesk

/-- A value in a layer of settings. -/
inductive Setting where
  /-- A place that holds nothing. -/
  | unset
  /-- A truth value. -/
  | bool (value : Bool)
  /-- An integer. -/
  | int (value : Int)
  /-- A number of double precision. -/
  | real (value : Binary64)
  /-- A text. -/
  | text (value : String)
  /-- A list. -/
  | list (items : List Setting)
  /-- A table. -/
  | table (fields : List (String × Setting))
deriving Inhabited, Repr

namespace Setting

/-- Settings under their keys. -/
abbrev Fields := List (String × Setting)

/-- The fields of a table; nothing else has any. -/
def fields : Setting → Fields
  | table fields => fields
  | _ => []

/-- The items of a list; nothing else has any. -/
def items : Setting → List Setting
  | list items => items
  | _ => []

/-- The fields with the value in the place of what stands under the key. -/
def put (key : String) (value : Setting) : Fields → Fields
  | [] => [(key, value)]
  | field :: rest => if field.1 = key then (key, value) :: rest else field :: put key value rest

/-- The value under the key. -/
def get? (key : String) (fields : Fields) : Option Setting := fields.lookup key

theorem get?_put (key other : String) (value : Setting) (fields : Fields) :
    get? other (put key value fields) = if other = key then some value else get? other fields := by
  induction fields with
  | nil => by_cases h : other = key <;> simp [put, get?, h]
  | cons field rest ih => by_cases hkey : field.1 = key <;> grind [put, get?]

mutual

/-- The fields with the value written under the key. -/
def write (fields : Fields) (key : String) : Setting → Fields
  | .table new =>
    let key := Text.lowercase key
    put key (overlay ((get? key fields).getD (.table [])) new) fields
  | value => put (Text.lowercase key) value fields

/-- The value with the fields written over it, which makes a table of it if there are any. -/
def overlay (target : Setting) : List (String × Setting) → Setting
  | [] => target
  | (key, value) :: rest => overlay (.table (write target.fields key value)) rest

end

/-! ## Paths of keys -/

/-- One step down into a setting. -/
inductive Step where
  /-- To the field of a table. -/
  | field (key : String)
  /-- To the item of a list; a negative index counts from the end. -/
  | item (index : Int)
deriving DecidableEq, Repr

/-- The character may stand in a key of a path. -/
def isKeyChar (c : Char) : Bool := c.isAlphanum || c = '_' || c = '-' || c = ' '

/-- The character may stand around an index. -/
def isSpace (c : Char) : Bool := c = ' ' || c = '\t'

/-- The index that stands in brackets, the closing one left out; it has to fit in 64 bits. -/
def index? : List Char → Option Int
  | '[' :: inside =>
    let inside := ((inside.dropWhile isSpace).reverse.dropWhile isSpace).reverse
    let (negative, digits) := match inside with
      | '-' :: digits => (true, digits)
      | digits => (false, digits)
    let index : Int := if negative then -(digitsValue digits : Int) else digitsValue digits
    if digits.isEmpty || !digits.all Char.isDigit || !fits64 index then none else some index
  | _ => none

/-- The steps of a key with indices in brackets behind it. -/
def keyWithIndices? (piece : List Char) : Option (List Step) := do
  let key := piece.takeWhile isKeyChar
  if key.isEmpty then none
  let brackets := Text.split ']' (piece.drop key.length)
  if brackets.getLast? ≠ some [] then none
  let indices ← brackets.dropLast.mapM index?
  return .field (String.ofList key) :: indices.map .item

/-- The steps that a key stands for: keys with points between them, each with indices behind it.
Any other key is a step of its own. -/
def steps (key : String) : List Step :=
  match (Text.split '.' key.toList).mapM keyWithIndices? with
  | some steps => steps.flatten
  | none => [.field key]

/-- How many items a list may come to have by a step to one of them. -/
def maxItems : Nat := Nat.pow 2 22

/-- The place that an index stands for in a list of the given length. A place behind the end is
made, up to `maxItems`; one before the start cannot be. -/
def place? (index : Int) (length : Nat) : Option Nat :=
  let place := if 0 ≤ index then index else length + index
  if 0 ≤ place && place < maxItems then some place.toNat else none

/-- The items with the one at the place replaced, and as many before it as it needs. -/
def putItem (place : Nat) (item : Setting) (items : List Setting) : List Setting :=
  (items ++ List.replicate (place + 1 - items.length) unset).set place item

/-- The setting with the value written where the steps lead, unless they lead to no place. What
stands in the way gives way. -/
def writeAt (value : Setting) : List Step → Setting → Option Setting
  | [], _ => some value
  | [.field key], target => some (.table (write target.fields key value))
  | .field key :: path, target => do
    let inner := (get? (Text.lowercase key) target.fields).getD unset
    return .table (put (Text.lowercase key) (← writeAt value path inner) target.fields)
  | .item index :: path, target => do
    let items := target.items
    let place ← place? index items.length
    return .list (putItem place (← writeAt value path (items[place]?.getD unset)) items)

/-- The setting with a layer written over it, key by key, unless a key leads to no place. -/
def withLayer (target : Setting) (layer : Fields) : Option Setting :=
  layer.foldlM (fun target (key, value) => writeAt value (steps key) target) target

end Setting

end MoveDesk
