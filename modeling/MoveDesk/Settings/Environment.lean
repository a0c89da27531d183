import MoveDesk.Decimal.Numeral
import MoveDesk.Settings.Layer

/-!
# Settings from the environment

The variables that the program takes its settings from. A variable whose name starts with
`MOVESMITH_`, in any case, is a setting.

* `key?` is the key that a variable sets: two low lines in the rest of its name stand between the
  levels of the key.
* `setting` is its value: the first of a truth value, an integer, a number and a text that it can be
  read as.
* `layer` is all of them, as one source of settings.
-/

namespace MoveDesk

/-- The variables that the program is started with, a later one in place of an earlier one of the
same name. -/
abbrev Environment := List (String × String)

namespace Environment

/-- The value of the variable of that name. -/
def value? (environment : Environment) (name : String) : Option String :=
  environment.reverse.lookup name

/-- What the names of the variables start with. -/
def namePrefix : String := "movesmith_"

/-- The text with a point in the place of each two low lines. -/
def pointed : List Char → List Char
  | '_' :: '_' :: rest => '.' :: pointed rest
  | c :: rest => c :: pointed rest
  | [] => []

/-- The key that the variable of that name sets. -/
def key? (name : String) : Option String :=
  let name := Text.lower name.toList
  let start := namePrefix.toList
  if start.isPrefixOf name then some (String.ofList (pointed (name.drop start.length))) else none

/-- The integer of 64 bits that the text is written for. -/
def integer? (text : List Char) : Option Int :=
  let (negative, digits) := Decimal.sign text
  let n : Int := if negative then -(digitsValue digits : Int) else digitsValue digits
  if digits.isEmpty || !digits.all Char.isDigit then none
  else if fits64 n then some n else none

/-- The number of double precision that the text is written for. -/
def number? (text : List Char) : Option Binary64 :=
  let (negative, rest) := Decimal.sign text
  match String.ofList (rest.map Char.toLower) with
  | "inf" | "infinity" => some (.infinite negative)
  | "nan" => some .nan
  | _ => (Decimal.ofText? text).map (·.nearest)

/-- The setting that the value of a variable is. -/
def setting (value : String) : Setting :=
  match Text.lowercase value with
  | "true" => .bool true
  | "false" => .bool false
  | _ =>
    let text := value.toList
    ((integer? text).map Setting.int <|> (number? text).map Setting.real).getD (.text value)

/-- The settings among the variables, each under its key. -/
def layer (environment : Environment) : Setting.Fields :=
  environment.filterMap fun (name, value) => (key? name).map (·, setting value)

end Environment

end MoveDesk
