import MoveDesk.Json.Printer
import MoveDesk.Yaml.Scalar

/-!
# Writing YAML

`Yaml.document` writes a value in block style: a field or an item a line, each level of fields two
spaces further in, the items of a list at the level of the key that they stand under.
-/

namespace MoveDesk.Yaml

/-- A written value, which begins on the line of its key or dash. -/
abbrev Block := List Char

/-- The block with the end of its last line, which a literal block may have already. -/
def closed (block : Block) : Block :=
  if block.getLast?.any isBreak then block else block ++ ['\n']

/-- A value without parts, its further lines starting at the given place. -/
def atom (indent : Nat) : Json → Block
  | .text value => scalar indent value.toList
  | value => value.compact.toList

/-- Blocks, of which each but the first begins at the given place. -/
def stack (indent : Nat) : List Block → Block
  | [] => []
  | first :: rest => first ++ rest.flatMap (pad indent ++ ·)

mutual

/-- The fields of an object, whose keys stand at the given place. -/
def fields (indent : Nat) : List (String × Json) → List Block
  | [] => []
  | (key, value) :: rest => (key.toList ++ ':' :: under indent value) :: fields indent rest

/-- A value under a key at the given place. -/
def under (indent : Nat) : Json → Block
  | .array [] => " []\n".toList
  | .object [] => " \x7b\x7d\n".toList
  | .array (item :: rest) =>
    '\n' :: pad indent ++ stack indent (items indent (item :: rest))
  | .object (field :: rest) =>
    '\n' :: pad (indent + 2) ++ stack (indent + 2) (fields (indent + 2) (field :: rest))
  | value => ' ' :: closed (atom (indent + 2) value)

/-- The items of a list, whose dashes stand at the given place. -/
def items (indent : Nat) : List Json → List Block
  | [] => []
  | item :: rest => ('-' :: ' ' :: inline (indent + 2) item) :: items indent rest

/-- A value that begins at the given place. -/
def inline (indent : Nat) : Json → Block
  | .array [] => "[]\n".toList
  | .object [] => "\x7b\x7d\n".toList
  | .array (item :: rest) => stack indent (items indent (item :: rest))
  | .object (field :: rest) => stack indent (fields indent (field :: rest))
  | value => closed (atom indent value)

end

/-- The value as a document. -/
def document (value : Json) : String := String.ofList (inline 0 value)

end MoveDesk.Yaml
