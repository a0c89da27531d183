import MoveDesk.Text.Blank
import MoveDesk.Text.Word

/-!
# Declarations in source text

What the program finds in a source that it is given to analyze, by the command `analyze`, at
`POST /api/v1/analyze` or by choice 7 of the menu: the names behind `module`, `struct` and `fun`.

* A `Declarator` is a pattern for declarations: a keyword, and the shape of the name that it
  declares, a word or two with `::` between them (`NameShape`, `name?`). Between the keyword and the
  name comes at least one blank.
* `scan` takes a pattern over a source. The source is plain text, so a keyword inside a comment, a
  string or a longer word counts as well. Found declarations do not overlap, and the leftmost comes
  first.

`Declarator.pass` is the same on the bytes of a source, slice by slice.
-/

namespace MoveDesk

/-- The shape of a declared name. -/
inductive NameShape where
  /-- A word. -/
  | plain
  /-- Two words with `::` between them. -/
  | qualified
deriving DecidableEq, Repr

/-- A keyword that declares names of a shape. -/
structure Declarator where
  /-- The keyword. -/
  keyword : String
  /-- The shape of the names it declares. -/
  shape : NameShape
deriving DecidableEq, Repr

/-- A declaration at the start of a text. -/
structure Declaration where
  /-- The declared name. -/
  name : List Char
  /-- The number of characters from the start of the keyword to the end of the name. -/
  width : Nat
deriving DecidableEq, Repr

namespace Declarator

/-- Declares a module, under its address. -/
def «module» : Declarator := ⟨"module", .qualified⟩

/-- Declares a struct. -/
def struct : Declarator := ⟨"struct", .plain⟩

/-- Declares a function, whatever its visibility. -/
def function : Declarator := ⟨"fun", .plain⟩

/-- The longest word at the start of the text, unless it is empty. -/
def word? (text : List Char) : Option (List Char) :=
  match text.takeWhile Text.isWord with
  | [] => none
  | word => some word

/-- The name of the given shape at the start of the text. -/
def name? (shape : NameShape) (text : List Char) : Option (List Char) := do
  let first ← word? text
  match shape with
  | .plain => return first
  | .qualified =>
    match text.drop first.length with
    | ':' :: ':' :: rest =>
      let second ← word? rest
      return first ++ ':' :: ':' :: second
    | _ => none

/-- The declaration at the start of the text. -/
def declaration? (d : Declarator) (text : List Char) : Option Declaration :=
  let keyword := d.keyword.toList
  if keyword.isPrefixOf text then
    let behind := text.drop keyword.length
    let blanks := behind.takeWhile Text.isBlank
    if blanks.isEmpty then none
    else
      (name? d.shape (behind.drop blanks.length)).map fun name =>
        { name, width := keyword.length + blanks.length + name.length }
  else none

/-- The declared names in the source, in order of appearance and with repeats. -/
def scan (d : Declarator) (source : String) : List String :=
  go [] 0 source.toList
where
  /-- Goes on behind the names `found`, held in reverse; the first `skip` characters belong to the
  last of them. -/
  go (found : List String) (skip : Nat) : List Char → List String
    | [] => found.reverse
    | c :: rest =>
      match skip with
      | skip + 1 => go found skip rest
      | 0 =>
        match d.declaration? (c :: rest) with
        | some declaration =>
          go (String.ofList declaration.name :: found) (declaration.width - 1) rest
        | none => go found 0 rest

end Declarator

end MoveDesk
