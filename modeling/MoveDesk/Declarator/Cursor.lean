import MoveDesk.Declarator
import MoveDesk.Text.Slice

/-!
# The scanner on bytes

`pass` is one pass of a scanner that has only the bytes of a source. It searches the keyword behind
a cursor and reads the blanks and the name behind the keyword. A name is kept as the span of its
bytes. Behind a name the scanner goes on where the name ends, and behind a keyword without a name
one byte after the keyword begins.
-/

namespace MoveDesk.Declarator

open Text

/-- The offset behind the blanks at `offset`, unless there are none. -/
def behindBlanks? (source : Bytes) (offset : Nat) : Slicing (Option Nat) := do
  let rest ← slice source ⟨offset, source.length⟩
  let trimmed := rest.drop (runSize isBlank rest)
  return if trimmed.length = rest.length then none
    else some (offset + (rest.length - trimmed.length))

/-- The offset behind the longest word at `offset`, unless it is empty. -/
def behindWord? (source : Bytes) (offset : Nat) : Slicing (Option Nat) := do
  let rest ← slice source ⟨offset, source.length⟩
  let size := runSize isWord rest
  return if 0 < size then some (offset + size) else none

/-- The offset behind the name of the given shape at `offset`. -/
def behindName? (shape : NameShape) (source : Bytes) (offset : Nat) : Slicing (Option Nat) := do
  let some stop ← behindWord? source offset | return none
  match shape with
  | .plain => return some stop
  | .qualified =>
    let rest ← slice source ⟨stop, source.length⟩
    let colons := Text.encode "::"
    if colons.isPrefixOf rest then
      let behind := rest.drop colons.length
      behindWord? source (source.length - behind.length)
    else return none

/-- The span of the name behind a keyword that ends at `offset`. -/
def nameSpan? (shape : NameShape) (source : Bytes) (offset : Nat) : Slicing (Option Span) := do
  let some start ← behindBlanks? source offset | return none
  let some stop ← behindName? shape source start | return none
  return some ⟨start, stop⟩

/-- How far the scanner has come. -/
structure Progress where
  /-- The offset at which the search goes on. -/
  cursor : Nat := 0
  /-- The spans of the names found so far. -/
  names : List Span := []
deriving DecidableEq, Repr

/-- One pass of the scanner, or nothing if the keyword does not come any more. -/
def pass (d : Declarator) (source : Bytes) (progress : Progress) : Slicing (Option Progress) := do
  let keyword := Text.encode d.keyword
  let rest ← slice source ⟨progress.cursor, source.length⟩
  match offset? keyword rest with
  | none => return none
  | some offset =>
    let start := progress.cursor + offset
    match ← nameSpan? d.shape source (start + keyword.length) with
    | some name =>
      let _ ← slice source name
      return some { cursor := name.stop, names := progress.names ++ [name] }
    | none => return some { progress with cursor := start + 1 }

end MoveDesk.Declarator
