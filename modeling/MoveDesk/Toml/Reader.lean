import MoveDesk.Toml.Scalar
import MoveDesk.Toml.Tree

/-!
# Reading TOML

`Toml.parse?` reads a document into the fields of its top level. The readers that loop take a
number of turns, of which no two in a row leave the text as it is, so that twice its length is
always enough.
-/

namespace MoveDesk.Toml

open Text (expect?)

/-! ## Between values -/

/-- The text without blanks at its front. -/
def skipSpaces (text : List Char) : List Char := text.dropWhile isSpace

/-- The text without the blanks, line feeds and comments at its front. -/
def skipLines (comment : Bool) : List Char → Option (List Char)
  | [] => some []
  | '\r' :: '\n' :: rest => skipLines false rest
  | c :: rest =>
    if c = '\n' then skipLines false rest
    else if comment then (if isPlain c then skipLines true rest else none)
    else if isSpace c then skipLines false rest
    else if c = '#' then skipLines true rest
    else some (c :: rest)

/-- The text behind the end of a line, which may hold a comment but nothing else. -/
def endLine (comment : Bool) : List Char → Option (List Char)
  | [] => some []
  | '\r' :: '\n' :: rest => some rest
  | c :: rest =>
    if c = '\n' then some rest
    else if comment then (if isPlain c then endLine true rest else none)
    else if isSpace c then endLine false rest
    else if c = '#' then endLine true rest
    else none

/-! ## Keys -/

/-- The character may stand in a key without quotes. -/
def isKeyChar (c : Char) : Bool := c.isAlphanum || c = '_' || c = '-'

/-- A key without points. -/
def simpleKey : Reader String := fun text =>
  let bare := text.takeWhile isKeyChar
  if bare.isEmpty then quoted text
  else some (String.ofList bare, text.drop bare.length)

/-- Fewer brackets than this may be open at a time, and a dotted key has fewer parts. -/
def depthLimit : Nat := 80

/-- At most so many keys with points between them, and the blanks behind them. -/
def keyParts : Nat → Reader (List String)
  | 0, _ => none
  | turns + 1, text => do
    let (key, text) ← simpleKey (skipSpaces text)
    match skipSpaces text with
    | '.' :: text =>
      let (others, text) ← keyParts turns text
      return (key :: others, text)
    | text => return ([key], text)

/-- A dotted key and the blanks behind it. -/
def dottedKey : Reader (List String) := keyParts (depthLimit - 1)

/-! ## Values -/

mutual

/-- A value with the given number of brackets open around it. -/
def value (depth : Nat) : Nat → Reader Setting
  | 0, _ => none
  | turns + 1, text =>
    let inside := depth + 1
    match text with
    | '[' :: text => do
      if depthLimit ≤ inside then none
      let (items, text) ← items inside turns text
      return (.list items, text)
    | '\x7b' :: text => do
      if depthLimit ≤ inside then none
      let (table, text) ← pairs inside turns (skipSpaces text)
      return (.table table.settings, text)
    | '"' :: _ => (string text).map fun (read, text) => (.text read, text)
    | '\'' :: _ => (string text).map fun (read, text) => (.text read, text)
    | text => word text

/-- The items of a list, up to the bracket behind them. -/
def items (depth : Nat) : Nat → Reader (List Setting)
  | 0, _ => none
  | turns + 1, text => do
    match ← skipLines false text with
    | ']' :: text => return ([], text)
    | text =>
      let (item, text) ← value depth turns text
      match ← skipLines false text with
      | ',' :: text =>
        let (others, text) ← items depth turns text
        return (item :: others, text)
      | ']' :: text => return ([item], text)
      | _ => none

/-- The pairs of a table on one line, up to the brace behind them. -/
def pairs (depth : Nat) : Nat → Reader Table
  | 0, _ => none
  | turns + 1, text =>
    match text with
    | '\x7d' :: text => return ({}, text)
    | text => morePairs depth turns {} text

/-- At least one more pair of a table on one line. -/
def morePairs (depth : Nat) : Nat → Table → Reader Table
  | 0, _, _ => none
  | turns + 1, table, text => do
    let (keys, text) ← dottedKey text
    let (read, text) ← value depth turns (skipSpaces (← expect? '=' text))
    let table ← table.assign keys.dropLast (keys.getLast?.getD "") read
    match skipSpaces text with
    | ',' :: text => morePairs depth turns table text
    | '\x7d' :: text => return (table, text)
    | _ => none

end

/-! ## Documents -/

/-- The document so far, and the path of the header that stands above. -/
structure Page where
  /-- The document. -/
  root : Table := {}
  /-- The keys of the header. -/
  path : List String := []

/-- The page behind a header, from behind its brackets. -/
def headed (edit : List String → String → Table → Option Table) (page : Page)
    (keys : List String) : Option Page := do
  return ⟨← edit keys.dropLast (keys.getLast?.getD "") page.root, keys⟩

/-- The page behind a statement. -/
def statement (turns : Nat) (page : Page) : Reader Page
  | '[' :: '[' :: text => do
    let (keys, text) ← dottedKey text
    let text ← expect? ']' (← expect? ']' text)
    return (← headed Table.openItem page keys, text)
  | '[' :: text => do
    let (keys, text) ← dottedKey text
    return (← headed Table.openTable page keys, ← expect? ']' text)
  | text => do
    let (keys, text) ← dottedKey text
    let text := skipSpaces (← expect? '=' text)
    let (read, text) ← value 0 turns text
    let root ← page.root.change false
      (Table.assign keys.dropLast (keys.getLast?.getD "") read) page.path
    return ({ page with root }, text)

/-- The page behind all statements. -/
def statements : Nat → Page → List Char → Option Page
  | 0, _, _ => none
  | turns + 1, page, text => do
    match ← skipLines false text with
    | [] => return page
    | text =>
      let (page, text) ← statement turns page text
      statements turns page (← endLine false text)

/-- The fields of the document that the text is written for. -/
def parse? (text : String) : Option Setting.Fields :=
  let content := match text.toList with
    | '\ufeff' :: rest => rest
    | rest => rest
  (statements (2 * content.length + 2) {} content).map (·.root.settings)

end MoveDesk.Toml
