import MoveDesk.Decimal.Numeral
import MoveDesk.Settings.Layer
import MoveDesk.Text.Digit
import MoveDesk.Text.Find

/-!
# TOML scalars

Texts, numbers, truth values and dates as TOML writes them. A reader takes what it reads off the
front of a text; a date is held as a text in its usual form.
-/

namespace MoveDesk.Toml

open Text (expect?)

/-- Reads something off the front of a text. -/
abbrev Reader (α : Type) := List Char → Option (α × List Char)

/-- A blank within a line. -/
def isSpace (c : Char) : Bool := c = ' ' || c = '\t'

/-- A character that may stand in a line: no control character but the tab. -/
def isPlain (c : Char) : Bool := c = '\t' || (0x20 ≤ c.toNat && c.toNat ≠ 0x7f)

/-- The text behind a line feed at its front, which a carriage return may stand before. -/
def lineFeed? : List Char → Option (List Char)
  | '\n' :: rest => some rest
  | '\r' :: '\n' :: rest => some rest
  | _ => none

/-! ## Texts -/

/-- The character that stands behind a backslash for another. -/
def escaped? : Char → Option Char
  | 'b' => some '\x08'
  | 't' => some '\t'
  | 'n' => some '\n'
  | 'f' => some '\x0c'
  | 'r' => some '\r'
  | '"' => some '"'
  | '\\' => some '\\'
  | _ => none

/-- The character with the hexadecimal number. -/
def numbered? (digits : List Char) : Option Char := do
  let n ← digits.foldlM (fun n c => (Text.digit? 16 c).map (16 * n + ·)) 0
  if n.isValidChar then some (Char.ofNat n) else none

/-- The text up to a double quote, behind the characters `read`, held in reverse. -/
def basic (read : List Char) : Reader String
  | [] => none
  | '"' :: rest => some (String.ofList read.reverse, rest)
  | '\\' :: 'u' :: a :: b :: c :: d :: rest => do
    basic ((← numbered? [a, b, c, d]) :: read) rest
  | '\\' :: 'U' :: a :: b :: c :: d :: e :: f :: g :: h :: rest => do
    basic ((← numbered? [a, b, c, d, e, f, g, h]) :: read) rest
  | '\\' :: c :: rest => do basic ((← escaped? c) :: read) rest
  | c :: rest => if isPlain c && c ≠ '\\' then basic (c :: read) rest else none

/-- The text up to three double quotes; `trimming` says that blanks and line feeds are passed over,
as they are behind a backslash at the end of a line. -/
def multiBasic (trimming : Bool) (read : List Char) : Reader String
  | [] => none
  | '"' :: '"' :: '"' :: rest =>
    let more := (rest.takeWhile (· = '"')).take 2
    some (String.ofList (read.reverse ++ more), rest.drop more.length)
  | '\\' :: 'u' :: a :: b :: c :: d :: rest => do
    multiBasic false ((← numbered? [a, b, c, d]) :: read) rest
  | '\\' :: 'U' :: a :: b :: c :: d :: e :: f :: g :: h :: rest => do
    multiBasic false ((← numbered? [a, b, c, d, e, f, g, h]) :: read) rest
  | '\\' :: c :: rest =>
    match escaped? c with
    | some c => multiBasic false (c :: read) rest
    | none =>
      if (lineFeed? ((c :: rest).dropWhile isSpace)).isSome then multiBasic true read rest else none
  | '\r' :: '\n' :: rest => multiBasic trimming (if trimming then read else '\n' :: read) rest
  | c :: rest =>
    if trimming && (isSpace c || c = '\n') then multiBasic true read rest
    else if (isPlain c && c ≠ '\\') || c = '\n' then multiBasic false (c :: read) rest
    else none

/-- The text up to a single quote. -/
def literal (read : List Char) : Reader String
  | [] => none
  | '\'' :: rest => some (String.ofList read.reverse, rest)
  | c :: rest => if isPlain c then literal (c :: read) rest else none

/-- The text up to three single quotes. -/
def multiLiteral (read : List Char) : Reader String
  | [] => none
  | '\'' :: '\'' :: '\'' :: rest =>
    let more := (rest.takeWhile (· = '\'')).take 2
    some (String.ofList (read.reverse ++ more), rest.drop more.length)
  | '\r' :: '\n' :: rest => multiLiteral ('\n' :: read) rest
  | c :: rest => if isPlain c || c = '\n' then multiLiteral (c :: read) rest else none

/-- A text in quotes, within a line. -/
def quoted : Reader String
  | '"' :: rest => basic [] rest
  | '\'' :: rest => literal [] rest
  | _ => none

/-- A text in quotes, of which three may stand on either side. A line feed behind three opening
ones is not part of the text. -/
def string : Reader String
  | '"' :: '"' :: '"' :: rest => multiBasic false [] ((lineFeed? rest).getD rest)
  | '\'' :: '\'' :: '\'' :: rest => multiLiteral [] ((lineFeed? rest).getD rest)
  | text => quoted text

/-! ## Numbers -/

/-- Digits without the low lines that stand between them. -/
def digits? (isDigit : Char → Bool) (word : List Char) : Option (List Char) :=
  let pieces := Text.split '_' word
  if pieces.all fun piece => !piece.isEmpty && piece.all isDigit then some pieces.flatten else none

/-- The digits of a whole number, which has no zero in front. -/
def whole? (word : List Char) : Option (List Char) :=
  match digits? Char.isDigit word with
  | some ('0' :: _ :: _) => none
  | digits => digits

/-- The value of digits in a base of at most sixteen, if it fits in 64 bits. -/
def based? (base : Nat) (word : List Char) : Option Int := do
  let digits ← digits? (fun c => (Text.digit? base c).isSome) word
  let n ← digits.foldlM (fun n c =>
    let n := base * n + (Text.digit? base c).getD 0
    if fits64 n then some n else none) 0
  return n

/-- The integer that the word is written for, which has to fit in 64 bits. -/
def integer? (word : List Char) : Option Int := do
  let n ← match word with
    | '0' :: 'x' :: digits => based? 16 digits
    | '0' :: 'o' :: digits => based? 8 digits
    | '0' :: 'b' :: digits => based? 2 digits
    | _ => do
      let (negative, digits) := Decimal.sign word
      let n : Int := digitsValue (← whole? digits)
      pure (if negative then -n else n)
  if fits64 n then some n else none

/-- The exponent with its mark that is all of the text. -/
def exponent? : List Char → Option Int
  | [] => some 0
  | mark :: rest => do
    if mark ≠ 'e' && mark ≠ 'E' then none
    let (negative, digits) := Decimal.sign rest
    let n : Int := digitsValue (← digits? Char.isDigit digits)
    return if negative then -n else n

/-- The number with a fraction or an exponent that the word is written for. What is too large is
refused. -/
def float? (word : List Char) : Option Binary64 := do
  let (negative, rest) := Decimal.sign word
  match String.ofList rest with
  | "inf" => return .infinite negative
  | "nan" => return .nan
  | _ =>
    let isMark (c : Char) : Bool := c = 'e' || c = 'E'
    let significand := rest.takeWhile (!isMark ·)
    let exponent ← exponent? (rest.drop significand.length)
    let whole := significand.takeWhile (· ≠ '.')
    let fraction ← match significand.drop whole.length with
      | [] => some []
      | _ :: fraction => digits? Char.isDigit fraction
    if significand.length = rest.length && fraction.isEmpty then none
    let value := (Decimal.ofParts negative (← whole? whole) fraction exponent).nearest
    if value = .infinite false then none else return value

/-! ## Dates -/

/-- Two digits of a number between the bounds. -/
def two (low high : Nat) : Reader (List Char)
  | a :: b :: rest =>
    let n := digitsValue [a, b]
    if a.isDigit && b.isDigit && low ≤ n && n ≤ high then some ([a, b], rest) else none
  | _ => none

/-- The number of days in a month. -/
def daysIn (year month : Nat) : Nat :=
  if month = 2 then
    if year % 4 = 0 && (year % 100 ≠ 0 || year % 400 = 0) then 29 else 28
  else if [4, 6, 9, 11].contains month then 30
  else 31

/-- A year, a month and a day. -/
def date : Reader (List Char) := fun text => do
  let year := text.take 4
  if year.length ≠ 4 || !year.all Char.isDigit then none
  let (month, text) ← two 1 12 (← expect? '-' (text.drop 4))
  let (day, text) ← two 1 (daysIn (digitsValue year) (digitsValue month)) (← expect? '-' text)
  return (year ++ '-' :: month ++ '-' :: day, text)

/-- A point and digits: nine at most count, and zeros at the end do not. -/
def secondFraction : Reader (List Char)
  | '.' :: rest =>
    let digits := rest.takeWhile Char.isDigit
    let shown := ((digits.take 9).reverse.dropWhile (· = '0')).reverse
    if digits.isEmpty then none
    else some (if shown.isEmpty then [] else '.' :: shown, rest.drop digits.length)
  | text => some ([], text)

/-- Hours, minutes and seconds. -/
def time : Reader (List Char) := fun text => do
  let (hour, text) ← two 0 23 text
  let (minute, text) ← two 0 59 (← expect? ':' text)
  let (second, text) ← two 0 60 (← expect? ':' text)
  let (fraction, text) ← secondFraction text
  return (hour ++ ':' :: minute ++ ':' :: second ++ fraction, text)

/-- How far a time is from universal time, or nothing. -/
def offset : Reader (List Char)
  | [] => some ([], [])
  | mark :: rest =>
    if mark = 'Z' || mark = 'z' then some (['Z'], rest)
    else if mark = '+' || mark = '-' then do
      let (hour, rest) ← two 0 23 rest
      let (minute, rest) ← two 0 59 (← expect? ':' rest)
      let shown := if digitsValue (hour ++ minute) = 0 then '+' else mark
      return (shown :: hour ++ ':' :: minute, rest)
    else none

/-- The date, the time or both that are all of the text, in the usual form. -/
def moment? (text : List Char) : Option String := do
  let written ← match date text with
    | none => do
      let (time, []) ← time text | none
      pure time
    | some (date, []) => pure date
    | some (date, mark :: rest) => do
      if mark ≠ 'T' && mark ≠ 't' && mark ≠ ' ' then none
      let (time, rest) ← time rest
      let (offset, []) ← offset rest | none
      pure (date ++ 'T' :: time ++ offset)
  return String.ofList written

/-! ## Words -/

/-- The character may stand in a number, a date or a truth value. -/
def isWordChar (c : Char) : Bool := c.isAlphanum || "+-._:".toList.contains c

/-- The value that a word is written for. -/
def word? (word : List Char) : Option Setting :=
  match String.ofList word with
  | "true" => some (.bool true)
  | "false" => some (.bool false)
  | _ =>
    (integer? word).map .int <|> (float? word).map .real <|> (moment? word).map .text

/-- A value without quotes or brackets. A date and a time may have a space between them. -/
def word : Reader Setting := fun text => do
  let front := text.takeWhile isWordChar
  let rest := text.drop front.length
  let spaced := match rest with
    | ' ' :: more =>
      let back := more.takeWhile isWordChar
      (moment? (front ++ ' ' :: back)).map fun moment => (moment, more.drop back.length)
    | _ => none
  match spaced with
  | some (moment, rest) => return (.text moment, rest)
  | none => return (← word? front, rest)

end MoveDesk.Toml
