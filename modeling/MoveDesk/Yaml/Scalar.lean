import MoveDesk.Decimal.Numeral
import MoveDesk.Text.Digit

/-!
# YAML scalars

How a text is written as a YAML scalar. A text of several lines becomes a literal block; a text
that would be read as something else goes between single quotes; any other stands plain if its
characters allow it. Where a form is not possible the next one is taken: plain, single quotes,
double quotes.
-/

namespace MoveDesk.Yaml

/-! ## Texts that read as something else -/

/-- A sign or none, a zero, and further digits: no number, but like one. -/
def isPaddedNumber (text : List Char) : Bool :=
  match (Decimal.sign text).2 with
  | '0' :: c :: rest => (c :: rest).all Char.isDigit
  | _ => false

/-- The number below the limit that the digits are written for in the given base. -/
def digitsIn? (limit base : Nat) (text : List Char) : Option Nat :=
  if text.isEmpty then none
  else
    text.foldlM (fun n c => do
      let n := base * n + (← Text.digit? base c)
      if n < limit then some n else none) 0

/-- The base that a prefix stands for, and the text behind it. -/
def based? : List Char → Option (Nat × List Char)
  | '0' :: 'x' :: rest => some (16, rest)
  | '0' :: 'o' :: rest => some (8, rest)
  | '0' :: 'b' :: rest => some (2, rest)
  | _ => none

/-- The text reads as an integer of at most 128 bits. -/
def isInteger (text : List Char) : Bool :=
  let isBelow (limit : Nat) (text : List Char) : Bool :=
    match based? text with
    | some (base, digits) => (digitsIn? limit base digits).isSome
    | none => (digitsIn? limit 10 text).isSome
  let unsigned := isBelow (Nat.pow 2 128)
  if isPaddedNumber text then false
  else
    match text with
    | '+' :: rest => unsigned rest
    | '-' :: rest => isBelow (Nat.pow 2 127 + 1) rest
    | _ => unsigned text

/-- The text reads as a number of double precision. -/
def isFloat (text : List Char) : Bool :=
  let bare := match text with
    | '+' :: rest => rest
    | _ => text
  let special := ["inf", "Inf", "INF"].map fun word => '.' :: word.toList
  let nans := ["nan", "NaN", "NAN"].map fun word => '.' :: word.toList
  let doubleSign := match text with
    | '+' :: '+' :: _ | '+' :: '-' :: _ => true
    | _ => false
  if isPaddedNumber text || doubleSign then false
  else
    special.contains bare || special.any ('-' :: · = text) || nans.contains text ||
      (Decimal.ofText? bare).any (·.nearest.isFinite)

/-- The words that read as null or as a truth value. -/
def reservedWords : List String :=
  ["null", "Null", "NULL", "~", "true", "True", "TRUE", "false", "False", "FALSE"]

/-- The text reads as something else than a text, or looks like it. -/
def isAmbiguous (text : List Char) : Bool :=
  text.isEmpty || reservedWords.contains (String.ofList text) || isInteger text ||
    isFloat text || isPaddedNumber text

/-! ## Forms that the characters allow -/

/-- The character ends a line. -/
def isBreak (c : Char) : Bool :=
  c = '\n' || c = '\r' || c = '\u0085' || c = '\u2028' || c = '\u2029'

/-- The character may be written as it is. -/
def isPrintable (c : Char) : Bool :=
  let n := c.toNat
  n = 0x0a || (0x20 ≤ n && n ≤ 0x7e) || (0xa0 ≤ n && n ≤ 0xfffd && n ≠ 0xfeff) ||
    0x10000 ≤ n

/-- The text ends here, or a blank follows. -/
def blankAhead : List Char → Bool
  | [] => true
  | c :: _ => c = ' ' || c = '\t' || c = '\x00' || isBreak c

/-- The neighbours `a`, `b` stand side by side somewhere in the text. -/
def anyPair (p : Char → Char → Bool) (text : List Char) : Bool :=
  (text.zip (text.drop 1)).any fun (a, b) => p a b

/-- The start of the text would be read as something else than a plain text. -/
def startsWithIndicator (text : List Char) : Bool :=
  "---".toList.isPrefixOf text || "...".toList.isPrefixOf text ||
    match text with
    | [] => false
    | c :: rest =>
      "#,[]\x7b\x7d&*!|>'\"%@`".toList.contains c ||
        ("?:-".toList.contains c && blankAhead rest)

/-- Behind its first character the text has a colon before a blank, or a hash behind one. -/
def holdsIndicator : List Char → Bool
  | [] => false
  | c :: rest =>
    (match rest with
      | ':' :: behind => blankAhead behind
      | '#' :: _ => blankAhead [c]
      | _ => false) || holdsIndicator rest

/-- A character has to be escaped, or a space stands before the end of a line. -/
def needsEscapes (text : List Char) : Bool :=
  text.any (!isPrintable ·) || anyPair (fun a b => a = ' ' && isBreak b) text

/-- The text may stand plain. -/
def allowsPlain (text : List Char) : Bool :=
  !startsWithIndicator text && !holdsIndicator text && !needsEscapes text &&
    !text.any isBreak && text.head? ≠ some ' ' && text.getLast? ≠ some ' '

/-- The text may stand between single quotes. -/
def allowsSingleQuotes (text : List Char) : Bool :=
  !needsEscapes text && !anyPair (fun a b => isBreak a && b = ' ') text

/-- The text may stand in a literal block. -/
def allowsLiteral (text : List Char) : Bool :=
  !needsEscapes text && text.getLast? ≠ some ' '

/-! ## Writing -/

/-- The blanks at the start of a line. -/
def pad (indent : Nat) : List Char := List.replicate indent ' '

/-- Text of several lines, of which each line but the empty ones starts at the given place;
`freshLine` says whether the text starts on a line of its own. -/
def lines (indent : Nat) (freshLine : Bool) (write : Char → List Char) (text : List Char) :
    List Char :=
  go freshLine [] text
where
  /-- Goes on behind what is written, in reverse. -/
  go (freshLine : Bool) (written : List Char) : List Char → List Char
    | [] => written.reverse
    | c :: rest =>
      if isBreak c then go true (c :: written) rest
      else
        let start := if freshLine then pad indent else []
        go false ((start ++ write c).reverse ++ written) rest

/-- The text between single quotes, a single quote being written twice. A line feed has no place
in it, since one alone would read as a space. -/
def singleQuoted (indent : Nat) (text : List Char) : List Char :=
  let body := lines indent false (fun c => if c = '\'' then ['\'', '\''] else [c]) text
  let tail := if text.getLast?.any isBreak then pad indent else []
  '\'' :: body ++ tail ++ ['\'']

/-- An uppercase hexadecimal digit. -/
def upperHex (n : Nat) : Char := (Text.hexDigit n).toUpper

/-- The given number of hexadecimal digits. -/
def hexDigits : Nat → Nat → List Char
  | 0, _ => []
  | count + 1, n => hexDigits count (n / 16) ++ [upperHex (n % 16)]

/-- A character between double quotes. -/
def escapeChar (c : Char) : List Char :=
  match c with
  | '\x00' => ['\\', '0']
  | '\x07' => ['\\', 'a']
  | '\x08' => ['\\', 'b']
  | '\t' => ['\\', 't']
  | '\n' => ['\\', 'n']
  | '\x0b' => ['\\', 'v']
  | '\x0c' => ['\\', 'f']
  | '\r' => ['\\', 'r']
  | '\x1b' => ['\\', 'e']
  | '"' => ['\\', '"']
  | '\\' => ['\\', '\\']
  | '\u0085' => ['\\', 'N']
  | '\u2028' => ['\\', 'L']
  | '\u2029' => ['\\', 'P']
  | c =>
    if isPrintable c then [c]
    else if c.toNat < 0x100 then '\\' :: 'x' :: hexDigits 2 c.toNat
    else if c.toNat < 0x10000 then '\\' :: 'u' :: hexDigits 4 c.toNat
    else '\\' :: 'U' :: hexDigits 8 c.toNat

/-- The text between double quotes. -/
def doubleQuoted (text : List Char) : List Char :=
  '"' :: text.flatMap escapeChar ++ ['"']

/-- The header of a literal block: the indentation if the first line does not show it, and what
happens to the breaks at the end. -/
def literalHeader (text : List Char) : List Char :=
  let hint := if text.head?.any fun c => c = ' ' || isBreak c then ['2'] else []
  let ending := match text.reverse with
    | [] => ['-']
    | [c] => if isBreak c then ['+'] else ['-']
    | last :: before :: _ =>
      if !isBreak last then ['-'] else if isBreak before then ['+'] else []
  '|' :: hint ++ ending

/-- The text as a literal block. -/
def literal (indent : Nat) (text : List Char) : List Char :=
  literalHeader text ++ '\n' :: lines indent true (fun c => [c]) text

/-- The text as a scalar whose further lines start at the given place. -/
def scalar (indent : Nat) (text : List Char) : List Char :=
  if text.contains '\n' && allowsLiteral text then literal indent text
  else if text.contains '\n' then doubleQuoted text
  else if !isAmbiguous text && allowsPlain text then text
  else if allowsSingleQuotes text then singleQuoted indent text
  else doubleQuoted text

end MoveDesk.Yaml
