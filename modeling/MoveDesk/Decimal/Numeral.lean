import MoveDesk.Decimal.Binary64

/-!
# Decimal numerals as text

The usual written form of a number: a sign, digits with a point among, before or behind them, and
an exponent.
-/

namespace MoveDesk.Decimal

/-- The sign at the start of the text. -/
def sign (text : List Char) : Bool × List Char :=
  match text with
  | '-' :: rest => (true, rest)
  | '+' :: rest => (false, rest)
  | _ => (false, text)

/-- An exponent, with its mark, that is all of the text. -/
def exponent? : List Char → Option Int
  | [] => some 0
  | mark :: rest =>
    if mark = 'e' || mark = 'E' then
      let (negative, digits) := sign rest
      if digits.isEmpty || !digits.all Char.isDigit then none
      else some (if negative then -(digitsValue digits : Int) else digitsValue digits)
    else none

/-- The numeral that the text is written for: at least one digit, before or behind the point. -/
def ofText? (text : List Char) : Option Decimal := do
  let (negative, rest) := sign text
  let whole := rest.takeWhile Char.isDigit
  let (fraction, rest) := match rest.drop whole.length with
    | '.' :: rest => (rest.takeWhile Char.isDigit, rest.dropWhile Char.isDigit)
    | rest => ([], rest)
  if whole.isEmpty && fraction.isEmpty then none
  else return ofParts negative whole fraction (← exponent? rest)

end MoveDesk.Decimal
