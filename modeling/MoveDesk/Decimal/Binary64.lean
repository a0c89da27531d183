/-!
# Decimal numerals and double precision

A `Decimal` is an exact decimal numeral. `Decimal.nearest` is the double precision number nearest
to it, and `Binary64.positional` writes such a number with the fewest digits that read back, and
without an exponent. All arithmetic is on exact integers.
-/

namespace MoveDesk

/-- The numeral `± digits · 10 ^ exponent`. -/
structure Decimal where
  /-- The sign is minus. -/
  negative : Bool
  /-- The digits, read as one natural number. -/
  digits : Nat
  /-- The power of ten. -/
  exponent : Int
deriving DecidableEq, Repr

/-- A number of double precision. -/
inductive Binary64 where
  /-- The number `± significand · 2 ^ exponent`. -/
  | finite (negative : Bool) (significand : Nat) (exponent : Int)
  /-- Beyond the largest finite number. -/
  | infinite (negative : Bool)
  /-- Not a number. -/
  | nan
deriving DecidableEq, Repr

/-- The value of decimal digits, the most significant first. They are taken in blocks, of which each
is joined at once to those before it, so that long numbers are cheap to read. -/
def digitsValue (digits : List Char) : Nat :=
  go 0 1 0 digits
where
  /-- The value behind the finished blocks, which come to `high`, and the digits of the present one,
  which come to `low` below the power of ten `unit`. -/
  go (high unit low : Nat) : List Char → Nat
    | [] => high * unit + low
    | c :: rest =>
      let unit := 10 * unit
      let low := 10 * low + (c.toNat - '0'.toNat)
      if unit < Nat.pow 10 512 then go high unit low rest else go (high * unit + low) 1 0 rest

theorem digitsValue_go (high unit low : Nat) (digits : List Char) :
    digitsValue.go high unit low digits =
      digits.foldl (fun n c => 10 * n + (c.toNat - '0'.toNat)) (high * unit + low) := by
  induction digits generalizing high unit low with
  | nil => rfl
  | cons c rest ih =>
    have hjoin : high * (10 * unit) + (10 * low + (c.toNat - '0'.toNat)) =
        10 * (high * unit + low) + (c.toNat - '0'.toNat) := by
      rw [Nat.mul_left_comm, Nat.mul_add, Nat.add_assoc]
    simp only [digitsValue.go, List.foldl_cons]
    split
    · rw [ih, hjoin]
    · rw [ih, hjoin, Nat.mul_one, Nat.add_zero]

/-- Each digit counts ten times what the one behind it does. -/
theorem digitsValue_eq_foldl (digits : List Char) :
    digitsValue digits = digits.foldl (fun n c => 10 * n + (c.toNat - '0'.toNat)) 0 := by
  simp [digitsValue, digitsValue_go]

/-- The decimal digits of a number, the most significant first. -/
def decimalDigits (n : Nat) : List Char := (toString n).toList

/-- A power of a base; where the exponent is below zero it counts as zero. -/
def power (base : Nat) (exponent : Int) : Nat := Nat.pow base exponent.toNat

/-- The integer fits in 64 bits. -/
def fits64 (n : Int) : Bool := Int64.minValue.toInt ≤ n && n ≤ Int64.maxValue.toInt

/-- The numeral with the given digits before and after the point and the given power of ten. -/
def Decimal.ofParts (negative : Bool) (whole fraction : List Char) (exponent : Int) : Decimal where
  negative
  digits := digitsValue (whole ++ fraction)
  exponent := exponent - fraction.length

namespace Binary64

/-- The quotient of two naturals, rounded to the nearest integer, a half going to the even one. -/
def roundDiv (num den : Nat) : Nat :=
  let q := num / den
  let twice := 2 * (num % den)
  if twice < den then q
  else if den < twice then q + 1
  else q + q % 2

/-- The nearest natural number of at most 53 significant bits, a half going to the even one. -/
def roundNat (n : Nat) : Nat :=
  let unit := Nat.pow 2 (n.log2 - 52)
  roundDiv n unit * unit

/-- The quotient of two naturals divided by `2 ^ e`, as a fraction. -/
def scale (num den : Nat) (e : Int) : Nat × Nat :=
  (num * power 2 (-e), den * power 2 e)

/-- The exponent of the double precision number next to a positive fraction: the significand then
has 53 bits, or fewer at the lower end of the range. -/
def exponentOf (num den : Nat) : Int :=
  let guess : Int := (num.log2 : Int) - den.log2
  let scaled := scale num den guess
  let floorLog := if scaled.1 < scaled.2 then guess - 1 else guess
  max (-1074) (floorLog - 52)

/-- The number `significand · 2 ^ exponent`, where the significand may have come to 54 bits by
rounding up: it then is a power of two, and its half is taken with the next exponent. -/
def carried (negative : Bool) (significand : Nat) (exponent : Int) : Binary64 :=
  let (significand, exponent) :=
    if power 2 53 ≤ significand then (significand / 2, exponent + 1) else (significand, exponent)
  if 971 < exponent then infinite negative else finite negative significand exponent

/-- The double precision number nearest to a positive fraction. -/
def ofFraction (negative : Bool) (num den : Nat) : Binary64 :=
  let exponent := exponentOf num den
  let scaled := scale num den exponent
  carried negative (roundDiv scaled.1 scaled.2) exponent

/-- The number is a finite one. -/
def isFinite : Binary64 → Bool
  | finite .. => true
  | _ => false

end Binary64

/-- The double precision number nearest to the numeral. -/
def Decimal.nearest (d : Decimal) : Binary64 :=
  -- the numeral lies between two powers of two, as each ten counts for three bits or four
  let bits : Int := d.digits.log2
  let low := bits + min (3 * d.exponent) (4 * d.exponent)
  let high := bits + 1 + max (3 * d.exponent) (4 * d.exponent)
  if d.digits = 0 then .finite d.negative 0 0
  else if 1100 < low then .infinite d.negative
  else if high < -1100 then .finite d.negative 0 0
  else Binary64.ofFraction d.negative (d.digits * power 10 d.exponent) (power 10 (-d.exponent))

namespace Binary64

/-- The numeral `n · 10 ^ k` reads back as `significand · 2 ^ exponent`: it lies between the
midpoints to the neighbours, the midpoints included if the significand is even. -/
def readsBack (significand : Nat) (exponent : Int) (n : Nat) (k : Int) : Bool :=
  -- in quarters of the last place; below a power of two the neighbour is only half as far
  let e := exponent - 2
  let unit := power 2 e * power 10 (-k)
  let point := n * power 10 k * power 2 (-e)
  let low := unit *
    if significand = power 2 52 && -1074 < exponent then 4 * significand - 1
    else 4 * significand - 2
  let high := unit * (4 * significand + 2)
  if significand % 2 = 0 then low ≤ point && point ≤ high else low < point && point < high

/-- The shortest numeral that reads back as a positive number, and of those the nearest, where of
two that are equally near the larger one is taken: its digits and its power of ten. -/
def shortest (significand : Nat) (exponent : Int) : Nat × Int :=
  let num := significand * power 2 exponent
  let den := power 2 (-exponent)
  -- the power of ten of the leading digit
  let guess : Int := (decimalDigits num).length - (decimalDigits den).length
  let lead := if den * power 10 guess ≤ num * power 10 (-guess) then guess else guess - 1
  let candidate (count : Nat) : Option (Nat × Int) :=
    let k := lead - (count - 1)
    let a := num * power 10 (-k)
    let b := den * power 10 k
    let below := a / b
    let fits (n : Nat) := readsBack significand exponent n k
    let nearer := if 2 * (a % b) < b then [below, below + 1] else [below + 1, below]
    (nearer.find? fits).map fun n => (n, k)
  ((List.range 17).findSome? fun i => candidate (i + 1)).getD (num, 0)

/-- Digits and a power of ten, written out without an exponent. -/
def layOut (digits : List Char) (exponent : Int) : String :=
  if 0 ≤ exponent then String.ofList (digits ++ List.replicate exponent.toNat '0')
  else
    let places := (-exponent).toNat
    let padded := List.replicate (places + 1 - digits.length) '0' ++ digits
    let whole := padded.take (padded.length - places)
    let fraction := padded.drop (padded.length - places)
    -- the last digits of a numeral with trailing zeros are not written
    let fraction := (fraction.reverse.dropWhile (· = '0')).reverse
    String.ofList (if fraction.isEmpty then whole else whole ++ '.' :: fraction)

/-- The number with the fewest digits that read back, without an exponent. -/
def positional : Binary64 → String
  | nan => "NaN"
  | infinite negative => if negative then "-inf" else "inf"
  | finite negative significand exponent =>
    let body :=
      if significand = 0 then "0"
      else
        let (digits, power) := shortest significand exponent
        layOut (decimalDigits digits) power
    if negative then "-" ++ body else body

end Binary64

end MoveDesk
