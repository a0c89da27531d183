import MoveDesk.Decimal.Binary64
import MoveDesk.Json.Basic
import MoveDesk.Text.Utf8

/-!
# Reading JSON

The reader works on bytes, from left to right, and gives what it has read together with the bytes
behind it. With strict care texts have to be UTF-8 with paired surrogates, and numbers have to be
in the range of double precision; with lexical care only the grammar counts, and the texts read are
left empty.

Each reading function comes with the fact that it leaves less than it was given, on which the
loops rest.
-/

namespace MoveDesk.Json

/-- How closely a value is read. -/
inductive Care where
  /-- Texts and numbers have to stand for something. -/
  | strict
  /-- The value is passed over. -/
  | lexical
deriving DecidableEq, Repr

/-- The byte may stand between values. -/
def isSpace (b : UInt8) : Bool := b == 0x20 || b == 0x09 || b == 0x0a || b == 0x0d

/-- The input without the space at its start. -/
def skipSpace (input : Bytes) : Bytes := input.dropWhile isSpace

theorem length_skipSpace_le (input : Bytes) : (skipSpace input).length ≤ input.length :=
  (List.dropWhile_sublist _).length_le

/-! ## Texts -/

/-- The value of a hexadecimal digit. -/
def hexValue? (b : UInt8) : Option Nat :=
  if 0x30 ≤ b && b ≤ 0x39 then some (b.toNat - 0x30)
  else if 0x61 ≤ b && b ≤ 0x66 then some (b.toNat - 0x61 + 10)
  else if 0x41 ≤ b && b ≤ 0x46 then some (b.toNat - 0x41 + 10)
  else none

/-- The value of four hexadecimal digits. -/
def hexUnit? (a b c d : UInt8) : Option Nat := do
  return 4096 * (← hexValue? a) + 256 * (← hexValue? b) + 16 * (← hexValue? c) + (← hexValue? d)

/-- The byte that a backslash and the given byte stand for. -/
def escaped? (b : UInt8) : Option UInt8 :=
  match b with
  | 0x22 => some 0x22
  | 0x5c => some 0x5c
  | 0x2f => some 0x2f
  | 0x62 => some 0x08
  | 0x66 => some 0x0c
  | 0x6e => some 0x0a
  | 0x72 => some 0x0d
  | 0x74 => some 0x09
  | _ => none

/-- The first unit of a surrogate pair. -/
def isHighSurrogate (unit : Nat) : Bool := 0xd800 ≤ unit && unit < 0xdc00

/-- The second unit of a surrogate pair. -/
def isLowSurrogate (unit : Nat) : Bool := 0xdc00 ≤ unit && unit < 0xe000

/-- The bytes already read, in reverse, with those of a code point added. -/
def pushCodePoint (n : Nat) (read : Bytes) : Bytes :=
  (String.utf8EncodeChar (Char.ofNat n)).reverse ++ read

/-- The bytes of a text up to its closing quote, escapes resolved, behind the bytes already read,
which are held in reverse. -/
def unquote (read : Bytes) : Bytes → Option (Bytes × Bytes)
  | 0x5c :: 0x75 :: a :: b :: c :: d :: rest =>
    match hexUnit? a b c d with
    | none => none
    | some unit =>
      if isLowSurrogate unit then none
      else if isHighSurrogate unit then
        match rest with
        | 0x5c :: 0x75 :: e :: f :: g :: h :: rest =>
          match hexUnit? e f g h with
          | none => none
          | some low =>
            if isLowSurrogate low then
              unquote (pushCodePoint (0x10000 + 0x400 * (unit - 0xd800) + (low - 0xdc00)) read) rest
            else none
        | _ => none
      else unquote (pushCodePoint unit read) rest
  | 0x5c :: b :: rest =>
    match escaped? b with
    | none => none
    | some byte => unquote (byte :: read) rest
  | b :: rest =>
    if b = 0x22 then some (read.reverse, rest)
    else if b < 0x20 || b == 0x5c then none
    else unquote (b :: read) rest
  | [] => none

/-- The input behind the closing quote of a text, escapes being read for their form only. -/
def passText : Bytes → Option Bytes
  | 0x5c :: 0x75 :: a :: b :: c :: d :: rest =>
    if (hexUnit? a b c d).isSome then passText rest else none
  | 0x5c :: b :: rest => if (escaped? b).isSome then passText rest else none
  | b :: rest =>
    if b = 0x22 then some rest
    else if b < 0x20 || b == 0x5c then none
    else passText rest
  | [] => none

/-- The text behind an opening quote. -/
def textBody? : Care → Bytes → Option (String × Bytes)
  | .strict, input =>
    match unquote [] input with
    | none => none
    | some (bytes, rest) => (Text.decode? bytes).map (·, rest)
  | .lexical, input => (passText input).map ("", ·)

/-- The text in quotes at the start of the input. -/
def text?At (care : Care) : Bytes → Option (String × Bytes)
  | 0x22 :: rest => textBody? care rest
  | _ => none

theorem length_lt_of_unquote {read input bytes rest : Bytes}
    (h : unquote read input = some (bytes, rest)) : rest.length < input.length := by
  fun_induction unquote read input <;> simp_all only [List.length_cons, reduceCtorEq,
    Option.some.injEq, Prod.mk.injEq, forall_const] <;> omega

theorem length_lt_of_passText {input rest : Bytes} (h : passText input = some rest) :
    rest.length < input.length := by
  fun_induction passText input <;> simp_all only [List.length_cons, reduceCtorEq,
    Option.some.injEq, forall_const] <;> omega

theorem length_lt_of_textBody? {care : Care} {input rest : Bytes} {text : String}
    (h : textBody? care input = some (text, rest)) : rest.length < input.length := by
  cases care with
  | strict =>
    simp only [textBody?] at h
    split at h
    · cases h
    · rename_i bytes behind hread
      obtain ⟨_, -, heq⟩ := Option.map_eq_some_iff.1 h
      exact (Prod.mk.inj heq).2 ▸ length_lt_of_unquote hread
  | lexical =>
    obtain ⟨_, hpass, heq⟩ := Option.map_eq_some_iff.1 h
    exact (Prod.mk.inj heq).2 ▸ length_lt_of_passText hpass

theorem length_lt_of_text?At {care : Care} {input rest : Bytes} {text : String}
    (h : text?At care input = some (text, rest)) : rest.length < input.length := by
  unfold text?At at h
  split at h
  · have := length_lt_of_textBody? h
    simp only [List.length_cons]
    omega
  · cases h

/-! ## Numbers -/

/-- A number as it is written: sign, digits before the point, the point and the digits behind it,
and the exponent with its mark. -/
structure Numeral where
  /-- A minus, or nothing. -/
  minus : Bytes
  /-- The digits before the point. -/
  whole : Bytes
  /-- The point and the digits behind it, or nothing. -/
  fraction : Bytes
  /-- The mark, the sign and the digits of the exponent, or nothing. -/
  exponent : Bytes
deriving DecidableEq, Repr

/-- The byte is a decimal digit. -/
def isDigit (b : UInt8) : Bool := 0x30 ≤ b && b ≤ 0x39

/-- The input behind a minus. -/
def minus (input : Bytes) : Bytes × Bytes :=
  match input with
  | 0x2d :: rest => ([0x2d], rest)
  | _ => ([], input)

/-- The digits before the point: a leading zero stands alone. -/
def whole? (input : Bytes) : Option (Bytes × Bytes) :=
  match input.takeWhile isDigit with
  | [] => none
  | 0x30 :: _ :: _ => none
  | digits => some (digits, input.dropWhile isDigit)

/-- The point and at least one digit behind it, if there is a point. -/
def fraction? (input : Bytes) : Option (Bytes × Bytes) :=
  match input with
  | 0x2e :: rest =>
    match rest.takeWhile isDigit with
    | [] => none
    | digits => some (0x2e :: digits, rest.dropWhile isDigit)
  | _ => some ([], input)

/-- The mark of an exponent, its sign and at least one digit, if there is a mark. -/
def exponent? (input : Bytes) : Option (Bytes × Bytes) :=
  match input with
  | [] => some ([], input)
  | mark :: rest =>
    if mark == 0x65 || mark == 0x45 then
      let (sign, rest) : Bytes × Bytes := match rest with
        | 0x2b :: rest => ([0x2b], rest)
        | 0x2d :: rest => ([0x2d], rest)
        | rest => ([], rest)
      match rest.takeWhile isDigit with
      | [] => none
      | digits => some (mark :: sign ++ digits, rest.dropWhile isDigit)
    else some ([], input)

/-- The number at the start of the input. -/
def numeral? (input : Bytes) : Option (Numeral × Bytes) := do
  let (minus, behindMinus) := minus input
  let (whole, behindWhole) ← whole? behindMinus
  let (fraction, behindFraction) ← fraction? behindWhole
  let (exponent, rest) ← exponent? behindFraction
  return ({ minus, whole, fraction, exponent }, rest)

namespace Numeral

/-- The characters of ASCII bytes. -/
def chars (bytes : Bytes) : List Char := bytes.map Char.ofUInt8

/-- The number as it is written. -/
def literal (n : Numeral) : String :=
  String.ofList (chars (n.minus ++ n.whole ++ n.fraction ++ n.exponent))

/-- The number that the digits behind `n` make with it, up to the digit with which it would not fit
in 64 bits any more, and the digits from there on. -/
def leading (n : Nat) : List Char → Nat × List Char
  | [] => (n, [])
  | c :: rest =>
    let next := 10 * n + (c.toNat - '0'.toNat)
    if next < UInt64.size then leading next rest else (n, c :: rest)

/-- The exponent, of which no more digits count than fit in 64 bits: it is out of all range then. -/
def exponentValue (n : Numeral) : Int :=
  let value (digits : Bytes) : Nat := (leading 0 (chars digits)).1
  match n.exponent with
  | _ :: 0x2d :: digits => -(value digits : Int)
  | _ :: 0x2b :: digits => value digits
  | _ :: digits => value digits
  | [] => 0

/-- The leading digits that fit in 64 bits, and the power of ten that they are counted in. -/
def parts (n : Numeral) : Nat × Int :=
  let fraction := chars (n.fraction.drop 1)
  let (digits, more) := leading 0 (chars n.whole)
  let (digits, unread) := leading digits fraction
  (digits, more.length - (fraction.length - unread.length) + n.exponentValue)

/-- The number is in the range of double precision: the leading digits times the power of ten, each
rounded and the product rounded again, stay below `2 ^ 1024`. -/
def isInRange (n : Numeral) : Bool :=
  let (digits, exponent) := n.parts
  digits = 0 || exponent < 0 || exponent ≤ 308 &&
    Binary64.roundNat (Binary64.roundNat digits * Binary64.roundNat (power 10 exponent)) < Nat.pow 2 1024

/-- The value: an integer if it is written as one, fits in 64 bits and is not minus zero. -/
def json (n : Numeral) : Json :=
  let (magnitude, more) := leading 0 (chars n.whole)
  let value : Int := if n.minus.isEmpty then magnitude else -(magnitude : Int)
  let isWhole := n.fraction.isEmpty && n.exponent.isEmpty && more.isEmpty
  if isWhole && Int64.minValue.toInt ≤ value && (n.minus.isEmpty || magnitude != 0) then .int value
  else .real n.literal

end Numeral

/-- The number at the start of the input as a value. -/
def number? (care : Care) (input : Bytes) : Option (Json × Bytes) :=
  match numeral? input with
  | none => none
  | some (n, rest) =>
    match care with
    | .lexical => some (.null, rest)
    | .strict => if n.isInRange then some (n.json, rest) else none

theorem length_minus_le (input : Bytes) : (minus input).2.length ≤ input.length := by
  unfold minus
  split <;> simp

theorem length_dropWhile_isDigit_le (input : Bytes) :
    (input.dropWhile isDigit).length ≤ input.length :=
  (List.dropWhile_sublist _).length_le

theorem length_lt_of_whole? {input digits rest : Bytes} (h : whole? input = some (digits, rest)) :
    rest.length < input.length := by
  unfold whole? at h
  split at h
  · cases h
  · cases h
  · rename_i hne _
    obtain ⟨-, rfl⟩ := Prod.mk.inj (Option.some.inj h)
    have hsum := congrArg List.length (List.takeWhile_append_dropWhile (p := isDigit) (l := input))
    have : (input.takeWhile isDigit).length ≠ 0 := by simpa using hne
    simp only [List.length_append] at hsum
    omega

theorem length_le_of_fraction? {input digits rest : Bytes}
    (h : fraction? input = some (digits, rest)) : rest.length ≤ input.length := by
  unfold fraction? at h
  split at h
  · split at h
    · cases h
    · obtain ⟨-, rfl⟩ := Prod.mk.inj (Option.some.inj h)
      exact Nat.le_succ_of_le (length_dropWhile_isDigit_le _)
  · obtain ⟨-, rfl⟩ := Prod.mk.inj (Option.some.inj h)
    exact Nat.le_refl _

theorem length_le_of_exponent? {input digits rest : Bytes}
    (h : exponent? input = some (digits, rest)) : rest.length ≤ input.length := by
  unfold exponent? at h
  split at h
  · obtain ⟨-, rfl⟩ := Prod.mk.inj (Option.some.inj h)
    exact Nat.le_refl _
  · split at h
    · split at h
      rename_i mark tail _ _ sign behind hsign
      have hbehind : behind.length ≤ tail.length := by
        split at hsign <;> obtain ⟨-, rfl⟩ := Prod.mk.inj hsign <;> simp
      split at h
      · cases h
      · obtain ⟨-, rfl⟩ := Prod.mk.inj (Option.some.inj h)
        have := length_dropWhile_isDigit_le behind
        simp only [List.length_cons]
        omega
    · obtain ⟨-, rfl⟩ := Prod.mk.inj (Option.some.inj h)
      exact Nat.le_refl _

theorem length_lt_of_numeral? {input rest : Bytes} {n : Numeral}
    (h : numeral? input = some (n, rest)) : rest.length < input.length := by
  simp only [numeral?, Option.bind_eq_bind, Option.bind_eq_some_iff, Prod.exists,
    Option.pure_def, Option.some.injEq, Prod.mk.injEq] at h
  obtain ⟨_, behindWhole, hw, _, behindFraction, hf, _, _, he, -, rfl⟩ := h
  have := length_minus_le input
  have := length_lt_of_whole? hw
  have := length_le_of_fraction? hf
  have := length_le_of_exponent? he
  omega

theorem length_lt_of_number? {care : Care} {input rest : Bytes} {v : Json}
    (h : number? care input = some (v, rest)) : rest.length < input.length := by
  simp only [number?] at h
  split at h
  · cases h
  · rename_i hn
    have := length_lt_of_numeral? hn
    split at h
    · grind
    · grind

/-! ## Values -/

/-- The value that holds no other at the start of the input. -/
def scalar? (care : Care) (input : Bytes) : Option (Json × Bytes) :=
  match input with
  | 0x22 :: rest => (textBody? care rest).map fun (t, rest) => (text t, rest)
  | 0x6e :: 0x75 :: 0x6c :: 0x6c :: rest => some (null, rest)
  | 0x74 :: 0x72 :: 0x75 :: 0x65 :: rest => some (bool true, rest)
  | 0x66 :: 0x61 :: 0x6c :: 0x73 :: 0x65 :: rest => some (bool false, rest)
  | _ => number? care input

theorem length_lt_of_scalar? {care : Care} {input rest : Bytes} {v : Json}
    (h : scalar? care input = some (v, rest)) : rest.length < input.length := by
  unfold scalar? at h
  split at h
  · obtain ⟨⟨_, _⟩, htext, heq⟩ := Option.map_eq_some_iff.1 h
    have := length_lt_of_textBody? htext
    obtain ⟨-, rfl⟩ := Prod.mk.inj heq
    simp only [List.length_cons]
    omega
  · grind
  · grind
  · grind
  · exact length_lt_of_number? h

/-- The input behind a colon. -/
def colon? (input : Bytes) : Option Bytes :=
  match skipSpace input with
  | 0x3a :: rest => some rest
  | _ => none

theorem length_lt_of_colon? {input rest : Bytes} (h : colon? input = some rest) :
    rest.length < input.length := by
  have := length_skipSpace_le input
  unfold colon? at h
  split at h <;> grind

/-- The name of a field and the colon behind it. -/
def fieldName? (care : Care) (input : Bytes) : Option (String × Bytes) :=
  match text?At care (skipSpace input) with
  | none => none
  | some (name, rest) => (colon? rest).map (name, ·)

theorem length_lt_of_fieldName? {care : Care} {input rest : Bytes} {name : String}
    (h : fieldName? care input = some (name, rest)) : rest.length < input.length := by
  have := length_skipSpace_le input
  simp only [fieldName?] at h
  split at h
  · cases h
  · rename_i htext
    have := length_lt_of_text?At htext
    obtain ⟨_, hcolon, heq⟩ := Option.map_eq_some_iff.1 h
    have := length_lt_of_colon? hcolon
    obtain ⟨-, rfl⟩ := Prod.mk.inj heq
    omega

/-- An array or an object of which the first part has been read; items and fields are held in
reverse. -/
inductive Partial where
  /-- The items so far. -/
  | array (items : List Json)
  /-- The fields so far, and the name of the field whose value comes next. -/
  | object (fields : List (String × Json)) (name : String)

mutual

/-- Reads a value inside the given open arrays and objects, and goes on to the end of the
outermost. -/
def value (care : Care) (stack : List Partial) (input : Bytes) : Option (Json × Bytes) :=
  match _hstart : skipSpace input with
  | 0x5b :: rest =>
    match _hnext : skipSpace rest with
    | 0x5d :: rest => resume care stack (.array []) rest
    | rest => value care (.array [] :: stack) rest
  | 0x7b :: rest =>
    match _hnext : skipSpace rest with
    | 0x7d :: rest => resume care stack (.object []) rest
    | rest =>
      match _hname : fieldName? care rest with
      | none => none
      | some (name, rest) => value care (.object [] name :: stack) rest
  | input =>
    match _hscalar : scalar? care input with
    | none => none
    | some (v, rest) => resume care stack v rest
termination_by input.length
decreasing_by
  all_goals grind [length_skipSpace_le, → length_lt_of_fieldName?, → length_lt_of_scalar?]

/-- Goes on behind a value that has been read inside the given open arrays and objects. -/
def resume (care : Care) (stack : List Partial) (v : Json) (input : Bytes) :
    Option (Json × Bytes) :=
  match stack with
  | [] => some (v, input)
  | .array items :: stack =>
    match _hnext : skipSpace input with
    | 0x2c :: rest => value care (.array (v :: items) :: stack) rest
    | 0x5d :: rest => resume care stack (.array (v :: items).reverse) rest
    | _ => none
  | .object fields name :: stack =>
    match _hnext : skipSpace input with
    | 0x2c :: rest =>
      match _hname : fieldName? care rest with
      | none => none
      | some (next, rest) => value care (.object ((name, v) :: fields) next :: stack) rest
    | 0x7d :: rest => resume care stack (.object ((name, v) :: fields).reverse) rest
    | _ => none
termination_by input.length
decreasing_by all_goals grind [length_skipSpace_le, → length_lt_of_fieldName?]

end

/-- By induction on a bound for the length of the input: the two functions call each other on
shorter input only. -/
theorem length_of_value_and_resume (care : Care) (n : Nat) :
    (∀ stack input v rest, input.length < n → value care stack input = some (v, rest) →
      rest.length < input.length) ∧
    (∀ stack w input v rest, input.length < n → resume care stack w input = some (v, rest) →
      rest.length ≤ input.length) := by
  induction n with
  | zero => exact ⟨fun _ _ _ _ h => absurd h (Nat.not_lt_zero _),
      fun _ _ _ _ _ h => absurd h (Nat.not_lt_zero _)⟩
  | succ n ih =>
    obtain ⟨ihValue, ihResume⟩ := ih
    constructor
    · intro stack input v rest hn h
      have hspace := length_skipSpace_le input
      rw [value] at h
      split at h
      · rename_i behind hstart
        have := length_skipSpace_le behind
        split at h
        · have := (ihResume _ _ _ _ _ · h)
          grind
        · have := (ihValue _ _ _ _ · h)
          grind
      · rename_i behind hstart
        have := length_skipSpace_le behind
        split at h
        · have := (ihResume _ _ _ _ _ · h)
          grind
        · split at h
          · cases h
          · have := (ihValue _ _ _ _ · h)
            grind [→ length_lt_of_fieldName?]
      · split at h
        · cases h
        · have := (ihResume _ _ _ _ _ · h)
          grind [→ length_lt_of_scalar?]
    · intro stack w input v rest hn h
      have hspace := length_skipSpace_le input
      rw [resume.eq_def] at h
      split at h
      · grind
      · split at h
        · have := (ihValue _ _ _ _ · h)
          grind
        · have := (ihResume _ _ _ _ _ · h)
          grind
        · cases h
      · split at h
        · split at h
          · cases h
          · have := (ihValue _ _ _ _ · h)
            grind [→ length_lt_of_fieldName?]
        · have := (ihResume _ _ _ _ _ · h)
          grind
        · cases h

theorem length_lt_of_value {care : Care} {stack : List Partial} {input rest : Bytes} {v : Json}
    (h : value care stack input = some (v, rest)) : rest.length < input.length :=
  (length_of_value_and_resume care (input.length + 1)).1 stack input v rest (Nat.lt_succ_self _) h

/-- The value that the bytes are written for, with nothing but space around it. -/
def parse? (input : Bytes) : Option Json :=
  match value .strict [] input with
  | none => none
  | some (v, rest) => if (skipSpace rest).isEmpty then some v else none

end MoveDesk.Json
