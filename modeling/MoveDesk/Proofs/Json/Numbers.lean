import MoveDesk.Json.Reader
import MoveDesk.Proofs.Lines
import MoveDesk.Proofs.Numerals

/-!
# Numbers in JSON

A natural number is written as its decimal digits. It is read back where the bytes behind it do not
go on with the number and it fits in 64 bits: beyond, it would be held as a literal. The parts of a
numeral are gone through in the order in which the reader takes them.

Headline:
* **`number?_toString`**: natural numbers of 64 bits are read back.
-/

namespace MoveDesk.Json

/-- The bytes do not go on with a number that stands before them. -/
def EndsNumber (rest : Bytes) : Prop :=
  ∀ b ∈ rest.head?, isDigit b = false ∧ b ≠ 0x2e ∧ b ≠ 0x65 ∧ b ≠ 0x45

/-! ## Digits -/

/-- The byte of a digit. -/
def digitByte (c : Char) : UInt8 := UInt8.ofNat c.toNat

theorem exists_digitChar {c : Char} (h : c.isDigit = true) : ∃ d < 10, c = Nat.digitChar d := by
  obtain ⟨hzero, hnine⟩ := Bool.and_eq_true_iff.mp h
  have hlow : 48 ≤ c.toNat := of_decide_eq_true hzero
  have hhigh : c.toNat ≤ 57 := of_decide_eq_true hnine
  have hall : ∀ d < 10, Char.ofNat (48 + d) = Nat.digitChar d := by decide
  refine ⟨c.toNat - 48, by omega, ?_⟩
  rw [← hall _ (by omega), Nat.add_sub_cancel' hlow, Char.ofNat_toNat]

theorem utf8EncodeChar_of_isDigit {c : Char} (h : c.isDigit = true) :
    String.utf8EncodeChar c = [digitByte c] := by
  obtain ⟨d, hd, rfl⟩ := exists_digitChar h
  revert d
  decide +kernel

theorem isDigit_digitByte {c : Char} (h : c.isDigit = true) : isDigit (digitByte c) = true := by
  obtain ⟨d, hd, rfl⟩ := exists_digitChar h
  revert d
  decide +kernel

theorem ofUInt8_digitByte {c : Char} (h : c.isDigit = true) : Char.ofUInt8 (digitByte c) = c := by
  obtain ⟨d, hd, rfl⟩ := exists_digitChar h
  revert d
  decide +kernel

/-- The digits of a number are the bytes of its numeral. -/
theorem encode_toString (n : Nat) :
    Text.encode (toString n) = (Nat.toDigits 10 n).map digitByte := by
  rw [Text.encode_eq_flatMap, SocketAddress.toList_toString, List.map_eq_flatMap]
  refine List.flatMap_congr fun c hc => ?_
  exact utf8EncodeChar_of_isDigit (Nat.isDigit_of_mem_toDigits (by decide) (Nat.le_refl 10) hc)

/-- A numeral starts with a digit. -/
theorem exists_digit_cons (n : Nat) :
    ∃ b more, Text.encode (toString n) = b :: more ∧ isDigit b = true := by
  have hne : Nat.toDigits 10 n ≠ [] := Nat.toDigits_ne_nil
  obtain ⟨c, others, hdigits⟩ := List.exists_cons_of_ne_nil hne
  have hmem : c ∈ Nat.toDigits 10 n := hdigits ▸ List.mem_cons_self
  refine ⟨digitByte c, others.map digitByte, ?_, isDigit_digitByte
    (Nat.isDigit_of_mem_toDigits (by decide) (Nat.le_refl 10) hmem)⟩
  rw [encode_toString, hdigits, List.map_cons]

/-- No numeral but that of zero starts with a zero. -/
theorem eq_zero_of_head?_toDigits {n : Nat} (h : (Nat.toDigits 10 n).head? = some '0') : n = 0 := by
  induction n using Nat.strongRecOn with
  | _ n ih =>
    by_cases hn : n < 10
    · have hall : ∀ d < 10, some (Nat.digitChar d) = some '0' → d = 0 := by decide
      rw [Nat.toDigits_of_lt_base hn] at h
      exact hall n hn h
    · rw [Nat.toDigits_of_base_le (by decide) (Nat.not_lt.mp hn),
        List.head?_append_of_ne_nil _ Nat.toDigits_ne_nil] at h
      have hfront := ih (n / 10) (by omega) h
      omega

/-! ## The parts of a numeral -/

section Parts

variable {rest : Bytes}

theorem takeWhile_isDigit (n : Nat) (h : EndsNumber rest) :
    (Text.encode (toString n) ++ rest).takeWhile isDigit = Text.encode (toString n) ∧
      (Text.encode (toString n) ++ rest).dropWhile isDigit = rest := by
  have hdigits : ∀ b ∈ Text.encode (toString n), isDigit b = true := by
    intro b hb
    rw [encode_toString] at hb
    obtain ⟨c, hc, rfl⟩ := List.mem_map.mp hb
    exact isDigit_digitByte (Nat.isDigit_of_mem_toDigits (by decide) (Nat.le_refl 10) hc)
  rw [List.takeWhile_append_of_pos hdigits, List.dropWhile_append_of_pos hdigits]
  cases rest with
  | nil => exact ⟨List.append_nil _, rfl⟩
  | cons b rest =>
    have hb := (h b rfl).1
    rw [List.takeWhile_cons_of_neg (by simp [hb]), List.dropWhile_cons_of_neg (by simp [hb])]
    exact ⟨List.append_nil _, rfl⟩

theorem whole?_toString (n : Nat) (h : EndsNumber rest) :
    whole? (Text.encode (toString n) ++ rest) = some (Text.encode (toString n), rest) := by
  obtain ⟨htake, hdrop⟩ := takeWhile_isDigit n h
  unfold whole?
  rw [htake, hdrop]
  split
  · next hnil =>
    rw [encode_toString] at hnil
    exact absurd (List.map_eq_nil_iff.mp hnil) Nat.toDigits_ne_nil
  · next second more hzero =>
    -- a zero with digits behind it would be a numeral of zero, which has no other digit
    rw [encode_toString] at hzero
    obtain ⟨c, others, hdigits, hc, hothers⟩ := List.map_eq_cons_iff.mp hzero
    have hdigit : c.isDigit = true := Nat.isDigit_of_mem_toDigits (by decide) (Nat.le_refl 10)
      (hdigits ▸ List.mem_cons_self)
    have hfirst : c = '0' := by
      rw [← ofUInt8_digitByte hdigit, hc]
      rfl
    have hn : n = 0 := eq_zero_of_head?_toDigits (by rw [hdigits, hfirst]; rfl)
    rw [hn] at hdigits
    obtain rfl : [] = others := (List.cons.inj hdigits).2
    cases hothers
  · rfl

theorem fraction?_of_endsNumber (h : EndsNumber rest) : fraction? rest = some ([], rest) := by
  unfold fraction?
  split
  · exact absurd rfl (h _ rfl).2.1
  · rfl

theorem exponent?_of_endsNumber (h : EndsNumber rest) : exponent? rest = some ([], rest) := by
  cases rest with
  | nil => rfl
  | cons b rest =>
    obtain ⟨-, -, hsmall, hlarge⟩ := h b rfl
    simp [exponent?, hsmall, hlarge]

theorem numeral?_toString (n : Nat) (h : EndsNumber rest) :
    numeral? (Text.encode (toString n) ++ rest) =
      some (⟨[], Text.encode (toString n), [], []⟩, rest) := by
  have hminus : minus (Text.encode (toString n) ++ rest) =
      ([], Text.encode (toString n) ++ rest) := by
    obtain ⟨b, more, hdigits, hdigit⟩ := exists_digit_cons n
    rw [hdigits, List.cons_append]
    unfold minus
    split
    · next heq =>
      rw [(List.cons.inj heq).1] at hdigit
      cases hdigit
    · rfl
  simp only [numeral?, hminus, whole?_toString n h, fraction?_of_endsNumber h,
    exponent?_of_endsNumber h, Option.bind_eq_bind, Option.bind_some, Option.pure_def]

end Parts

/-! ## The value of a numeral -/

namespace Numeral

/-- Digits are read to their end if their value fits in 64 bits. -/
theorem leading_eq_valueBehind {digits : List Char} (hdigits : ∀ c ∈ digits, c.isDigit = true)
    {n : Nat} (h : SocketAddress.valueBehind 10 n digits < UInt64.size) :
    leading n digits = (SocketAddress.valueBehind 10 n digits, []) := by
  induction digits generalizing n with
  | nil => rfl
  | cons c digits ih =>
    obtain ⟨hc, hdigits⟩ := List.forall_mem_cons.mp hdigits
    have hnext : 10 * n + (c.toNat - '0'.toNat) < UInt64.size := by
      rw [← Text.digitValue_ten hc]
      exact Nat.lt_of_le_of_lt (SocketAddress.le_valueBehind (by decide) digits _) h
    rw [leading]
    simp only [if_pos hnext]
    rw [← Text.digitValue_ten hc]
    exact ih hdigits h

theorem leading_toString {n : Nat} (h : n < UInt64.size) :
    leading 0 (chars (Text.encode (toString n))) = (n, []) := by
  have hdigits : ∀ c ∈ Nat.toDigits 10 n, c.isDigit = true := fun c =>
    Nat.isDigit_of_mem_toDigits (by decide) (Nat.le_refl 10)
  have hchars : chars (Text.encode (toString n)) = Nat.toDigits 10 n := by
    rw [encode_toString, chars, List.map_map]
    exact (List.map_congr_left fun c hc => ofUInt8_digitByte (hdigits c hc)).trans (List.map_id _)
  have hvalue := SocketAddress.valueBehind_toDigits n
  rw [hchars, leading_eq_valueBehind hdigits (hvalue.symm ▸ h), hvalue]

/-! ## Its range -/

theorem roundDiv_le (num den : Nat) : Binary64.roundDiv num den ≤ num / den + 1 := by
  unfold Binary64.roundDiv
  dsimp only
  split
  · omega
  · split <;> omega

/-- Rounding adds at most as much again. -/
theorem roundNat_le (n : Nat) : Binary64.roundNat n ≤ 2 * n := by
  by_cases hn : n = 0
  · subst hn
    decide
  · let unit := 2 ^ (n.log2 - 52)
    have hunit : unit ≤ n :=
      Nat.le_trans (Nat.pow_le_pow_right (by decide) (Nat.sub_le _ _)) (Nat.log2_self_le hn)
    calc Binary64.roundNat n
        = Binary64.roundDiv n unit * unit := rfl
      _ ≤ (n / unit + 1) * unit := Nat.mul_le_mul_right unit (roundDiv_le n unit)
      _ = n / unit * unit + unit := Nat.succ_mul _ _
      _ ≤ n + n := Nat.add_le_add (Nat.div_mul_le_self n unit) hunit
      _ = 2 * n := (Nat.two_mul n).symm

variable {n : Nat} {digits : Bytes}

/-- A natural number of 64 bits is far below the limit. -/
theorem isInRange_of_leading (hread : leading 0 (chars digits) = (n, [])) (h : n < UInt64.size) :
    isInRange ⟨[], digits, [], []⟩ = true := by
  have hparts : parts ⟨[], digits, [], []⟩ = (n, 0) := by
    rw [parts]
    simp only [hread]
    rfl
  have hpower : Binary64.roundNat (power 10 0) = 1 := by decide
  have hbound : Binary64.roundNat (Binary64.roundNat n * 1) < Nat.pow 2 1024 := by
    have hsize : 4 * UInt64.size = Nat.pow 2 66 := by decide
    have hlimit : ∀ bits, 66 ≤ bits → Nat.pow 2 66 ≤ Nat.pow 2 bits := fun _ =>
      Nat.pow_le_pow_right (by decide)
    have hlimit := hlimit 1024 (by decide)
    have hinner := roundNat_le n
    have houter := roundNat_le (Binary64.roundNat n * 1)
    omega
  have hexponent : decide ((0 : Int) ≤ 308) = true := rfl
  rw [isInRange, hparts]
  simp only [hpower, decide_eq_true hbound, hexponent, Bool.and_true, Bool.or_true]

/-- A natural number of 64 bits is held as an integer. -/
theorem json_of_leading (hread : leading 0 (chars digits) = (n, [])) :
    json ⟨[], digits, [], []⟩ = .int n := by
  have hmin : Int64.minValue.toInt ≤ (n : Int) :=
    Int.le_trans (by decide) (Int.natCast_nonneg n)
  rw [json]
  simp only [hread, List.isEmpty_nil, if_true, Bool.and_true, Bool.true_or, decide_eq_true hmin]

end Numeral

/-- What starts with a digit is read as a number. -/
theorem scalar?_of_isDigit {b : UInt8} (h : isDigit b = true) (care : Care) (rest : Bytes) :
    scalar? care (b :: rest) = number? care (b :: rest) := by
  unfold scalar?
  split
  -- a quote, and the first letters of the three words
  · next heq => cases (List.cons.inj heq).1 ▸ h
  · next heq => cases (List.cons.inj heq).1 ▸ h
  · next heq => cases (List.cons.inj heq).1 ▸ h
  · next heq => cases (List.cons.inj heq).1 ▸ h
  · rfl

/-- **Natural numbers of 64 bits** are read back. -/
theorem number?_toString {n : Nat} (h : n < UInt64.size) {rest : Bytes} (hrest : EndsNumber rest) :
    number? .strict (Text.encode (toString n) ++ rest) = some (.int n, rest) := by
  rw [number?, numeral?_toString n hrest]
  simp only [Numeral.isInRange_of_leading (Numeral.leading_toString h) h, if_true,
    Numeral.json_of_leading (Numeral.leading_toString h)]

end MoveDesk.Json
