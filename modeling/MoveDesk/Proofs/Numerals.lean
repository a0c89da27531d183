import Mathlib.Data.List.Basic
import MoveDesk.Proofs.Declarations
import MoveDesk.SocketAddress

/-!
# Numerals are read back

A number is read digit by digit, as long as there are digits. So a numeral is read back, whatever
stands behind it, if only that is no digit.

Headlines:
* **`number?_append`**: a run of digits is read as its value.
* **`number?_toString`**, **`octet?_toString`**, **`group?_groupText`**: numerals are read back.
-/

namespace MoveDesk

/-! ## Digits -/

namespace Text

/-- The character is a digit of the base. -/
def isDigitOf (base : Nat) (c : Char) : Bool := (digit? base c).isSome

/-- The value of a digit of the base. -/
def digitValue (base : Nat) (c : Char) : Nat := (digit? base c).getD 0

theorem digit?_of_isDigit {base : Nat} (hbase : 10 ≤ base) {c : Char} (h : c.isDigit = true) :
    digit? base c = some (c.toNat - '0'.toNat) := by
  have hvalue : hexValue? c = some (c.toNat - '0'.toNat) := if_pos h
  have hnine : c.toNat ≤ '9'.toNat := of_decide_eq_true (Bool.and_eq_true_iff.mp h).2
  have hlt : c.toNat - '0'.toNat < base := by
    have h09 : '9'.toNat = '0'.toNat + 9 := rfl
    omega
  rw [digit?, hvalue, Option.filter_some, if_pos (decide_eq_true hlt)]

theorem isDigitOf_ten (c : Char) : isDigitOf 10 c = c.isDigit := by
  rw [isDigitOf]
  by_cases h : c.isDigit = true
  · rw [digit?_of_isDigit (Nat.le_refl 10) h, h]
    rfl
  · -- the value of a letter is too large
    have hnone : digit? 10 c = none := by
      rw [digit?, hexValue?, if_neg (show ¬ ('0' ≤ c && c ≤ '9') = true from h)]
      split
      · simp
      · split <;> simp
    rw [hnone, Bool.eq_false_iff.mpr h]
    rfl

theorem digitValue_ten {c : Char} (h : c.isDigit = true) :
    digitValue 10 c = c.toNat - '0'.toNat := by
  rw [digitValue, digit?_of_isDigit (Nat.le_refl 10) h, Option.getD_some]

/-- A decimal digit is a hexadecimal one. -/
theorem isDigit_eq_false {c : Char} (h : isDigitOf 16 c = false) : c.isDigit = false := by
  refine Bool.eq_false_iff.mpr fun hdigit => ?_
  rw [isDigitOf, digit?_of_isDigit (by decide) hdigit] at h
  cases h

theorem digit?_hexDigit {n : Nat} (h : n < 16) : digit? 16 (hexDigit n) = some n := by
  rw [digit?, hexValue?_hexDigit h, Option.filter_some, if_pos (decide_eq_true h)]

/-! ## Texts that do not go on -/

variable {p : Char → Bool} {text : List Char}

theorem takeWhile_eq_nil (h : ∀ c ∈ text.head?, p c = false) : text.takeWhile p = [] := by
  cases text with
  | nil => rfl
  | cons c text => rw [List.takeWhile_cons, h c rfl]; rfl

theorem dropWhile_eq_self (h : ∀ c ∈ text.head?, p c = false) : text.dropWhile p = text := by
  cases text with
  | nil => rfl
  | cons c text => rw [List.dropWhile_cons, h c rfl]; rfl

end Text

namespace SocketAddress

open Text (digit? isDigitOf digitValue hexDigit IsRun)

/-! ## Numbers -/

/-- The value of digits behind a number. -/
def valueBehind (base : Nat) (n : Nat) (digits : List Char) : Nat :=
  digits.foldl (fun n c => base * n + digitValue base c) n

theorem le_valueBehind {base : Nat} (hbase : 0 < base) (digits : List Char) (n : Nat) :
    n ≤ valueBehind base n digits := by
  induction digits generalizing n with
  | nil => exact Nat.le_refl n
  | cons c digits ih =>
    calc n ≤ base * n := Nat.le_mul_of_pos_left n hbase
      _ ≤ base * n + digitValue base c := Nat.le_add_right _ _
      _ ≤ valueBehind base n (c :: digits) := ih _

/-- Digits can be read if their value is below the bound: then so is that of their beginnings. -/
theorem foldlM_eq_valueBehind {base bound : Nat} (hbase : 0 < base) {digits : List Char} {n : Nat}
    (h : valueBehind base n digits < bound) :
    digits.foldlM (fun n c =>
      let n := base * n + digitValue base c
      if n < bound then some n else none) n = some (valueBehind base n digits) := by
  induction digits generalizing n with
  | nil => rfl
  | cons c digits ih =>
    have hfirst : base * n + digitValue base c < bound :=
      Nat.lt_of_le_of_lt (le_valueBehind hbase digits _) h
    rw [List.foldlM_cons]
    dsimp only
    rw [if_pos hfirst]
    exact ih h

/-- **A run of digits** is read as its value, if that is below the bound. -/
theorem number?_append {base bound : Nat} (hbase : 0 < base) {digits rest : List Char}
    (hrun : IsRun (isDigitOf base) digits rest) (h : valueBehind base 0 digits < bound) :
    number? base bound (digits ++ rest) = some (valueBehind base 0 digits, rest) := by
  have htake : (digits ++ rest).takeWhile (fun c => (digit? base c).isSome) = digits :=
    hrun.takeWhile_eq
  have hread := foldlM_eq_valueBehind hbase h
  rw [number?, htake, List.isEmpty_eq_false_iff.mpr hrun.ne_nil, List.drop_left]
  dsimp only [digitValue] at hread ⊢
  rw [hread]
  rfl

/-- What stands behind a number is what stands behind its digits. -/
theorem rest_of_number? {base bound n : Nat} {text rest : List Char}
    (h : number? base bound text = some (n, rest)) : rest = text.dropWhile (isDigitOf base) := by
  rw [number?] at h
  dsimp only at h
  split at h
  · cases h
  · obtain ⟨value, -, h⟩ := Option.bind_eq_some_iff.mp h
    cases h
    exact Text.drop_length_takeWhile _ _

theorem number?_eq_none {base bound : Nat} {text : List Char}
    (h : ∀ c ∈ text.head?, isDigitOf base c = false) : number? base bound text = none := by
  have htake : text.takeWhile (fun c => (digit? base c).isSome) = [] := Text.takeWhile_eq_nil h
  rw [number?, htake]
  rfl

/-! ## Decimal numerals -/

theorem toList_toString (n : Nat) : (toString n).toList = Nat.toDigits 10 n := by
  rw [Nat.toString_eq_ofList_toDigits, String.toList_ofList]

theorem valueBehind_toDigits (n : Nat) : valueBehind 10 0 (Nat.toDigits 10 n) = n := by
  have hcongr : valueBehind 10 0 (Nat.toDigits 10 n) =
      Nat.ofDigitChars 10 (Nat.toDigits 10 n) 0 := by
    rw [Nat.ofDigitChars_eq_foldl]
    refine List.foldl_ext _ _ _ fun value c hc => ?_
    rw [Text.digitValue_ten (Nat.isDigit_of_mem_toDigits (by decide) (Nat.le_refl 10) hc)]
  rw [hcongr, Nat.ofDigitChars_ten_toDigits]

/-- A decimal numeral ends where there is no digit. -/
theorem isRun_toString (n : Nat) {rest : List Char} (h : ∀ c ∈ rest.head?, c.isDigit = false) :
    IsRun Char.isDigit (toString n).toList rest where
  ne_nil := by
    rw [toList_toString]
    exact Nat.toDigits_ne_nil
  all c hc := by
    rw [toList_toString] at hc
    exact Nat.isDigit_of_mem_toDigits (by decide) (Nat.le_refl 10) hc
  stops := h

/-- **Decimal numerals** are read back. -/
theorem number?_toString {n bound : Nat} (hbound : n < bound) {rest : List Char}
    (h : ∀ c ∈ rest.head?, c.isDigit = false) :
    number? 10 bound ((toString n).toList ++ rest) = some (n, rest) := by
  have hrun := isRun_toString n h
  rw [← funext Text.isDigitOf_ten] at hrun
  have hvalue : valueBehind 10 0 (toString n).toList = n := by
    rw [toList_toString, valueBehind_toDigits]
  rw [number?_append (by decide) hrun (hvalue.symm ▸ hbound), hvalue]

/-- **Octets** are read back. -/
theorem octet?_toString (octet : UInt8) {rest : List Char}
    (h : ∀ c ∈ rest.head?, c.isDigit = false) :
    octet? ((toString octet.toNat).toList ++ rest) = some (octet, rest) := by
  have hlead : ∀ n < UInt8.size, (Nat.toDigits 10 n).head? = some '0' →
      (Nat.toDigits 10 n).length = 1 := by
    decide +kernel
  have hfirst := hlead _ octet.toNat_lt
  rw [← toList_toString] at hfirst
  rw [octet?, (isRun_toString _ h).takeWhile_eq, number?_toString octet.toNat_lt h]
  split
  · next heq =>
    rw [heq] at hfirst
    cases hfirst rfl
  · simp

theorem rest_of_octet? {octet : UInt8} {text rest : List Char}
    (h : octet? text = some (octet, rest)) : rest = text.dropWhile Char.isDigit := by
  rw [octet?] at h
  split at h
  · cases h
  · obtain ⟨⟨n, _⟩, hnumber, heq⟩ := Option.map_eq_some_iff.mp h
    cases heq
    rw [rest_of_number? hnumber, funext Text.isDigitOf_ten]

/-! ## Hexadecimal numerals -/

theorem valueBehind_hexDigits {digits : List Nat} (h : ∀ d ∈ digits, d < 16) (n : Nat) :
    valueBehind 16 n (digits.map hexDigit) = digits.foldl (fun n d => 16 * n + d) n := by
  rw [valueBehind, List.foldl_map]
  refine List.foldl_ext _ _ _ fun value d hd => ?_
  rw [digitValue, Text.digit?_hexDigit (h d hd), Option.getD_some]

/-- Zeros at the start make no difference. -/
theorem foldl_dropWhile_zero (digits more : List Nat) :
    (digits.dropWhile (· = 0) ++ more).foldl (fun n d => 16 * n + d) 0 =
      (digits ++ more).foldl (fun n d => 16 * n + d) 0 := by
  induction digits with
  | nil => rfl
  | cons d digits ih =>
    by_cases hd : d = 0
    · subst hd
      exact ih
    · rw [List.dropWhile_cons_of_neg (by simpa using hd)]

/-- The digits that a group is written with. -/
theorem exists_groupText (group : UInt16) :
    ∃ digits : List Nat, (groupText group).toList = digits.map hexDigit ∧ digits ≠ [] ∧
      digits.length ≤ 4 ∧ (∀ d ∈ digits, d < 16) ∧
      digits.foldl (fun n d => 16 * n + d) 0 = group.toNat := by
  have hgroup : group.toNat < 0x10000 := group.toNat_lt
  have hall : ∀ d ∈ [group.toNat / 0x1000, group.toNat / 0x100 % 16, group.toNat / 0x10 % 16] ++
      [group.toNat % 16], d < 16 := by
    simp only [List.mem_append, List.mem_cons, List.not_mem_nil, or_false]
    rintro d ((rfl | rfl | rfl) | rfl) <;> omega
  refine ⟨_, String.toList_ofList, ?_, ?_, fun d hd => hall d ?_, ?_⟩
  · simp
  · have hle := (List.dropWhile_sublist (· = 0)
      (l := [group.toNat / 0x1000, group.toNat / 0x100 % 16, group.toNat / 0x10 % 16])).length_le
    rw [List.length_append]
    exact Nat.add_le_add hle (Nat.le_refl 1)
  · exact List.mem_append.mpr ((List.mem_append.mp hd).imp_left
      fun hmem => (List.dropWhile_sublist _).subset hmem)
  · rw [foldl_dropWhile_zero]
    simp only [List.take, List.drop, List.cons_append, List.nil_append, List.foldl_cons,
      List.foldl_nil]
    omega

/-- A group ends where there is no digit. -/
theorem isRun_groupText (group : UInt16) {rest : List Char}
    (h : ∀ c ∈ rest.head?, isDigitOf 16 c = false) :
    IsRun (isDigitOf 16) (groupText group).toList rest := by
  obtain ⟨digits, htext, hne, -, hall, -⟩ := exists_groupText group
  refine ⟨?_, fun c hc => ?_, h⟩
  · rw [htext]
    exact mt List.map_eq_nil_iff.mp hne
  · rw [htext] at hc
    obtain ⟨d, hd, rfl⟩ := List.mem_map.mp hc
    rw [isDigitOf, Text.digit?_hexDigit (hall d hd)]
    rfl

/-- **Groups** are read back. -/
theorem group?_groupText (group : UInt16) {rest : List Char}
    (h : ∀ c ∈ rest.head?, isDigitOf 16 c = false) :
    group? ((groupText group).toList ++ rest) = some (group, rest) := by
  have hrun := isRun_groupText group h
  obtain ⟨digits, htext, -, hlength, hall, hvalue⟩ := exists_groupText group
  have htake : ((groupText group).toList ++ rest).takeWhile (fun c => (digit? 16 c).isSome) =
      (groupText group).toList := hrun.takeWhile_eq
  have hshort : ¬ 4 < (groupText group).toList.length := by
    rw [htext, List.length_map]
    exact Nat.not_lt.mpr hlength
  have hgroup : valueBehind 16 0 (groupText group).toList = group.toNat := by
    rw [htext, valueBehind_hexDigits hall, hvalue]
  rw [group?, htake]
  dsimp only
  rw [if_neg hshort, number?_append (by decide) hrun (hgroup.symm ▸ group.toNat_lt), hgroup]
  simp

theorem group?_eq_none {text : List Char} (h : ∀ c ∈ text.head?, isDigitOf 16 c = false) :
    group? text = none := by
  rw [group?, number?_eq_none h]
  simp

end SocketAddress

end MoveDesk
