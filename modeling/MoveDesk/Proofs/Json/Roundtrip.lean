import MoveDesk.Proofs.Json.Numbers
import MoveDesk.Proofs.Json.Values
import MoveDesk.Report

/-!
# Values that are written are read back

A value that is written with one item a line is read back whole, if what stands behind it is not
read as more of a number. The numbers in it have to be natural ones of 64 bits: a literal that the
reader keeps as it is written could be any text.

Headlines:
* **`parse?_pretty`**: a document is read back.
* **`parse?_write_json`**: so is a report.
-/

namespace MoveDesk.Json

/-! ## Values that are written exactly -/

mutual

/-- The numbers in the value are natural ones of 64 bits. -/
def isExact : Json → Bool
  | int value => 0 ≤ value && value < UInt64.size
  | real _ => false
  | array items => areExact items
  | object fields => haveExact fields
  | null | bool _ | text _ => true

/-- The numbers in the items are natural ones of 64 bits. -/
def areExact : List Json → Bool
  | [] => true
  | item :: rest => isExact item && areExact rest

/-- The numbers in the fields are natural ones of 64 bits. -/
def haveExact : List (String × Json) → Bool
  | [] => true
  | (_, value) :: rest => isExact value && haveExact rest

end

theorem isExact_nat {n : Nat} (h : n < UInt64.size) : isExact (.int n) = true := by
  have hnonneg : (0 : Int) ≤ n := Int.natCast_nonneg n
  rw [isExact, decide_eq_true hnonneg, decide_eq_true (Int.ofNat_lt.mpr h), Bool.and_self]

theorem areExact_texts (texts : List String) : areExact (texts.map .text) = true := by
  induction texts with
  | nil => rfl
  | cons text texts ih => exact ih

/-! ## Space -/

variable {care : Care} {input behind rest : Bytes}

theorem skipSpace_append {space : Bytes} (h : ∀ b ∈ space, isSpace b = true) (input : Bytes) :
    skipSpace (space ++ input) = skipSpace input :=
  List.dropWhile_append_of_pos h

/-- Space before a value does not count. -/
theorem value_skipSpace (care : Care) (input : Bytes) :
    value care [] (skipSpace input) = value care [] input := by
  rw [value_eq, value_eq, start?, start?, skipSpace_skipSpace]

theorem elements_skipSpace_iff {items : List Json} :
    Elements care (skipSpace input) items rest ↔ Elements care input items rest := by
  constructor
  · intro h
    cases h with
    | last hvalue hclose => exact .last (value_skipSpace care input ▸ hvalue) hclose
    | more hvalue hcomma hrest => exact .more (value_skipSpace care input ▸ hvalue) hcomma hrest
  · intro h
    cases h with
    | last hvalue hclose => exact .last ((value_skipSpace care input).trans hvalue) hclose
    | more hvalue hcomma hrest =>
      exact .more ((value_skipSpace care input).trans hvalue) hcomma hrest

/-- No value starts with a closing bracket. -/
theorem value_closing (care : Care) (h : skipSpace input = 0x5d :: rest) :
    value care [] input = none := by
  rw [value_eq, start?, h]
  rfl

theorem value_of_elements {inside : Bytes} {items : List Json}
    (hinput : skipSpace input = 0x5b :: inside) (h : Elements care inside items rest) :
    value care [] input = some (.array items, rest) := by
  have hopen : ∀ after, skipSpace inside ≠ 0x5d :: after := by
    intro after hclose
    have hnone := value_closing care hclose
    cases h with
    | last hvalue _ => exact absurd (hnone.symm.trans hvalue) nofun
    | more hvalue _ _ => exact absurd (hnone.symm.trans hvalue) nofun
  rw [value_eq, start?, hinput]
  simp only
  exact value_array_iff.mpr ⟨items, rfl, elements_skipSpace_iff.mpr h⟩

theorem endsNumber_of_isSpace {b : UInt8} (h : isSpace b = true) (rest : Bytes) :
    EndsNumber (b :: rest) := by
  simp only [isSpace, Bool.or_eq_true, beq_iff_eq] at h
  rintro _ ⟨⟩
  rcases h with ((rfl | rfl) | rfl) | rfl <;> decide

theorem endsNumber_comma (rest : Bytes) : EndsNumber (0x2c :: rest) := by
  rintro _ ⟨⟩
  decide

/-! ## What is written -/

/-- Written parts, one a line. -/
def lined (depth : Nat) (parts : List String) : String :=
  ",\n".intercalate (parts.map (indent depth ++ ·))

theorem encode_indent (depth : Nat) : ∀ b ∈ Text.encode (indent depth), isSpace b = true := by
  intro b hb
  rw [indent, Text.encode_eq_flatMap, String.toList_ofList] at hb
  obtain ⟨c, hc, hb⟩ := List.mem_flatMap.mp hb
  have hblank : String.utf8EncodeChar ' ' = [0x20] := rfl
  rw [List.eq_of_mem_replicate hc, hblank] at hb
  rw [List.mem_singleton.mp hb]
  rfl

/-- A block with parts, from its opening on. -/
theorem encode_block {opening closing : String} {depth : Nat} {part : String}
    {parts : List String} (rest : Bytes) :
    Text.encode (block opening closing depth (part :: parts)) ++ rest =
      Text.encode opening ++ 0x0a :: (Text.encode (lined (depth + 1) (part :: parts)) ++
        0x0a :: (Text.encode (indent depth) ++ (Text.encode closing ++ rest))) := by
  rw [block, if_neg (by simp)]
  simp only [Text.encode_append, Text.encode_newline, List.append_assoc, List.singleton_append]
  rfl

theorem encode_lined_cons (depth : Nat) (part next : String) (parts : List String) :
    Text.encode (lined depth (part :: next :: parts)) =
      Text.encode (indent depth) ++ (Text.encode part ++
        0x2c :: 0x0a :: Text.encode (lined depth (next :: parts))) := by
  have hcomma : Text.encode ",\n" = [0x2c, 0x0a] := by decide +kernel
  rw [lined, List.map_cons, List.map_cons, String.intercalate_cons_cons, ← List.map_cons]
  simp only [Text.encode_append, hcomma, List.append_assoc, List.cons_append, List.nil_append]
  rfl

theorem encode_lined_singleton (depth : Nat) (part : String) :
    Text.encode (lined depth [part]) = Text.encode (indent depth) ++ Text.encode part :=
  Text.encode_append (indent depth) part

/-- A field is read up to its colon. -/
theorem fieldName?_quote (depth : Nat) (name : String) (rest : Bytes) :
    fieldName? .strict (Text.encode (indent depth) ++
        (Text.encode (quote name) ++ 0x3a :: 0x20 :: rest)) = some (name, 0x20 :: rest) := by
  have hquote : skipSpace (Text.encode (quote name) ++ 0x3a :: 0x20 :: rest) =
      Text.encode (quote name) ++ 0x3a :: 0x20 :: rest := by
    rw [encode_quote, List.cons_append]
    exact skipSpace_eq_self (by decide) _
  rw [fieldName?, skipSpace_append (encode_indent depth), hquote, text?At_quote]
  rfl

/-- What starts with no bracket holds no other value. -/
theorem value_eq_scalar? {b : UInt8} (hspace : isSpace b = false) (harray : b ≠ 0x5b)
    (hobject : b ≠ 0x7b) (tail : Bytes) :
    value care [] (b :: tail) = scalar? care (b :: tail) := by
  rw [value_eq, start?, skipSpace_eq_self hspace]
  split
  · exact absurd (List.cons.inj ‹_›).1 harray
  · exact absurd (List.cons.inj ‹_›).1 hobject
  · cases scalar? care (b :: tail) with
    | none => rfl
    | some found => exact resume_nil care found.1 found.2

theorem value_text (t : String) (rest : Bytes) :
    value .strict [] (Text.encode (quote t) ++ rest) = some (.text t, rest) := by
  have htext := text?At_quote t rest
  rw [encode_quote, List.cons_append] at htext ⊢
  rw [text?At] at htext
  rw [value_eq_scalar? (by decide) (by decide) (by decide), scalar?, htext]
  rfl

/-- A value that is written as a word is read back. -/
theorem value_scalar (v : Json) (hv : v = .null ∨ v = .bool true ∨ v = .bool false) (rest : Bytes) :
    value .strict [] (Text.encode v.scalar ++ rest) = some (v, rest) := by
  have hnull : Text.encode "null" = [0x6e, 0x75, 0x6c, 0x6c] := by decide +kernel
  have htrue : Text.encode "true" = [0x74, 0x72, 0x75, 0x65] := by decide +kernel
  have hfalse : Text.encode "false" = [0x66, 0x61, 0x6c, 0x73, 0x65] := by decide +kernel
  rcases hv with rfl | rfl | rfl
  · rw [scalar, hnull]
    exact value_eq_scalar? (by decide) (by decide) (by decide) _
  · rw [scalar, if_pos rfl, htrue]
    exact value_eq_scalar? (by decide) (by decide) (by decide) _
  · rw [scalar, if_neg Bool.false_ne_true, hfalse]
    exact value_eq_scalar? (by decide) (by decide) (by decide) _

/-- A natural number of 64 bits is read back. -/
theorem value_int {n : Int} (h : isExact (.int n) = true) {rest : Bytes}
    (hrest : EndsNumber rest) :
    value .strict [] (Text.encode (int n).scalar ++ rest) = some (.int n, rest) := by
  obtain ⟨hnonneg, hlt⟩ := Bool.and_eq_true_iff.mp h
  obtain ⟨n, rfl⟩ := Int.eq_ofNat_of_zero_le (of_decide_eq_true hnonneg)
  have hread := number?_toString (Int.ofNat_lt.mp (of_decide_eq_true hlt)) hrest
  obtain ⟨b, more, hdigits, hdigit⟩ := exists_digit_cons n
  have hne : ∀ other, isDigit other = false → b ≠ other := by
    rintro _ hother rfl
    rw [hdigit] at hother
    cases hother
  have hspace : isSpace b = false := by
    simp only [isSpace, Bool.or_eq_false_iff, beq_eq_false_iff_ne]
    exact ⟨⟨⟨hne _ rfl, hne _ rfl⟩, hne _ rfl⟩, hne _ rfl⟩
  change value .strict [] (Text.encode (toString n) ++ rest) = _
  rw [hdigits, List.cons_append] at hread ⊢
  rw [value_eq_scalar? hspace (hne _ rfl) (hne _ rfl), scalar?_of_isDigit hdigit]
  exact hread

theorem encode_field (name written : String) :
    Text.encode (quote name ++ ": " ++ written) =
      Text.encode (quote name) ++ 0x3a :: 0x20 :: Text.encode written := by
  have hcolon : Text.encode ": " = [0x3a, 0x20] := by decide +kernel
  simp only [Text.encode_append, hcolon, List.append_assoc, List.cons_append, List.nil_append]

/-! ## Reading it -/

theorem skipSpace_newline (input : Bytes) : skipSpace (0x0a :: input) = skipSpace input :=
  skipSpace_append (List.forall_mem_singleton.mpr rfl) input

/-- What stands behind the last part of a block. -/
theorem skipSpace_behind_block {b : UInt8} {closing : String} (hb : isSpace b = false)
    (hclosing : Text.encode closing = [b]) (depth : Nat) (rest : Bytes) :
    skipSpace (0x0a :: (Text.encode (indent depth) ++ (Text.encode closing ++ rest))) =
      b :: rest := by
  rw [skipSpace_newline, skipSpace_append (encode_indent depth), hclosing, List.singleton_append,
    skipSpace_eq_self hb]

mutual

/-- **A value is read back**, whatever else than more of a number stands behind it. -/
theorem value_prettyAt (v : Json) (h : v.isExact = true) (depth : Nat) {rest : Bytes}
    (hrest : EndsNumber rest) :
    value .strict [] (Text.encode (prettyAt depth v) ++ rest) = some (v, rest) := by
  have hbracket : Text.encode "[" = [0x5b] ∧ Text.encode "]" = [0x5d] := by decide +kernel
  have hbrace : Text.encode "\x7b" = [0x7b] ∧ Text.encode "\x7d" = [0x7d] := by decide +kernel
  match v with
  | null => exact value_scalar _ (Or.inl rfl) rest
  | bool true => exact value_scalar _ (Or.inr (Or.inl rfl)) rest
  | bool false => exact value_scalar _ (Or.inr (Or.inr rfl)) rest
  | text t => exact value_text t rest
  | int _ => exact value_int h hrest
  | real _ => cases h
  | array [] =>
    rw [prettyAt, prettyItems, block, if_pos List.isEmpty_nil, Text.encode_append, hbracket.1,
      hbracket.2]
    exact (value_eq .strict [] _).trans (resume_nil _ _ _)
  | array (item :: items) =>
    rw [prettyAt, prettyItems, encode_block, hbracket.1, List.singleton_append]
    refine value_of_elements (skipSpace_eq_self (by decide) _) ?_
    rw [← elements_skipSpace_iff, skipSpace_newline, elements_skipSpace_iff]
    exact elements_lined item items h (depth + 1) (endsNumber_of_isSpace rfl _)
      (skipSpace_behind_block (by decide) hbracket.2 depth rest)
  | object [] =>
    rw [prettyAt, prettyFields, block, if_pos List.isEmpty_nil, Text.encode_append, hbrace.1,
      hbrace.2]
    exact (value_eq .strict [] _).trans (resume_nil _ _ _)
  | object ((name, v) :: fields) =>
    rw [prettyAt, prettyFields, encode_block, hbrace.1, List.singleton_append]
    refine value_of_fields (skipSpace_eq_self (by decide) _) (.some ?_)
    rw [← members_skipSpace_iff, skipSpace_newline, members_skipSpace_iff]
    exact members_lined name v fields h (depth + 1) (endsNumber_of_isSpace rfl _)
      (skipSpace_behind_block (by decide) hbrace.2 depth rest)
termination_by sizeOf v

/-- The items of an array, one a line. -/
theorem elements_lined (item : Json) (items : List Json) (h : areExact (item :: items) = true)
    (depth : Nat) {behind rest : Bytes} (hbehind : EndsNumber behind)
    (hclose : skipSpace behind = 0x5d :: rest) :
    Elements .strict
      (Text.encode (lined depth (prettyAt depth item :: prettyItems depth items)) ++ behind)
      (item :: items) rest := by
  obtain ⟨hitem, hitems⟩ := Bool.and_eq_true_iff.mp h
  have hvalue : ∀ more, EndsNumber more → value .strict []
      (Text.encode (indent depth) ++ (Text.encode (prettyAt depth item) ++ more)) =
        some (item, more) := by
    intro more hmore
    rw [← value_skipSpace, skipSpace_append (encode_indent depth), value_skipSpace]
    exact value_prettyAt item hitem depth hmore
  match items with
  | [] =>
    rw [prettyItems, encode_lined_singleton, List.append_assoc]
    exact .last (hvalue behind hbehind) hclose
  | next :: items =>
    rw [prettyItems, encode_lined_cons]
    simp only [List.append_assoc, List.cons_append]
    refine .more (hvalue _ (endsNumber_comma _)) (skipSpace_eq_self (by decide) _) ?_
    rw [← elements_skipSpace_iff, skipSpace_newline, elements_skipSpace_iff]
    exact elements_lined next items hitems depth hbehind hclose
termination_by sizeOf (item :: items)

/-- The fields of an object, one a line. -/
theorem members_lined (name : String) (v : Json) (fields : List (String × Json))
    (h : haveExact ((name, v) :: fields) = true) (depth : Nat) {behind rest : Bytes}
    (hbehind : EndsNumber behind) (hclose : skipSpace behind = 0x7d :: rest) :
    Members .strict
      (Text.encode (lined depth
        ((quote name ++ ": " ++ prettyAt depth v) :: prettyFields depth fields)) ++ behind)
      ((name, v) :: fields) rest := by
  obtain ⟨hv, hfields⟩ := Bool.and_eq_true_iff.mp h
  have hvalue : ∀ more, EndsNumber more →
      value .strict [] (0x20 :: (Text.encode (prettyAt depth v) ++ more)) = some (v, more) := by
    intro more hmore
    rw [← value_skipSpace, ← List.singleton_append,
      skipSpace_append (List.forall_mem_singleton.mpr rfl), value_skipSpace]
    exact value_prettyAt v hv depth hmore
  match fields with
  | [] =>
    rw [prettyFields, encode_lined_singleton, encode_field, List.append_assoc, List.append_assoc]
    exact .last (fieldName?_quote depth name _) (hvalue behind hbehind) hclose
  | (next, w) :: fields =>
    rw [prettyFields, encode_lined_cons, encode_field]
    simp only [List.append_assoc, List.cons_append]
    refine .more (fieldName?_quote depth name _) (hvalue _ (endsNumber_comma _))
      (skipSpace_eq_self (by decide) _) ?_
    rw [← members_skipSpace_iff, skipSpace_newline, members_skipSpace_iff]
    exact members_lined next w fields hfields depth hbehind hclose
termination_by sizeOf ((name, v) :: fields)

end

/-- **A document is read back**, with space behind it. -/
theorem parse?_pretty {v : Json} (h : v.isExact = true) {space : Bytes}
    (hspace : ∀ b ∈ space, isSpace b = true) :
    parse? (Text.encode v.pretty ++ space) = some v := by
  have hrest : skipSpace space = [] := by
    have hskip := skipSpace_append hspace []
    rwa [List.append_nil] at hskip
  have hends : EndsNumber space := by
    cases space with
    | nil => exact nofun
    | cons b space => exact endsNumber_of_isSpace (hspace b List.mem_cons_self) space
  rw [parse?, pretty, value_prettyAt v h 0 hends]
  simp only [hrest]
  rfl

end MoveDesk.Json

namespace MoveDesk

/-- **A report is read back** as its data. -/
theorem Report.parse?_write_json {report : Report} (h : report.data.isExact = true)
    (colors : Bool) : Json.parse? (Text.encode (report.write .json colors)) = some report.data := by
  rw [write, Text.encode_append_newline]
  exact Json.parse?_pretty h (List.forall_mem_singleton.mpr rfl)

end MoveDesk
