import MoveDesk.Proofs.Find
import MoveDesk.Proofs.Lines
import MoveDesk.Text.Slice

/-!
# Slices between characters

The bytes of a text are those of its characters, one behind the other. The first byte of a character
tells itself from the others, so that the boundaries in the bytes are the places between characters,
and a search in the bytes finds what a search in the text finds.

Headlines:
* **`isBoundary_bytesOf_iff`**: boundaries are the places between characters.
* **`offset?_bytesOf`**: the search in bytes is the search in characters.
* **`runSize_bytesOf`**: so is the longest run of characters of a class.
* **`yields_slice`**: what stands between two places of a text can be cut out.
-/

namespace MoveDesk.Text

/-! ## The bytes of characters -/

/-- The bytes of the characters. -/
def bytesOf (text : List Char) : Bytes := text.flatMap String.utf8EncodeChar

variable {a b needle text : List Char} {c : Char}

theorem encode_eq_bytesOf (text : String) : encode text = bytesOf text.toList :=
  encode_eq_flatMap text

@[simp] theorem bytesOf_nil : bytesOf [] = [] := rfl

theorem bytesOf_cons (c : Char) (text : List Char) :
    bytesOf (c :: text) = String.utf8EncodeChar c ++ bytesOf text := rfl

@[simp] theorem bytesOf_append (a b : List Char) : bytesOf (a ++ b) = bytesOf a ++ bytesOf b :=
  List.flatMap_append

theorem decode?_bytesOf (text : List Char) :
    decode? (bytesOf text) = some (String.ofList text) := by
  rw [decode?_eq_some_iff, encode_eq_bytesOf, String.toList_ofList]

theorem bytesOf_ne_nil (h : text ≠ []) : bytesOf text ≠ [] := by
  obtain ⟨c, text, rfl⟩ := List.exists_cons_of_ne_nil h
  exact List.append_ne_nil_of_left_ne_nil String.utf8EncodeChar_ne_nil _

/-- A character in ASCII is one byte. -/
theorem length_bytesOf_singleton (h : c.toNat < 128) : (bytesOf [c]).length = 1 := by
  have hval : c.val ≤ 127 := UInt32.le_iff_toNat_le.mpr (Nat.le_of_lt_succ h)
  rw [bytesOf_cons, bytesOf_nil, List.append_nil, String.length_utf8EncodeChar,
    Char.utf8Size_eq_one_iff.mpr hval]

/-- Only the first byte of a character is one that a character begins with. -/
theorem isUTF8FirstByte_getElem_iff {i : Nat} (h : i < (String.utf8EncodeChar c).length) :
    (String.utf8EncodeChar c)[i].IsUTF8FirstByte ↔ i = 0 := by
  have hsize : i < [c].utf8Encode.size := by
    rw [List.utf8Encode_singleton, List.size_toByteArray]
    exact h
  have hbyte := @List.isUTF8FirstByte_getElem_utf8Encode_singleton c i hsize
  simpa only [List.utf8Encode_singleton, List.getElem_toByteArray] using hbyte

theorem exists_utf8EncodeChar_eq (c : Char) :
    ∃ first more, String.utf8EncodeChar c = first :: more ∧ first.IsUTF8FirstByte ∧
      ∀ byte ∈ more, ¬ byte.IsUTF8FirstByte := by
  obtain ⟨first, more, heq⟩ := List.exists_cons_of_ne_nil (String.utf8EncodeChar_ne_nil (c := c))
  have hbyte : ∀ i (h : i < (first :: more).length),
      (first :: more)[i].IsUTF8FirstByte ↔ i = 0 := by
    rw [← heq]
    exact fun i => isUTF8FirstByte_getElem_iff
  refine ⟨first, more, heq, (hbyte 0 (Nat.zero_lt_succ _)).mpr rfl, fun byte hmem hfirst => ?_⟩
  obtain ⟨i, hi, rfl⟩ := List.mem_iff_getElem.mp hmem
  cases (hbyte (i + 1) (Nat.succ_lt_succ hi)).mp hfirst

/-! ## Boundaries -/

theorem isBoundary_append_right (front bytes : Bytes) (offset : Nat) :
    isBoundary (front ++ bytes) (front.length + offset) = isBoundary bytes offset := by
  unfold isBoundary
  rw [List.getElem?_append_right (Nat.le_add_right _ _), Nat.add_sub_cancel_left,
    List.length_append]
  cases bytes[offset]? with
  | some byte => rfl
  | none =>
    simp only
    rw [Bool.eq_iff_iff, beq_iff_eq, beq_iff_eq, Nat.add_left_cancel_iff]

/-- **Boundaries are the places between characters.** -/
theorem isBoundary_bytesOf_iff {offset : Nat} :
    isBoundary (bytesOf text) offset = true ↔
      ∃ a b, text = a ++ b ∧ offset = (bytesOf a).length := by
  constructor
  · intro h
    induction text generalizing offset with
    | nil => exact ⟨[], [], rfl, by simpa [isBoundary] using h⟩
    | cons c text ih =>
      rw [bytesOf_cons] at h
      rcases Nat.lt_or_ge offset (String.utf8EncodeChar c).length with hinside | hbehind
      · -- in a character the only boundary is at its first byte
        rw [isBoundary, List.getElem?_append_left hinside, List.getElem?_eq_getElem hinside] at h
        have hzero := (isUTF8FirstByte_getElem_iff hinside).mp (of_decide_eq_true h)
        exact ⟨[], c :: text, rfl, hzero⟩
      · obtain ⟨offset, rfl⟩ := Nat.exists_eq_add_of_le hbehind
        rw [isBoundary_append_right] at h
        obtain ⟨a, b, rfl, rfl⟩ := ih h
        refine ⟨c :: a, b, rfl, ?_⟩
        rw [bytesOf_cons, List.length_append]
  · rintro ⟨a, b, rfl, rfl⟩
    rw [bytesOf_append, ← Nat.add_zero (bytesOf a).length, isBoundary_append_right]
    cases b with
    | nil => rfl
    | cons c b =>
      obtain ⟨first, more, heq, hfirst, -⟩ := exists_utf8EncodeChar_eq c
      rw [bytesOf_cons, heq]
      exact decide_eq_true hfirst

/-! ## Characters at the front -/

theorem front?_utf8EncodeChar_append (c : Char) (bytes : Bytes) :
    front? (String.utf8EncodeChar c ++ bytes) = some c := by
  rw [front?, List.toByteArray_append]
  exact ByteArray.utf8DecodeChar?_utf8EncodeChar_append

theorem front?_bytesOf_cons (c : Char) (text : List Char) :
    front? (bytesOf (c :: text)) = some c :=
  front?_utf8EncodeChar_append c (bytesOf text)

theorem drop_utf8Size_bytesOf (c : Char) (text : List Char) :
    (bytesOf (c :: text)).drop c.utf8Size = bytesOf text := by
  rw [bytesOf_cons, ← String.length_utf8EncodeChar, List.drop_left]

/-- Bytes of characters stand at the front where the characters do. -/
theorem bytesOf_prefix_iff : bytesOf a <+: bytesOf b ↔ a <+: b := by
  constructor
  · intro h
    induction a generalizing b with
    | nil => exact List.nil_prefix
    | cons c a ih =>
      cases b with
      | nil => exact absurd (List.prefix_nil.mp h) (bytesOf_ne_nil (List.cons_ne_nil c a))
      | cons d b =>
        obtain ⟨rest, hrest⟩ := h
        rw [bytesOf_cons, List.append_assoc] at hrest
        have hfront := front?_utf8EncodeChar_append c (bytesOf a ++ rest)
        rw [hrest, front?_bytesOf_cons] at hfront
        obtain rfl := Option.some.inj hfront
        exact List.cons_prefix_cons.mpr ⟨rfl, ih ⟨rest, List.append_cancel_left hrest⟩⟩
  · rintro ⟨rest, rfl⟩
    rw [bytesOf_append]
    exact List.prefix_append _ _

/-- **The longest run in the bytes is that in the text.** -/
theorem runSize_bytesOf (p : Char → Bool) (text : List Char) :
    runSize p (bytesOf text) = (bytesOf (text.takeWhile p)).length := by
  induction text with
  | nil => rw [runSize]; rfl
  | cons c text ih =>
    rw [runSize]
    split
    · rename_i d hfront
      obtain rfl : c = d := Option.some.inj ((front?_bytesOf_cons c text).symm.trans hfront)
      rw [drop_utf8Size_bytesOf, ih, List.takeWhile_cons]
      split
      · rw [bytesOf_cons, List.length_append, String.length_utf8EncodeChar]
      · rfl
    · rename_i hfront
      rw [front?_bytesOf_cons] at hfront
      cases hfront

/-! ## Searching -/

/-- A needle that begins with a first byte is not found from inside a character. -/
theorem offset?_append_of_inner {first : UInt8} {needle front : Bytes}
    (hfirst : first.IsUTF8FirstByte) (h : ∀ byte ∈ front, ¬ byte.IsUTF8FirstByte) (bytes : Bytes) :
    offset? (first :: needle) (front ++ bytes) =
      (offset? (first :: needle) bytes).map (front.length + ·) := by
  induction front with
  | nil => simp
  | cons byte front ih =>
    obtain ⟨hbyte, hfront⟩ := List.forall_mem_cons.mp h
    have hno : ¬ (first :: needle).isPrefixOf (byte :: (front ++ bytes)) = true := by
      rw [List.isPrefixOf_iff_prefix, List.cons_prefix_cons]
      rintro ⟨rfl, -⟩
      exact hbyte hfirst
    rw [List.cons_append, offset?, if_neg hno, ih hfront, Option.map_map]
    refine Option.map_congr fun offset _ => ?_
    simp only [Function.comp_apply, List.length_cons]
    omega

/-- The search goes on behind a character. -/
theorem offset?_bytesOf_cons (hneedle : needle ≠ []) (hfront : ¬ needle <+: c :: text) :
    offset? (bytesOf needle) (bytesOf (c :: text)) =
      (offset? (bytesOf needle) (bytesOf text)).map ((bytesOf [c]).length + ·) := by
  obtain ⟨k, needle, rfl⟩ := List.exists_cons_of_ne_nil hneedle
  obtain ⟨kfirst, kmore, hk, hkfirst, -⟩ := exists_utf8EncodeChar_eq k
  obtain ⟨first, more, hc, -, hmore⟩ := exists_utf8EncodeChar_eq c
  have hno : ¬ (bytesOf (k :: needle)).isPrefixOf (bytesOf (c :: text)) = true := by
    rw [List.isPrefixOf_iff_prefix, bytesOf_prefix_iff]
    exact hfront
  rw [bytesOf_cons c, hc, List.cons_append] at hno ⊢
  rw [offset?, if_neg hno, bytesOf_cons k, hk, List.cons_append,
    offset?_append_of_inner hkfirst hmore, Option.map_map, bytesOf_cons, hc]
  refine Option.map_congr fun offset _ => ?_
  simp only [Function.comp_apply, bytesOf_nil, List.append_nil, List.length_cons]
  omega

/-- **The search in bytes is the search in characters.** -/
theorem offset?_bytesOf (hneedle : needle ≠ []) (text : List Char) :
    offset? (bytesOf needle) (bytesOf text) =
      (cut? needle text).map fun cut => (bytesOf cut.1).length := by
  induction text with
  | nil =>
    have hnone : cut? needle [] = none := by
      rw [cut?_eq_none_iff, List.infix_nil]
      exact hneedle
    have hempty : ¬ (bytesOf needle).isEmpty = true := by
      rw [List.isEmpty_iff]
      exact bytesOf_ne_nil hneedle
    rw [hnone, bytesOf_nil, offset?, if_neg hempty, Option.map_none]
  | cons c text ih =>
    by_cases hfront : needle <+: c :: text
    · obtain ⟨after, hafter⟩ := hfront
      have hcut : cut? needle (c :: text) = some ([], after) :=
        cut?_eq_some_iff.mpr ⟨hafter.symm, firstBehind_nil needle⟩
      have hyes : (bytesOf needle).isPrefixOf (bytesOf (c :: text)) = true := by
        rw [List.isPrefixOf_iff_prefix, bytesOf_prefix_iff]
        exact ⟨after, hafter⟩
      obtain ⟨first, more, hc, -, -⟩ := exists_utf8EncodeChar_eq c
      rw [bytesOf_cons, hc, List.cons_append] at hyes
      rw [hcut, bytesOf_cons, hc, List.cons_append, offset?, if_pos hyes]
      rfl
    · rw [offset?_bytesOf_cons hneedle hfront, ih, cut?_cons_of_not_front hfront, Option.map_map,
        Option.map_map]
      refine Option.map_congr fun cut _ => ?_
      simp only [Function.comp_apply, bytesOf_cons c cut.1, bytesOf_cons c [], bytesOf_nil,
        List.append_nil, List.length_append]

/-! ## Cutting out -/

/-- The computation gives the value, and every slice that it cuts out fits. -/
def Yields {α : Type} (bytes : Bytes) (x : Slicing α) (value : α) : Prop :=
  ∀ log, ∃ spans, x.run log = .ok (value, log ++ spans) ∧ ∀ span ∈ spans, span.Fits bytes

namespace Yields

variable {α β : Type} {bytes : Bytes} {x : Slicing α} {v : α}

theorem pure (bytes : Bytes) (v : α) : Yields bytes (Pure.pure v) v := fun log =>
  ⟨[], by rw [List.append_nil]; rfl, List.forall_mem_nil _⟩

theorem bind {f : α → Slicing β} {w : β} (hx : Yields bytes x v) (hf : Yields bytes (f v) w) :
    Yields bytes (x >>= f) w := by
  intro log
  obtain ⟨spans, hrun, hspans⟩ := hx log
  obtain ⟨more, hmore, hfits⟩ := hf (log ++ spans)
  refine ⟨spans ++ more, ?_, List.forall_mem_append.mpr ⟨hspans, hfits⟩⟩
  rw [StateT.run_bind, hrun, ← List.append_assoc]
  exact hmore

/-- A computation gives one value. -/
theorem eq_of_run {log spans : List Span} {w : α} (hx : Yields bytes x v)
    (h : x.run log = .ok (w, spans)) : w = v := by
  obtain ⟨more, hrun, -⟩ := hx log
  rw [hrun] at h
  exact (Prod.mk.inj (Except.ok.inj h)).1.symm

end Yields

/-- The span between two places of a text. -/
def spanOf (a b : List Char) : Span := ⟨(bytesOf a).length, (bytesOf (a ++ b)).length⟩

theorem fits_spanOf (a b rest : List Char) : (spanOf a b).Fits (bytesOf (a ++ b ++ rest)) := by
  refine ⟨?_, ?_, ?_, ?_⟩
  · simp [spanOf]
  · simp [spanOf]
  · exact isBoundary_bytesOf_iff.mpr ⟨a, b ++ rest, List.append_assoc a b rest, rfl⟩
  · exact isBoundary_bytesOf_iff.mpr ⟨a ++ b, rest, rfl, rfl⟩

theorem part_spanOf (a b rest : List Char) :
    (spanOf a b).part (bytesOf (a ++ b ++ rest)) = bytesOf b := by
  rw [spanOf, Span.part, bytesOf_append (a ++ b), List.take_left, bytesOf_append, List.drop_left]

/-- **What stands between two places of a text can be cut out.** -/
theorem yields_slice (a b rest : List Char) :
    Yields (bytesOf (a ++ b ++ rest)) (slice (bytesOf (a ++ b ++ rest)) (spanOf a b))
      (bytesOf b) := by
  intro log
  refine ⟨[spanOf a b], ?_, ?_⟩
  · rw [slice, if_pos (fits_spanOf a b rest), part_spanOf]
    rfl
  · intro span hspan
    rw [List.mem_singleton.mp hspan]
    exact fits_spanOf a b rest

/-- So can all that stands behind a place. -/
theorem yields_slice_behind (a b : List Char) :
    Yields (bytesOf (a ++ b))
      (slice (bytesOf (a ++ b)) ⟨(bytesOf a).length, (bytesOf (a ++ b)).length⟩) (bytesOf b) := by
  have h := yields_slice a b []
  rwa [List.append_nil] at h

end MoveDesk.Text
