import MoveDesk.Files
import MoveDesk.Report
import MoveDesk.Text.Split

/-!
# Lines of text in bytes

The byte of a newline stands in the bytes of a text only where a newline stands in the text. So
lines that are written one by one are read back one by one, whatever bytes stand behind them.

Headline:
* **`lines_encode_asLines`**: the lines of a text that was written as lines.
-/

namespace MoveDesk.Text

/-! ## Bytes -/

theorem encode_eq_flatMap (text : String) :
    encode text = text.toList.flatMap String.utf8EncodeChar := by
  have hbytes : text.toUTF8 = (text.toList.flatMap String.utf8EncodeChar).toByteArray :=
    String.utf8Encode_toList.symm
  rw [encode, hbytes, List.data_toByteArray]

theorem encode_append (a b : String) : encode (a ++ b) = encode a ++ encode b := by
  simp only [encode_eq_flatMap, String.toList_append, List.flatMap_append]

theorem encode_newline : encode "\n" = [0x0a] := by decide +kernel

theorem encode_append_newline (text : String) : encode (text ++ "\n") = encode text ++ [0x0a] := by
  rw [encode_append, encode_newline]

/-- A byte of a character is the character itself, or lies above ASCII. -/
theorem toNat_of_mem_utf8EncodeChar {c : Char} {b : UInt8} (h : b ∈ String.utf8EncodeChar c) :
    b.toNat = c.toNat ∨ 0x80 ≤ b.toNat := by
  rw [String.utf8EncodeChar] at h
  change b.toNat = c.val.toNat ∨ 0x80 ≤ b.toNat
  split at h
  · have hnat := congrArg UInt8.toNat (List.mem_singleton.mp h)
    rw [UInt8.toNat_ofNat'] at hnat
    omega
  · right
    split at h
    · simp only [List.mem_cons, List.not_mem_nil, or_false] at h
      rcases h with rfl | rfl <;> rw [UInt8.toNat_ofNat'] <;> omega
    · split at h
      · simp only [List.mem_cons, List.not_mem_nil, or_false] at h
        rcases h with rfl | rfl | rfl <;> rw [UInt8.toNat_ofNat'] <;> omega
      · simp only [List.mem_cons, List.not_mem_nil, or_false] at h
        rcases h with rfl | rfl | rfl | rfl <;> rw [UInt8.toNat_ofNat'] <;> omega

theorem eq_newline_of_mem_utf8EncodeChar {c : Char} (h : 0x0a ∈ String.utf8EncodeChar c) :
    c = '\n' := by
  rcases toNat_of_mem_utf8EncodeChar h with heq | hle
  · exact Char.toNat_inj.mp heq.symm
  · exact absurd hle (by decide)

theorem newline_mem_encode_iff {text : String} : 0x0a ∈ encode text ↔ '\n' ∈ text.toList := by
  rw [encode_eq_flatMap, List.mem_flatMap]
  constructor
  · rintro ⟨c, hc, hbyte⟩
    exact eq_newline_of_mem_utf8EncodeChar hbyte ▸ hc
  · intro hc
    have hbyte : 0x0a ∈ String.utf8EncodeChar '\n' := by decide +kernel
    exact ⟨'\n', hc, hbyte⟩

theorem newline_notMem_encode {text : String} (h : '\n' ∉ text.toList) :
    0x0a ∉ encode text :=
  mt newline_mem_encode_iff.mp h

/-- A text whose first byte is in ASCII starts with the character of this byte. -/
theorem head?_of_head?_encode {text : String} {b : UInt8} (h : (encode text).head? = some b)
    (hb : b.toNat < 0x80) : text.toList.head? = some (Char.ofNat b.toNat) := by
  rw [encode_eq_flatMap] at h
  cases htext : text.toList with
  | nil =>
    rw [htext] at h
    cases h
  | cons c rest =>
    obtain ⟨first, more, hbytes⟩ :=
      List.exists_cons_of_ne_nil (String.utf8EncodeChar_ne_nil (c := c))
    rw [htext, List.flatMap_cons, hbytes, List.cons_append, List.head?_cons] at h
    obtain rfl := Option.some.inj h
    have hmem : first ∈ String.utf8EncodeChar c := hbytes ▸ List.mem_cons_self
    rcases toNat_of_mem_utf8EncodeChar hmem with heq | hle
    · rw [heq, Char.ofNat_toNat, List.head?_cons]
    · exact absurd hle (Nat.not_le.mpr hb)

theorem asText_encode (text : String) : FileAccess.asText (encode text) = .ok text := by
  rw [FileAccess.asText, decode?_encode]

/-- A text is read from its own bytes only. -/
theorem decode?_eq_some_iff {bytes : Bytes} {text : String} :
    decode? bytes = some text ↔ bytes = encode text := by
  constructor
  · intro h
    unfold decode? String.fromUTF8? at h
    split at h
    · cases h
      simp [encode, String.fromUTF8, String.toUTF8]
    · cases h
  · rintro rfl
    exact decode?_encode text

theorem encode_injective : Function.Injective encode := fun a _ h =>
  Option.some.inj ((decode?_encode a).symm.trans (decode?_eq_some_iff.mpr h))

/-! ## Pieces -/

/-- The pieces of a text with the separator between them are the text. -/
theorem intercalate_pieces {separator : String} {mark : Char} (h : separator.toList = [mark])
    (text : String) :
    separator.intercalate ((split mark text.toList).map String.ofList) = text := by
  have hpieces : ((split mark text.toList).map String.ofList).map String.toList =
      split mark text.toList := by
    simp [Function.comp_def]
  rw [← String.toList_inj, String.toList_intercalate, h, hpieces, intercalate_split]

/-! ## Lines -/

section

variable {α : Type} [DecidableEq α] {mark : α} {line rest : List α}

/-- A line ends at the first mark. -/
theorem lines_append_mark (h : mark ∉ line) :
    lines mark (line ++ mark :: rest) = (line ++ [mark]) :: lines mark rest := by
  induction line with
  | nil => rw [List.nil_append, lines, if_pos rfl, List.nil_append]
  | cons a line ih =>
    obtain ⟨ha, hline⟩ := not_or.mp (mt List.mem_cons.mpr h)
    rw [List.cons_append, lines, if_neg (Ne.symm ha), ih hline, List.cons_append]

/-- The last line may lack the mark. -/
theorem lines_of_notMem (h : mark ∉ line) (hline : line ≠ []) : lines mark line = [line] := by
  induction line with
  | nil => exact absurd rfl hline
  | cons a line ih =>
    obtain ⟨ha, hrest⟩ := not_or.mp (mt List.mem_cons.mpr h)
    rw [lines, if_neg (Ne.symm ha)]
    cases line with
    | nil => rfl
    | cons b line => rw [ih hrest (List.cons_ne_nil b line)]

end

/-- A line is read with a newline behind it or at the end of the input. -/
theorem exists_lines_encode {text : String} (h : '\n' ∉ text.toList) (hne : text ≠ "")
    {rest : Bytes} (hrest : ∀ b ∈ rest.head?, b = 0x0a) :
    ∃ line, (line = text ∨ line = text ++ "\n") ∧
      lines 0x0a (encode text ++ rest) = encode line :: lines 0x0a rest.tail := by
  have hmark := newline_notMem_encode h
  cases rest with
  | nil =>
    have hbytes : encode text ≠ [] := fun hnil => hne (encode_injective hnil)
    refine ⟨text, Or.inl rfl, ?_⟩
    rw [List.append_nil, lines_of_notMem hmark hbytes]
    rfl
  | cons b rest =>
    obtain rfl : b = 0x0a := hrest b rfl
    refine ⟨text ++ "\n", Or.inr rfl, ?_⟩
    rw [lines_append_mark hmark, encode_append_newline, List.tail_cons]

/-- **Lines that are written are read back**, each with its newline, whatever stands behind. -/
theorem lines_encode_asLines {texts : List String} (h : ∀ text ∈ texts, '\n' ∉ text.toList)
    (rest : Bytes) :
    lines 0x0a (encode (asLines texts) ++ rest) =
      texts.map (fun text => encode (text ++ "\n")) ++ lines 0x0a rest := by
  induction texts with
  | nil => rfl
  | cons text texts ih =>
    obtain ⟨htext, htexts⟩ := List.forall_mem_cons.mp h
    rw [asLines_cons, encode_append, encode_append_newline, List.append_assoc, List.append_assoc,
      List.singleton_append, lines_append_mark (newline_notMem_encode htext), ih htexts,
      List.map_cons, encode_append_newline, List.cons_append]

end MoveDesk.Text
