import MoveDesk.Json.Printer
import MoveDesk.Json.Reader
import MoveDesk.Proofs.Lines

/-!
# Texts in quotes

A text that is written in quotes is read back, whatever stands behind it (`text?At_quote`). Reading
goes by bytes: those of a character above ASCII all lie above the marks that the reader looks for,
so only the escapes are anything but themselves.
-/

namespace MoveDesk.Json

/-! ## Bytes -/

/-- The byte stands for itself between quotes. -/
def IsPlain (b : UInt8) : Prop := b ≠ 0x22 ∧ b ≠ 0x5c ∧ ¬ b < 0x20

theorem isPlain_of_mem_utf8EncodeChar {c : Char} (hquote : c ≠ '"') (hbackslash : c ≠ '\\')
    (hcontrol : ¬ c.toNat < 0x20) {b : UInt8} (h : b ∈ String.utf8EncodeChar c) : IsPlain b := by
  have hbyte := Text.toNat_of_mem_utf8EncodeChar h
  refine ⟨?_, ?_, fun hlt => ?_⟩
  · rintro rfl
    exact hbyte.elim (fun heq => hquote (Char.toNat_inj.mp heq.symm)) (by decide)
  · rintro rfl
    exact hbyte.elim (fun heq => hbackslash (Char.toNat_inj.mp heq.symm)) (by decide)
  · have hnat : b.toNat < 0x20 := hlt
    omega

/-! ## Reading what is written -/

theorem unquote_plain {bytes : Bytes} (h : ∀ b ∈ bytes, IsPlain b) (read rest : Bytes) :
    unquote read (bytes ++ rest) = unquote (bytes.reverse ++ read) rest := by
  induction bytes generalizing read with
  | nil => rfl
  | cons b bytes ih =>
    obtain ⟨⟨hquote, hbackslash, hcontrol⟩, hbytes⟩ := List.forall_mem_cons.mp h
    have hstep : unquote read (b :: (bytes ++ rest)) = unquote (b :: read) (bytes ++ rest) := by
      rw [unquote.eq_def]
      split
      · rename_i heq
        exact absurd (List.cons.inj heq).1 hbackslash
      · rename_i heq
        exact absurd (List.cons.inj heq).1 hbackslash
      · rename_i heq
        obtain ⟨rfl, rfl⟩ := List.cons.inj heq
        simp [hquote, hbackslash, hcontrol]
      · rename_i heq
        cases heq
    rw [List.cons_append, hstep, ih hbytes, List.reverse_cons, List.append_assoc]
    rfl

/-- A control character is read from its number. -/
theorem unquote_control {c : Char} (h : c.toNat < 0x20) (read rest : Bytes) :
    unquote read (['\\', 'u', '0', '0', Text.hexDigit (c.toNat / 16),
        Text.hexDigit (c.toNat % 16)].flatMap String.utf8EncodeChar ++ rest) =
      unquote ((String.utf8EncodeChar c).reverse ++ read) rest := by
  have hdigits : ∀ n < 0x20,
      let a := (Text.hexDigit (n / 16)).toUInt8
      let b := (Text.hexDigit (n % 16)).toUInt8
      ['\\', 'u', '0', '0', Text.hexDigit (n / 16), Text.hexDigit (n % 16)].flatMap
          String.utf8EncodeChar = [0x5c, 0x75, 0x30, 0x30, a, b] ∧
        hexUnit? 0x30 0x30 a b = some n := by
    decide +kernel
  obtain ⟨hbytes, hunit⟩ := hdigits c.toNat h
  have hlow : isLowSurrogate c.toNat = false := by
    unfold isLowSurrogate
    exact Bool.and_eq_false_iff.mpr (Or.inl (decide_eq_false (by omega)))
  have hhigh : isHighSurrogate c.toNat = false := by
    unfold isHighSurrogate
    exact Bool.and_eq_false_iff.mpr (Or.inl (decide_eq_false (by omega)))
  rw [hbytes]
  simp only [List.cons_append, List.nil_append]
  rw [unquote]
  simp only [hunit, hlow, hhigh, Bool.false_eq_true, if_false, pushCodePoint, Char.ofNat_toNat]

/-- A character is read from its escape, or from itself. -/
theorem unquote_escapeChar (c : Char) (read rest : Bytes) :
    unquote read ((escapeChar c).flatMap String.utf8EncodeChar ++ rest) =
      unquote ((String.utf8EncodeChar c).reverse ++ read) rest := by
  unfold escapeChar
  split
  · rfl
  · rfl
  · rfl
  · rfl
  · rfl
  · rfl
  · rfl
  · rename_i hquote hbackslash _ _ _ _ _
    split
    · exact unquote_control ‹_› read rest
    · rename_i hcontrol
      rw [List.flatMap_singleton]
      exact unquote_plain (fun b => isPlain_of_mem_utf8EncodeChar hquote hbackslash hcontrol) read
        rest

theorem unquote_escaped (chars : List Char) (read rest : Bytes) :
    unquote read (chars.flatMap (fun c => (escapeChar c).flatMap String.utf8EncodeChar) ++
        0x22 :: rest) =
      some (read.reverse ++ chars.flatMap String.utf8EncodeChar, rest) := by
  induction chars generalizing read with
  | nil =>
    rw [List.flatMap_nil, List.nil_append, unquote, List.flatMap_nil, List.append_nil]
    · rfl
    · nofun
    · nofun
  | cons c chars ih =>
    rw [List.flatMap_cons, List.append_assoc, unquote_escapeChar, ih, List.flatMap_cons]
    simp only [List.reverse_append, List.reverse_reverse, List.append_assoc]

theorem encode_quote (text : String) :
    Text.encode (quote text) =
      0x22 :: (text.toList.flatMap (fun c => (escapeChar c).flatMap String.utf8EncodeChar) ++
        [0x22]) := by
  rw [Text.encode_eq_flatMap, quote, String.toList_ofList]
  simp only [List.cons_append, List.flatMap_cons, List.flatMap_append, List.flatMap_assoc,
    List.flatMap_nil]
  rfl

/-- **A text in quotes is read back**, whatever stands behind it. -/
theorem text?At_quote (text : String) (rest : Bytes) :
    text?At .strict (Text.encode (quote text) ++ rest) = some (text, rest) := by
  rw [encode_quote, List.cons_append, List.append_assoc, text?At, textBody?,
    List.singleton_append, unquote_escaped, List.reverse_nil, List.nil_append,
    ← Text.encode_eq_flatMap]
  simp only [Text.decode?_encode, Option.map_some]

/-! ## Passing over texts -/

/-- What is read as a text has the form of one. -/
theorem passText_of_unquote {read input bytes rest : Bytes}
    (h : unquote read input = some (bytes, rest)) : passText input = some rest := by
  fun_induction unquote read input <;> simp_all [passText]

theorem textBody?_lexical {input rest : Bytes} {text : String}
    (h : textBody? .strict input = some (text, rest)) :
    textBody? .lexical input = some ("", rest) := by
  rw [textBody?] at h
  split at h
  · cases h
  · rename_i bytes behind hread
    obtain ⟨_, -, heq⟩ := Option.map_eq_some_iff.mp h
    obtain ⟨-, rfl⟩ := Prod.mk.inj heq
    rw [textBody?, passText_of_unquote hread, Option.map_some]

end MoveDesk.Json
