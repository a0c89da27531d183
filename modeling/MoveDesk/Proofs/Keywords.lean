import Mathlib.Data.List.Forall2
import Mathlib.Data.List.Infix
import MoveDesk.Desk
import MoveDesk.Proofs.Find

/-!
# Keywords in a text of any case

Keywords are looked for in the lowercase form of a text. That form is not the text letter by letter:
a dotted capital I becomes two characters, and the form of a sigma depends on what stands beside it.
None of this reaches a keyword. Every character stands for one letter or for none, whatever is
beside it, and a keyword occurs where the characters of the text stand for its letters.

`Lowered` is what is used of the lowercase form. The first of the two characters that a dotted I
becomes is a letter, but what stands behind it is none, so only a keyword that ends in it could
occur there.

Headlines:
* **`infix_lower_iff`**: where a keyword occurs in the lowercase form of a text.
* **`answers_by_spelling`**: what is classified and looked up, stated on the text itself.
-/

namespace MoveDesk

namespace Text

/-! ## Letters -/

/-- The letters that keywords are made of. -/
def letters : List Char := "abcdefghijklmnopqrstuvwxyz".toList

/-- The character is the letter, its capital, or the Kelvin sign for a `k`. -/
def StandsFor (letter c : Char) : Prop :=
  c = letter ∨ c = letter.toUpper ∨ letter = 'k' ∧ c = '\u212a'

instance (letter c : Char) : Decidable (StandsFor letter c) :=
  inferInstanceAs (Decidable (_ ∨ _))

/-- The letter that the character stands for. -/
def letter? (c : Char) : Option Char :=
  if c.toLower ∈ letters then some c.toLower else if c = '\u212a' then some 'k' else none

variable {c k : Char} {keyword text low : List Char}

/-- What holds of all letters is decided letter by letter. -/
theorem forall_mem_letters {P : Char → Prop} [DecidablePred P]
    (h : letters.all (fun k => decide (P k)) = true) : ∀ k ∈ letters, P k :=
  fun k hk => of_decide_eq_true (List.all_eq_true.mp h k hk)

theorem letters_ascii : ∀ k ∈ letters, 0 < k.toNat ∧ k.toNat < 128 :=
  forall_mem_letters (by decide +kernel)

theorem letter?_of_mem : ∀ k ∈ letters, letter? k = some k ∧ letter? k.toUpper = some k :=
  forall_mem_letters (by decide +kernel)

/-- In ASCII, the letter is the lowercase one. -/
theorem letter?_ascii (hc : c.toNat < 128) :
    letter? c.toLower = letter? c ∧
      ∀ k ∈ letter? c, c.toLower = k ∧ k ∈ letters ∧ StandsFor k c := by
  have hall : ∀ n < 128, letter? (Char.ofNat n).toLower = letter? (Char.ofNat n) ∧
      (letter? (Char.ofNat n)).all (fun k => decide
        ((Char.ofNat n).toLower = k ∧ k ∈ letters ∧ StandsFor k (Char.ofNat n))) = true := by
    decide +kernel
  obtain ⟨hlower, hletter⟩ := hall c.toNat hc
  rw [Char.ofNat_toNat] at hlower hletter
  refine ⟨hlower, fun k hk => ?_⟩
  rw [Option.mem_def.mp hk, Option.all_some] at hletter
  exact of_decide_eq_true hletter

/-- Above ASCII, no character has a letter in the other case. -/
theorem toLower_of_le (hc : 128 ≤ c.toNat) : c.toLower = c := by
  have hval : c.toNat = c.val.toNat := rfl
  have hcapital : 'Z'.val.toNat = 90 := rfl
  refine dif_neg fun hcase => ?_
  have hle := UInt32.le_iff_toNat_le.mp hcase.2
  omega

theorem notMem_letters_of_le (hc : 128 ≤ c.toNat) : c ∉ letters := by
  intro hmem
  have hlt := (letters_ascii c hmem).2
  omega

/-- Above ASCII, only the Kelvin sign stands for a letter. -/
theorem letter?_of_le (hc : 128 ≤ c.toNat) :
    letter? c = if c = '\u212a' then some 'k' else none := by
  rw [letter?, toLower_of_le hc, if_neg (notMem_letters_of_le hc)]

theorem standsFor_of_letter? (h : letter? c = some k) : k ∈ letters ∧ StandsFor k c := by
  by_cases hc : c.toNat < 128
  · exact ((letter?_ascii hc).2 k h).2
  · rw [letter?_of_le (by omega)] at h
    split at h
    · rename_i hkelvin
      obtain rfl := Option.some.inj h
      exact ⟨by decide +kernel, Or.inr (Or.inr ⟨rfl, hkelvin⟩)⟩
    · cases h

theorem letter?_eq_some_iff (hk : k ∈ letters) : letter? c = some k ↔ StandsFor k c := by
  refine ⟨fun h => (standsFor_of_letter? h).2, ?_⟩
  rintro (rfl | rfl | ⟨rfl, rfl⟩)
  · exact (letter?_of_mem c hk).1
  · exact (letter?_of_mem k hk).2
  · decide +kernel

theorem letter?_toLower (c : Char) : letter? c.toLower = letter? c := by
  by_cases hc : c.toNat < 128
  · exact (letter?_ascii hc).1
  · rw [toLower_of_le (by omega)]

/-- The characters stand for the same letters. -/
def Alike (c d : Char) : Prop := ∀ k ∈ letters, StandsFor k c ↔ StandsFor k d

instance (c d : Char) : Decidable (Alike c d) :=
  List.decidableBAll (fun k => StandsFor k c ↔ StandsFor k d) letters

theorem Alike.letter?_eq {d : Char} (h : Alike c d) : letter? c = letter? d := by
  have hsome : ∀ k ∈ letters, letter? c = some k ↔ letter? d = some k := by
    intro k hk
    rw [letter?_eq_some_iff hk, letter?_eq_some_iff hk]
    exact h k hk
  refine Option.ext fun k => ⟨fun hk => ?_, fun hk => ?_⟩
  · exact (hsome k (standsFor_of_letter? hk).1).mp hk
  · exact (hsome k (standsFor_of_letter? hk).1).mpr hk

/-! ## The lowercase form of a character -/

/-- A code point above ASCII is no letter that keywords are made of. -/
theorem ofNat_notMem_letters {n : Nat} (hn : 128 ≤ n) : Char.ofNat n ∉ letters := by
  intro hmem
  obtain ⟨hpos, hlt⟩ := letters_ascii _ hmem
  by_cases hvalid : n.isValidChar
  · have hnat : (Char.ofNat n).toNat = n := by
      rw [Char.ofNat, dif_pos hvalid]
      rfl
    omega
  · have hnat : (Char.ofNat n).toNat = 0 := by
      rw [Char.ofNat, dif_neg hvalid]
      rfl
    omega

/-- Above ASCII, runs lead to characters above it, but for that of the Kelvin sign. -/
theorem lowercaseRuns_above : ∀ run ∈ lowercaseRuns,
    run.last < 128 ∨ run.first = 0x212a ∧ run.last = 0x212a ∨ 128 ≤ run.first + run.offset := by
  decide +kernel

/-- The other characters above ASCII have a form of one character, which is no letter. -/
theorem exists_lowerChar_eq (hc : 128 ≤ c.toNat) (hdotted : c ≠ '\u0130') (hkelvin : c ≠ '\u212a') :
    ∃ x, lowerChar c = [x] ∧ x ∉ letters := by
  rw [lowerChar, if_neg (by omega), if_neg hdotted]
  cases hrun : lowercaseRuns.find? (·.covers c.toNat) with
  | none => exact ⟨c, rfl, notMem_letters_of_le hc⟩
  | some run =>
    refine ⟨_, rfl, ofNat_notMem_letters ?_⟩
    have hcovers := List.find?_some hrun
    simp only [CaseRun.covers, Bool.and_eq_true, decide_eq_true_eq] at hcovers
    obtain ⟨⟨hfirst, hlast⟩, -⟩ := hcovers
    rcases lowercaseRuns_above run (List.mem_of_find?_eq_some hrun) with h | h | h
    · omega
    · have hnat : c.toNat = '\u212a'.toNat := by
        have hnumber : '\u212a'.toNat = 0x212a := rfl
        omega
      exact absurd (Char.toNat_inj.mp hnat) hkelvin
    · omega

/-- The form is what a character may become in lowercase, as far as letters go: a letter just where
the character stands for it, or the two characters of a dotted capital I. -/
def IsForm (c : Char) (form : List Char) : Prop :=
  c = '\u0130' ∧ form = ['i', '\u0307'] ∨
    ∃ x, form = [x] ∧ ∀ k ∈ letters, x = k ↔ letter? c = some k

theorem isForm_lowerChar (c : Char) : IsForm c (lowerChar c) := by
  by_cases hascii : c.toNat < 128
  · refine Or.inr ⟨c.toLower, by rw [lowerChar, if_pos hascii], fun k hk => ⟨?_, fun hletter => ?_⟩⟩
    · rintro rfl
      rw [← letter?_toLower c]
      exact (letter?_of_mem _ hk).1
    · exact ((letter?_ascii hascii).2 k hletter).1
  · by_cases hdotted : c = '\u0130'
    · subst hdotted
      exact Or.inl ⟨rfl, by decide +kernel⟩
    · by_cases hkelvin : c = '\u212a'
      · subst hkelvin
        exact Or.inr ⟨'k', by decide +kernel, forall_mem_letters (by decide +kernel)⟩
      · obtain ⟨x, hx, hmem⟩ := exists_lowerChar_eq (by omega) hdotted hkelvin
        refine Or.inr ⟨x, hx, fun k hk => ?_⟩
        rw [letter?_of_le (by omega), if_neg hkelvin]
        exact iff_of_false (fun heq => hmem (heq ▸ hk)) nofun

/-- A sigma stands for no letter, and neither of its forms is one. -/
theorem isForm_sigma (final : Bool) : IsForm 'Σ' [if final then 'ς' else 'σ'] := by
  refine Or.inr ⟨_, rfl, ?_⟩
  cases final <;> exact forall_mem_letters (by decide +kernel)

/-! ## The lowercase form of a text -/

/-- The second text is made of forms of the characters of the first. -/
inductive Lowered : List Char → List Char → Prop
  | nil : Lowered [] []
  | cons {c : Char} {form text low : List Char} (hform : IsForm c form) (h : Lowered text low) :
      Lowered (c :: text) (form ++ low)

theorem exists_go_lower (afterCased : Bool) (done text : List Char) :
    ∃ low, lower.go afterCased done text = done.reverse ++ low ∧ Lowered text low := by
  induction text generalizing afterCased done with
  | nil => exact ⟨[], (List.append_nil _).symm, .nil⟩
  | cons c text ih =>
    have hforms : IsForm c (if c = 'Σ' then
        [if afterCased && !startsCased text then 'ς' else 'σ'] else lowerChar c) := by
      split
      · rename_i hsigma
        exact hsigma ▸ isForm_sigma _
      · exact isForm_lowerChar c
    rw [lower.go]
    generalize (if c = 'Σ' then
      [if afterCased && !startsCased text then 'ς' else 'σ'] else lowerChar c) = form at hforms ⊢
    obtain ⟨low, hgo, hlow⟩ :=
      ih (if isCaseIgnorable c then afterCased else isCased c) (form.reverse ++ done)
    refine ⟨form ++ low, ?_, .cons hforms hlow⟩
    rw [hgo, List.reverse_append, List.reverse_reverse, List.append_assoc]

theorem lowered_lower (text : List Char) : Lowered text (lower text) := by
  obtain ⟨low, hgo, hlow⟩ := exists_go_lower false [] text
  rw [lower, hgo]
  exact hlow

/-! ## Where keywords occur -/

/-- A keyword is spelled in the text: some of its characters, side by side, stand for the letters of
the keyword, one for each. -/
def Spelled (keyword text : List Char) : Prop :=
  ∃ window, window <:+: text ∧ List.Forall₂ StandsFor keyword window

/-- It is enough to look at as many characters as the keyword has, from each place on. -/
theorem spelled_iff_exists_tail : Spelled keyword text ↔
    ∃ tail ∈ text.tails, List.Forall₂ StandsFor keyword (tail.take keyword.length) := by
  constructor
  · rintro ⟨window, hwindow, hforall⟩
    obtain ⟨tail, hstart, hend⟩ := List.infix_iff_prefix_suffix.mp hwindow
    refine ⟨tail, (List.mem_tails tail text).mpr hend, ?_⟩
    rwa [hforall.length_eq, ← List.prefix_iff_eq_take.mp hstart]
  · rintro ⟨tail, htail, hforall⟩
    have hend := (List.mem_tails tail text).mp htail
    exact ⟨_, (List.take_prefix _ _).isInfix.trans hend.isInfix, hforall⟩

instance (keyword text : List Char) : Decidable (Spelled keyword text) :=
  decidable_of_iff _ spelled_iff_exists_tail.symm

/-- A word of lowercase letters that does not end in the one that a dotted capital I becomes. -/
structure IsKeyword (keyword : List Char) : Prop where
  /-- There is a letter. -/
  ne_nil : keyword ≠ []
  /-- All are lowercase letters. -/
  letters : ∀ k ∈ keyword, k ∈ letters
  /-- The last is no `i`. -/
  last : ¬ ['i'] <:+ keyword

instance (keyword : List Char) : Decidable (IsKeyword keyword) :=
  decidable_of_iff (keyword ≠ [] ∧ keyword.all (· ∈ letters) = true ∧ ¬ ['i'] <:+ keyword)
    ⟨fun h => ⟨h.1, by simpa using h.2.1, h.2.2⟩, fun h => ⟨h.1, by simpa using h.2, h.3⟩⟩

theorem dot_notMem_letters : '\u0307' ∉ letters := by decide +kernel

/-- No keyword starts at the second character of a dotted capital. -/
theorem not_prefix_dot (hne : keyword ≠ []) (hletters : ∀ k ∈ keyword, k ∈ letters) :
    ¬ keyword <+: '\u0307' :: low := by
  intro h
  obtain ⟨k, keyword, rfl⟩ := List.exists_cons_of_ne_nil hne
  obtain ⟨rfl, -⟩ := List.cons_prefix_cons.mp h
  exact dot_notMem_letters (hletters _ List.mem_cons_self)

/-- No keyword starts at its first character. -/
theorem not_prefix_dotted (hne : keyword ≠ []) (hletters : ∀ k ∈ keyword, k ∈ letters)
    (hlast : ¬ ['i'] <:+ keyword) : ¬ keyword <+: 'i' :: '\u0307' :: low := by
  intro h
  obtain ⟨k, keyword, rfl⟩ := List.exists_cons_of_ne_nil hne
  obtain ⟨rfl, hbehind⟩ := List.cons_prefix_cons.mp h
  have hkeyword : keyword ≠ [] := by
    rintro rfl
    exact hlast (List.suffix_refl _)
  exact not_prefix_dot hkeyword (List.forall_mem_cons.mp hletters).2 hbehind

/-- Letters that a lowercase form starts with are those that the first characters stand for. -/
theorem prefix_lowered_iff (h : Lowered text low) (hletters : ∀ k ∈ keyword, k ∈ letters)
    (hlast : ¬ ['i'] <:+ keyword) :
    keyword <+: low ↔ keyword.map some <+: text.map letter? := by
  induction h generalizing keyword with
  | nil => simp
  | @cons c form text low hform h ih =>
    cases keyword with
    | nil => simp
    | cons k keyword =>
      obtain ⟨hk, hrest⟩ := List.forall_mem_cons.mp hletters
      have hend : ¬ ['i'] <:+ keyword := fun hi => hlast (hi.trans (List.suffix_cons k keyword))
      rw [List.map_cons, List.map_cons, List.cons_prefix_cons]
      rcases hform with ⟨rfl, rfl⟩ | ⟨x, rfl, hx⟩
      · have hnone : letter? '\u0130' = none := by decide +kernel
        rw [hnone]
        refine iff_of_false ?_ (fun hsome => nomatch hsome.1)
        exact not_prefix_dotted (List.cons_ne_nil k keyword) hletters hlast
      · rw [List.singleton_append, List.cons_prefix_cons, ih hrest hend, eq_comm, hx k hk, eq_comm]

/-- A keyword occurs in a lowercase form where the characters stand for its letters. -/
theorem infix_lowered_iff (h : Lowered text low) (hkeyword : IsKeyword keyword) :
    keyword <:+: low ↔ keyword.map some <:+: text.map letter? := by
  induction h with
  | nil => simp
  | @cons c form text low hform h ih =>
    have hstart := prefix_lowered_iff (.cons hform h) hkeyword.letters hkeyword.last
    have hplaces : keyword <:+: form ++ low ↔ keyword <+: form ++ low ∨ keyword <:+: low := by
      rcases hform with ⟨-, rfl⟩ | ⟨x, rfl, -⟩
      · have hdot : ¬ keyword <+: '\u0307' :: low :=
          not_prefix_dot hkeyword.ne_nil hkeyword.letters
        rw [List.cons_append, List.cons_append, List.nil_append, List.infix_cons_iff,
          List.infix_cons_iff, or_iff_right hdot]
      · exact List.infix_cons_iff
    rw [hplaces, hstart, ih, List.map_cons, List.infix_cons_iff]

theorem forall₂_standsFor_iff (hletters : ∀ k ∈ keyword, k ∈ letters) (window : List Char) :
    List.Forall₂ StandsFor keyword window ↔ keyword.map some = window.map letter? := by
  induction keyword generalizing window with
  | nil => simp [List.forall₂_nil_left_iff, eq_comm]
  | cons k keyword ih =>
    obtain ⟨hk, hletters⟩ := List.forall_mem_cons.mp hletters
    cases window with
    | nil => simp
    | cons c window =>
      rw [List.forall₂_cons, ih hletters, List.map_cons, List.map_cons, List.cons.injEq,
        ← letter?_eq_some_iff hk, eq_comm]

/-- The letters that the characters stand for decide what is spelled. -/
theorem spelled_iff (hletters : ∀ k ∈ keyword, k ∈ letters) (text : List Char) :
    Spelled keyword text ↔ keyword.map some <:+: text.map letter? := by
  rw [List.infix_map_iff, Spelled]
  simp only [forall₂_standsFor_iff hletters]

/-- **A keyword occurs in the lowercase form of a text** where it is spelled in the text itself. -/
theorem infix_lower_iff (hkeyword : IsKeyword keyword) (text : List Char) :
    keyword <:+: lower text ↔ Spelled keyword text := by
  rw [infix_lowered_iff (lowered_lower text) hkeyword, spelled_iff hkeyword.letters]

/-- Whether a keyword is spelled depends on what the characters of the text stand for. -/
theorem spelled_congr (hletters : ∀ k ∈ keyword, k ∈ letters) {other : List Char}
    (h : other.map letter? = text.map letter?) : Spelled keyword other ↔ Spelled keyword text := by
  rw [spelled_iff hletters, spelled_iff hletters, h]

theorem map_letter?_of_alike {other : List Char} (h : List.Forall₂ Alike text other) :
    other.map letter? = text.map letter? := by
  induction h with
  | nil => rfl
  | cons halike _ ih => rw [List.map_cons, List.map_cons, halike.letter?_eq, ih]

theorem map_letter?_of_toLower {other : List Char}
    (h : other.map Char.toLower = text.map Char.toLower) :
    other.map letter? = text.map letter? := by
  have hmap : ∀ chars : List Char, chars.map letter? = (chars.map Char.toLower).map letter? := by
    intro chars
    rw [List.map_map]
    exact List.map_congr_left fun c _ => (letter?_toLower c).symm
  rw [hmap other, hmap text, h]

end Text

/-! ## What is classified and looked up -/

open Text

/-- A keyword of the rule is spelled in the text. -/
def IntentRule.isSpelledIn (rule : IntentRule) (text : String) : Bool :=
  rule.keywords.any fun keyword => Spelled keyword.toList text.toList

/-- The name of the entry is spelled in the text. -/
def GlossaryEntry.isSpelledIn (entry : GlossaryEntry) (text : String) : Bool :=
  Spelled entry.name.toList text.toList

/-- What is found in the lowercase form is spelled in the text. -/
theorem occursIn_lower {keyword : String} (h : IsKeyword keyword.toList) (text : String) :
    occursIn keyword.toList (lower text.toList) = decide (Spelled keyword.toList text.toList) := by
  rw [Bool.eq_iff_iff, occursIn_iff, decide_eq_true_iff]
  exact infix_lower_iff h text.toList

theorem isKeyword_intentRules :
    ∀ rule ∈ intentRules, ∀ keyword ∈ rule.keywords, IsKeyword keyword.toList := by
  decide +kernel

theorem isKeyword_glossary : ∀ entry ∈ Glossary.standard, IsKeyword entry.name.toList := by
  decide +kernel

section

variable {α : Type} {l : List α} {p q : α → Bool}

theorem any_congr_of_mem (h : ∀ a ∈ l, p a = q a) : l.any p = l.any q := by
  rw [Bool.eq_iff_iff, List.any_eq_true, List.any_eq_true]
  refine exists_congr fun a => and_congr_right fun ha => ?_
  rw [h a ha]

theorem find?_congr_of_mem (h : ∀ a ∈ l, p a = q a) : l.find? p = l.find? q := by
  rw [← List.head?_filter, ← List.head?_filter, List.filter_congr h]

end

/-- A rule applies to the lowercase form of a text in which one of its keywords is spelled. -/
theorem appliesTo_lower {rule : IntentRule} (hrule : rule ∈ intentRules) (text : String) :
    rule.appliesTo (lower text.toList) = rule.isSpelledIn text :=
  any_congr_of_mem fun keyword hkeyword =>
    occursIn_lower (isKeyword_intentRules rule hrule keyword hkeyword) text

/-- What is classified is the intent of the first rule of which a keyword is spelled. -/
theorem classify_eq (text : String) :
    Desk.classify text =
      (intentRules.find? (·.isSpelledIn text)).elim .unrecognized (·.intent) := by
  rw [Desk.classify, classify, find?_congr_of_mem fun rule hrule => appliesTo_lower hrule text]
  cases intentRules.find? (·.isSpelledIn text) <;> rfl

/-- What is looked up is the first entry of which the name is spelled. -/
theorem lookup?_eq (text : String) :
    Glossary.standard.lookup? text = Glossary.standard.find? (·.isSpelledIn text) :=
  find?_congr_of_mem fun entry hentry => occursIn_lower (isKeyword_glossary entry hentry) text

/-- Texts whose characters stand for the same letters are answered alike. -/
theorem answers_congr {text other : String}
    (h : other.toList.map letter? = text.toList.map letter?) :
    Desk.classify other = Desk.classify text ∧
      Glossary.standard.lookup? other = Glossary.standard.lookup? text := by
  have hspelled : ∀ keyword : String, IsKeyword keyword.toList →
      decide (Spelled keyword.toList other.toList) =
        decide (Spelled keyword.toList text.toList) := by
    intro keyword hkeyword
    rw [decide_eq_decide, spelled_congr hkeyword.letters h]
  constructor
  · have hrule : ∀ rule ∈ intentRules, rule.isSpelledIn other = rule.isSpelledIn text := by
      intro rule hrule
      exact any_congr_of_mem fun keyword hkeyword =>
        hspelled keyword (isKeyword_intentRules rule hrule keyword hkeyword)
    rw [classify_eq, classify_eq, find?_congr_of_mem hrule]
  · rw [lookup?_eq, lookup?_eq]
    exact find?_congr_of_mem fun entry hentry =>
      hspelled entry.name (isKeyword_glossary entry hentry)

/-- **Answers are by spelling.** For every text:
* it is classified as the intent of the first rule of which a keyword is spelled in it, letter by
  letter, or else not recognized;
* the concept that it looks up is the first of which the name is spelled in it;
* characters that stand for the same letters, or for none, may take each other's places, and so may
  letters of either case: the answers are the same. -/
theorem answers_by_spelling (text : String) :
    Desk.classify text =
        (intentRules.find? (·.isSpelledIn text)).elim .unrecognized (·.intent) ∧
      Glossary.standard.lookup? text = Glossary.standard.find? (·.isSpelledIn text) ∧
      ∀ other : String,
        (List.Forall₂ Alike text.toList other.toList ∨
          other.toList.map Char.toLower = text.toList.map Char.toLower) →
        Desk.classify other = Desk.classify text ∧
          Glossary.standard.lookup? other = Glossary.standard.lookup? text := by
  refine ⟨classify_eq text, lookup?_eq text, fun other hother => answers_congr ?_⟩
  rcases hother with halike | hcase
  · exact map_letter?_of_alike halike
  · exact map_letter?_of_toLower hcase

/-- A Kelvin sign stands for a letter and a dotted capital I for none: a token is named, and no
coin. -/
theorem answers_by_spelling_kelvin :
    let text := "co\u0130n \u03a3 To\u212aen"
    let other := "co?n \u03c2 to\u004beN"
    let recased := "CO\u0130N \u03a3 tO\u212aEN"
    List.Forall₂ Alike text.toList other.toList ∧
      recased.toList.map Char.toLower = text.toList.map Char.toLower ∧
      Desk.classify other = Desk.classify text ∧ Desk.classify recased = Desk.classify text ∧
      Desk.classify text = .token ∧ Glossary.standard.lookup? text = none ∧
      ¬ Spelled "coin".toList text.toList := by
  intro text other recased
  have halike : List.Forall₂ Alike text.toList other.toList := by decide +kernel
  have hcase : recased.toList.map Char.toLower = text.toList.map Char.toLower := by decide +kernel
  obtain ⟨hclassify, hlookup, hsame⟩ := answers_by_spelling text
  refine ⟨halike, hcase, (hsame other (Or.inl halike)).1, (hsame recased (Or.inr hcase)).1,
    hclassify.trans ?_, hlookup.trans ?_, ?_⟩ <;> decide +kernel

end MoveDesk
