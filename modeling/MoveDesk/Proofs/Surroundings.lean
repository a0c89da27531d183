import Mathlib.Data.List.Infix
import MoveDesk.Glossary
import MoveDesk.Intent
import MoveDesk.Proofs.Find

/-!
# Text around a match

Tables of keywords are looked up in the lowercase form of a text, first row first. The form of a
text need not stand in the form of a longer one: a sigma takes its final form at the end of a word,
and another where the word goes on. But both forms lie outside of ASCII, and no other character
looks at its neighbours. So as far as ASCII goes the form of a text is made character by character
(`map_ascii?_lower`), and keywords in ASCII cannot tell the difference.

Headlines:
* **`infix_lower_around`**: a keyword in ASCII that occurs in the lowercase form of a text occurs
  whatever is written around the text.
* **`extra_text_never_demotes`**: what is written around a text can lead to an earlier row of a
  table, and never to a later one or to none.
-/

namespace MoveDesk

namespace Text

/-! ## The lowercase form as far as ASCII goes -/

/-- All characters of the text are ASCII. -/
def IsAscii (text : List Char) : Prop := ∀ c ∈ text, c.toNat < 128

instance (text : List Char) : Decidable (IsAscii text) :=
  List.decidableBAll (fun c : Char => c.toNat < 128) text

/-- The character, if it is ASCII. -/
def ascii? (c : Char) : Option Char := if c.toNat < 128 then some c else none

variable {needle text : List Char}

/-- What a character becomes in lowercase, as far as ASCII goes, does not depend on its
neighbours. -/
theorem map_ascii?_form (c : Char) (final : Bool) :
    (if c = 'Σ' then [if final then 'ς' else 'σ'] else lowerChar c).map ascii? =
      (lowerChar c).map ascii? := by
  split
  · rename_i hsigma
    subst hsigma
    cases final <;> decide +kernel
  · rfl

theorem map_ascii?_go_lower (afterCased : Bool) (done text : List Char) :
    (lower.go afterCased done text).map ascii? =
      done.reverse.map ascii? ++ text.flatMap fun c => (lowerChar c).map ascii? := by
  induction text generalizing afterCased done with
  | nil => exact (List.append_nil _).symm
  | cons c text ih =>
    rw [lower.go]
    simp only [ih, List.reverse_append, List.reverse_reverse, List.map_append, map_ascii?_form,
      List.append_assoc, List.flatMap_cons]

/-- **As far as ASCII goes, the lowercase form is made character by character.** -/
theorem map_ascii?_lower (text : List Char) :
    (lower text).map ascii? = text.flatMap fun c => (lowerChar c).map ascii? :=
  map_ascii?_go_lower false [] text

theorem ascii?_of_lt {c : Char} (h : c.toNat < 128) : ascii? c = some c := if_pos h

theorem eq_of_ascii?_eq_some {c k : Char} (h : ascii? c = some k) : c = k := by
  unfold ascii? at h
  split at h
  · exact Option.some.inj h
  · cases h

theorem map_ascii?_of_isAscii (h : IsAscii text) : text.map ascii? = text.map some :=
  List.map_congr_left fun c hc => ascii?_of_lt (h c hc)

/-- What is all ASCII shows what it is. -/
theorem eq_of_map_ascii?_eq (h : text.map ascii? = needle.map some) : text = needle := by
  induction text generalizing needle with
  | nil => exact (List.map_eq_nil_iff.mp h.symm).symm
  | cons c text ih =>
    cases needle with
    | nil => cases h
    | cons k needle =>
      obtain ⟨hfirst, hrest⟩ := List.cons.inj h
      rw [eq_of_ascii?_eq_some hfirst, ih hrest]

/-- A needle in ASCII stands in a text where it stands as far as ASCII goes. -/
theorem infix_iff_map_ascii? (h : IsAscii needle) :
    needle <:+: text ↔ needle.map some <:+: text.map ascii? := by
  rw [← map_ascii?_of_isAscii h]
  constructor
  · exact fun hoccurs => hoccurs.map ascii?
  · intro hoccurs
    obtain ⟨window, hwindow, hmap⟩ := List.infix_map_iff.mp hoccurs
    rw [map_ascii?_of_isAscii h] at hmap
    rwa [← eq_of_map_ascii?_eq hmap.symm]

/-- **A keyword in ASCII stays where it is found**, whatever is written around the text. -/
theorem infix_lower_around (h : IsAscii needle) (hoccurs : needle <:+: lower text)
    (before after : List Char) : needle <:+: lower (before ++ text ++ after) := by
  rw [infix_iff_map_ascii? h, map_ascii?_lower] at hoccurs ⊢
  rw [List.flatMap_append, List.flatMap_append]
  exact hoccurs.trans ⟨_, _, rfl⟩

/-- The form of a text need not stand in the form of a longer one. -/
example : lower "COINΣ".toList = "coinς".toList ∧ lower "COINΣA".toList = "coinσa".toList := by
  decide +kernel

end Text

open Text

/-! ## Tables -/

section Table

variable {α : Type} (keywords : α → List String)

/-- The position of the first row of which a keyword occurs in the lowercase form of the text. -/
def firstRow? (table : List α) (text : String) : Option Nat :=
  table.findIdx? fun row =>
    (keywords row).any fun keyword => occursIn keyword.toList (lower text.toList)

variable {keywords} {table : List α}

/-- A row that is found in a text is found whatever is written around it. -/
theorem any_occursIn_around {row : α} (h : ∀ keyword ∈ keywords row, IsAscii keyword.toList)
    (before text after : String)
    (hany : ((keywords row).any fun keyword =>
      occursIn keyword.toList (lower text.toList)) = true) :
    ((keywords row).any fun keyword =>
      occursIn keyword.toList (lower (before ++ text ++ after).toList)) = true := by
  obtain ⟨keyword, hkeyword, hoccurs⟩ := List.any_eq_true.mp hany
  refine List.any_eq_true.mpr ⟨keyword, hkeyword, ?_⟩
  rw [occursIn_iff] at hoccurs ⊢
  rw [String.toList_append, String.toList_append]
  exact infix_lower_around (h keyword hkeyword) hoccurs before.toList after.toList

/-- **A match is never demoted** in a table of keywords in ASCII. -/
theorem exists_firstRow?_around
    (h : ∀ row ∈ table, ∀ keyword ∈ keywords row, IsAscii keyword.toList)
    {text : String} {position : Nat} (hrow : firstRow? keywords table text = some position)
    (before after : String) :
    ∃ earlier ≤ position, firstRow? keywords table (before ++ text ++ after) = some earlier := by
  obtain ⟨hlt, rfl⟩ := List.findIdx?_eq_some_iff_findIdx_eq.mp hrow
  have hle := List.findIdx_le_findIdx fun row hmem =>
    any_occursIn_around (h row hmem) before text after
  exact ⟨_, hle, List.findIdx?_eq_some_iff_findIdx_eq.mpr ⟨by omega, rfl⟩⟩

/-- The first row cannot be demoted at all. -/
theorem firstRow?_around_of_eq_zero
    (h : ∀ row ∈ table, ∀ keyword ∈ keywords row, IsAscii keyword.toList) {text : String}
    (hrow : firstRow? keywords table text = some 0) (before after : String) :
    firstRow? keywords table (before ++ text ++ after) = some 0 := by
  obtain ⟨earlier, hle, hearlier⟩ := exists_firstRow?_around h hrow before after
  rwa [Nat.le_zero.mp hle] at hearlier

theorem firstRow?_cons_of_occurs {row : α} {rest : List α} {keyword text : String}
    (hkeyword : keyword ∈ keywords row) (h : keyword.toList <:+: lower text.toList) :
    firstRow? keywords (row :: rest) text = some 0 := by
  rw [firstRow?, List.findIdx?_cons, if_pos]
  exact List.any_eq_true.mpr ⟨keyword, hkeyword, occursIn_iff.mpr h⟩

end Table

/-- A text is classified by the first row of the table that it leads to. -/
theorem classify_eq_firstRow? (rules : List IntentRule) (text : String) :
    classify rules text =
      ((firstRow? (·.keywords) rules text).bind (rules[·]?)).elim .unrecognized (·.intent) := by
  have hfind : rules.find? (·.appliesTo (lower text.toList)) =
      (firstRow? (·.keywords) rules text).bind (rules[·]?) := List.find?_eq_bind_findIdx?_getElem?
  rw [classify, ← hfind]
  cases rules.find? (·.appliesTo (lower text.toList)) <;> rfl

/-- What is looked up is the first entry that the text leads to. -/
theorem lookup?_eq_firstRow? (glossary : Glossary) (text : String) :
    glossary.lookup? text =
      (firstRow? (fun entry => [entry.name]) glossary text).bind (glossary[·]?) := by
  rw [Glossary.lookup?, List.find?_eq_bind_findIdx?_getElem?, firstRow?]
  simp only [List.any_cons, List.any_nil, Bool.or_false]

/-- **Extra text never demotes a match**, in a table of rules and in a glossary, whatever they hold,
if their keywords and names are ASCII:
* texts are classified, and entries looked up, by the first row that the text leads to;
* what is written before and behind a text leads to the same row or to an earlier one;
* so if a keyword of the first row is found in a text, the longer text has the intent of that row,
  or looks up that entry. -/
theorem extra_text_never_demotes (rules : List IntentRule) (glossary : Glossary)
    (hrules : ∀ rule ∈ rules, ∀ keyword ∈ rule.keywords, IsAscii keyword.toList)
    (hglossary : ∀ entry ∈ glossary, IsAscii entry.name.toList) :
    (∀ text, classify rules text =
        ((firstRow? (·.keywords) rules text).bind (rules[·]?)).elim .unrecognized (·.intent) ∧
      glossary.lookup? text =
        (firstRow? (fun entry => [entry.name]) glossary text).bind (glossary[·]?)) ∧
      ∀ before text after : String,
        let longer := before ++ text ++ after
        (∀ position, firstRow? (·.keywords) rules text = some position →
          ∃ earlier ≤ position, firstRow? (·.keywords) rules longer = some earlier) ∧
        (∀ position, firstRow? (fun entry => [entry.name]) glossary text = some position →
          ∃ earlier ≤ position,
            firstRow? (fun entry => [entry.name]) glossary longer = some earlier) ∧
        (∀ first ∈ rules.head?, ∀ keyword ∈ first.keywords,
          keyword.toList <:+: lower text.toList → classify rules longer = first.intent) ∧
        ∀ first ∈ glossary.head?,
          first.name.toList <:+: lower text.toList → glossary.lookup? longer = some first := by
  have hnames : ∀ entry ∈ glossary, ∀ name ∈ [entry.name], IsAscii name.toList := by
    intro entry hentry name hname
    rw [List.mem_singleton.mp hname]
    exact hglossary entry hentry
  refine ⟨fun text => ⟨classify_eq_firstRow? rules text, lookup?_eq_firstRow? glossary text⟩,
    fun before text after => ⟨fun position h => exists_firstRow?_around hrules h before after,
      fun position h => exists_firstRow?_around hnames h before after, ?_, ?_⟩⟩
  · intro first hfirst keyword hkeyword hoccurs
    obtain ⟨rest, rfl⟩ := List.head?_eq_some_iff.mp hfirst
    have hrow := firstRow?_around_of_eq_zero hrules (firstRow?_cons_of_occurs hkeyword hoccurs)
      before after
    rw [classify_eq_firstRow?, hrow]
    rfl
  · intro first hfirst hoccurs
    obtain ⟨rest, rfl⟩ := List.head?_eq_some_iff.mp hfirst
    have hrow := firstRow?_around_of_eq_zero hnames
      (firstRow?_cons_of_occurs (List.mem_singleton.mpr rfl) hoccurs) before after
    rw [lookup?_eq_firstRow?, hrow]
    rfl

/-- A sigma that is final in the text and not in the longer one, and a table of its own in which the
longer text leads to an earlier row. -/
theorem extra_text_never_demotes_sigma :
    let rules : List IntentRule := [⟨.module, ["dao", "vault"]⟩, ⟨.token, ["coin"]⟩]
    let glossary : Glossary := [⟨"coin", "Coins"⟩, ⟨"dao", "Organizations"⟩]
    let text := "COINΣ"
    let longer := "A DAO " ++ text ++ "A"
    (∀ rule ∈ rules, ∀ keyword ∈ rule.keywords, IsAscii keyword.toList) ∧
      (∀ entry ∈ glossary, IsAscii entry.name.toList) ∧
      firstRow? (·.keywords) rules text = some 1 ∧ classify rules text = .token ∧
      (∃ earlier ≤ 1, firstRow? (·.keywords) rules longer = some earlier) ∧
      classify rules longer = .module ∧ glossary.lookup? longer = some ⟨"coin", "Coins"⟩ := by
  intro rules glossary text longer
  have hrules : ∀ rule ∈ rules, ∀ keyword ∈ rule.keywords, IsAscii keyword.toList := by
    decide +kernel
  have hglossary : ∀ entry ∈ glossary, IsAscii entry.name.toList := by decide +kernel
  have hrow : firstRow? (·.keywords) rules text = some 1 := by decide +kernel
  obtain ⟨hfirst, haround⟩ := extra_text_never_demotes rules glossary hrules hglossary
  obtain ⟨hposition, -, hmodule, -⟩ := haround "A " "DAO" (" " ++ text ++ "A")
  obtain ⟨hearlier, -, -, hcoin⟩ := haround "A DAO " text "A"
  refine ⟨hrules, hglossary, hrow, ?_, hearlier 1 hrow, ?_, ?_⟩
  · rw [(hfirst text).1, hrow]
    rfl
  · refine hmodule ⟨.module, ["dao", "vault"]⟩ rfl "dao" List.mem_cons_self ?_
    exact occursIn_iff.mp (by decide +kernel)
  · refine hcoin ⟨"coin", "Coins"⟩ rfl ?_
    exact occursIn_iff.mp (by decide +kernel)

end MoveDesk
