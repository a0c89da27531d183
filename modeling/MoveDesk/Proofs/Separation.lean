import MoveDesk.Proofs.Analysis
import MoveDesk.Proofs.Declarations
import MoveDesk.Proofs.Find

/-!
# Sources in separate parts

A separator is a character that stands in no declaration: it is no blank, no word character and no
colon. So no declaration reaches from one side of a separator to the other, and none is cut short
there: the scanner finds in the whole what it finds in the parts, one after the other.

Headlines:
* **`namesIn_append_separator`**: the scanner takes the parts in turn.
* **`extract_separated`**: so does an extraction, in all lists and counts.
-/

namespace MoveDesk

/-! ## Separators -/

namespace Text

/-- The character stands in no declaration. -/
structure IsSeparator (c : Char) : Prop where
  /-- It is no blank. -/
  notBlank : isBlank c = false
  /-- It is no word character. -/
  notWord : isWord c = false
  /-- It is no colon. -/
  notColon : c ≠ ':'

variable {p : Char → Bool} {c : Char}

/-- No blank stands in a word. -/
theorem isBlank_eq_false_of_isWord (h : isWord c = true) : isBlank c = false := by
  have hranges : ∀ r ∈ blankRanges, ∀ i < r.2 + 1 - r.1, wordRanges.holds (r.1 + i) = false := by
    decide +kernel
  refine Bool.eq_false_iff.mpr fun hblank => ?_
  obtain ⟨r, hr, hc⟩ := List.any_eq_true.mp hblank
  simp only [Bool.and_eq_true, decide_eq_true_eq] at hc
  have hnot := hranges r hr (c.toNat - r.1) (by omega)
  rw [Nat.add_sub_cancel' hc.1] at hnot
  rw [isWord, hnot] at h
  cases h

theorem takeWhile_append_cons_of_neg (hc : p c = false) (a b : List Char) :
    (a ++ c :: b).takeWhile p = a.takeWhile p := by
  induction a with
  | nil => simp [hc]
  | cons x a ih =>
    rw [List.cons_append, List.takeWhile_cons, List.takeWhile_cons, ih]

theorem dropWhile_append_cons_of_neg (hc : p c = false) (a b : List Char) :
    (a ++ c :: b).dropWhile p = a.dropWhile p ++ c :: b := by
  induction a with
  | nil => simp [hc]
  | cons x a ih =>
    rw [List.cons_append, List.dropWhile_cons, List.dropWhile_cons, ih]
    split <;> rfl

end Text

/-! ## Scanning in parts -/

namespace Declarator

/-- A name holds a word character. -/
theorem IsName.exists_isWord {shape : NameShape} {name rest : List Char}
    (h : IsName shape name rest) : ∃ c ∈ name, Text.isWord c = true := by
  cases h with
  | plain h =>
    obtain ⟨c, hc⟩ := List.exists_mem_of_ne_nil name h.ne_nil
    exact ⟨c, hc, h.all c hc⟩
  | qualified haddress =>
    obtain ⟨c, hc⟩ := List.exists_mem_of_ne_nil _ haddress.ne_nil
    exact ⟨c, List.mem_append_left _ hc, haddress.all c hc⟩

/-- The names declared in a text of which the first `skip` characters are left out. -/
def namesIn (d : Declarator) (skip : Nat) (text : List Char) : List String := scan.go d [] skip text

variable {d : Declarator}

theorem scan_eq_namesIn (d : Declarator) (source : String) :
    d.scan source = d.namesIn 0 source.toList := rfl

theorem namesIn_succ (skip : Nat) (c : Char) (text : List Char) :
    d.namesIn (skip + 1) (c :: text) = d.namesIn skip text := rfl

theorem namesIn_of_eq_none {c : Char} {text : List Char} (h : d.declaration? (c :: text) = none) :
    d.namesIn 0 (c :: text) = d.namesIn 0 text := by
  unfold namesIn
  simp only [scan.go, h]

theorem namesIn_of_eq_some {c : Char} {text : List Char} {declaration : Declaration}
    (h : d.declaration? (c :: text) = some declaration) :
    d.namesIn 0 (c :: text) =
      String.ofList declaration.name :: d.namesIn (declaration.width - 1) text := by
  unfold namesIn
  simp only [scan.go, h]
  rw [go_eq_locate _ 0, go_eq_locate [] 0]
  rfl

/-- Characters that are left out may be cut off. -/
theorem namesIn_length (front rest : List Char) :
    d.namesIn front.length (front ++ rest) = d.namesIn 0 rest := by
  induction front with
  | nil => rfl
  | cons c front ih => exact ih

theorem width_le_length_of_declaration? {text : List Char} {declaration : Declaration}
    (h : d.declaration? text = some declaration) : declaration.width ≤ text.length := by
  obtain ⟨blanks, behind, rfl, -, -, hwidth⟩ := declaration?_eq_some_iff.mp h
  simp only [List.length_append]
  omega

/-- A text declares nothing where no blank is followed by anything but blanks. -/
theorem declaration?_eq_none_of_pairwise {text : List Char}
    (h : text.Pairwise fun a b => Text.isBlank a = true → Text.isBlank b = true) :
    d.declaration? text = none := by
  refine Option.eq_none_iff_forall_ne_some.mpr fun declaration hsome => ?_
  obtain ⟨blanks, behind, rfl, hblanks, hname, -⟩ := declaration?_eq_some_iff.mp hsome
  -- the first character of the name is no blank, and stands behind a blank
  obtain ⟨b, hb⟩ := List.exists_mem_of_ne_nil blanks hblanks.ne_nil
  obtain ⟨w, hw, hword⟩ := hname.exists_isWord
  have hblank := (List.pairwise_append.mp (List.pairwise_append.mp h).1).2.2 b
    (List.mem_append_right _ hb) w hw (hblanks.all b hb)
  rw [Text.isBlank_eq_false_of_isWord hword] at hblank
  cases hblank

theorem namesIn_eq_nil_of_pairwise {text : List Char}
    (h : text.Pairwise fun a b => Text.isBlank a = true → Text.isBlank b = true) :
    d.namesIn 0 text = [] := by
  induction text with
  | nil => rfl
  | cons c text ih =>
    rw [namesIn_of_eq_none (declaration?_eq_none_of_pairwise h), ih (List.pairwise_cons.mp h).2]

/-- A text without blanks declares nothing, and so with a text behind it whose blanks are all at the
end. -/
theorem namesIn_append_eq_nil {text tail : List Char} (h : ∀ b ∈ text, Text.isBlank b = false)
    (htail : tail.Pairwise fun a b => Text.isBlank a = true → Text.isBlank b = true) :
    d.namesIn 0 (text ++ tail) = [] := by
  have hfalse : ∀ a ∈ text, ∀ b, Text.isBlank a = true → Text.isBlank b = true := by
    intro a ha b hblank
    rw [h a ha] at hblank
    cases hblank
  refine namesIn_eq_nil_of_pairwise (List.pairwise_append.mpr ⟨?_, htail, ?_⟩)
  · exact List.pairwise_iff_forall_sublist.mpr fun hab => hfalse _ (hab.subset List.mem_cons_self) _
  · exact fun a ha b _ => hfalse a ha b

/-- A text without blanks declares nothing, whatever one character stands behind it. -/
theorem namesIn_append_singleton {text : List Char} (h : ∀ b ∈ text, Text.isBlank b = false)
    (c : Char) : d.namesIn 0 (text ++ [c]) = [] :=
  namesIn_append_eq_nil h (List.pairwise_singleton _ c)

/-- The declaration at the start of a text is found, and then what stands behind it. -/
theorem namesIn_of_declaration? {front rest : List Char} {declaration : Declaration}
    (h : d.declaration? (front ++ rest) = some declaration)
    (hwidth : declaration.width = front.length) :
    d.namesIn 0 (front ++ rest) = String.ofList declaration.name :: d.namesIn 0 rest := by
  cases front with
  | nil =>
    have hpos := width_pos_of_declaration? h
    rw [hwidth] at hpos
    cases hpos
  | cons c front =>
    rw [List.cons_append] at h ⊢
    rw [namesIn_of_eq_some h, hwidth, List.length_cons, Nat.add_sub_cancel, namesIn_length]

/-- A front that does not hold the first character of the keyword declares nothing. -/
theorem namesIn_append_of_notMem {k : Char} (hk : d.keyword.toList.head? = some k)
    {front : List Char} (hfront : k ∉ front) (rest : List Char) :
    d.namesIn 0 (front ++ rest) = d.namesIn 0 rest := by
  induction front with
  | nil => rfl
  | cons c front ih =>
    rw [List.mem_cons, not_or] at hfront
    have hnone : d.declaration? (c :: (front ++ rest)) = none := by
      refine declaration?_of_no_keyword fun hstarts => hfront.1 ?_
      obtain ⟨keyword, hkeyword⟩ := List.head?_eq_some_iff.mp hk
      rw [hkeyword] at hstarts
      exact (List.cons_prefix_cons.mp hstarts).1
    rw [List.cons_append, namesIn_of_eq_none hnone, ih hfront.2]

theorem word?_append_cons {c : Char} (hc : Text.isWord c = false) (a b : List Char) :
    word? (a ++ c :: b) = word? a := by
  unfold word?
  rw [Text.takeWhile_append_cons_of_neg hc]

/-- A name ends before a character that stands in no name. -/
theorem name?_append_cons {c : Char} (hc : Text.isWord c = false) (hcolon : c ≠ ':')
    (shape : NameShape) (a b : List Char) : name? shape (a ++ c :: b) = name? shape a := by
  simp only [name?, word?_append_cons hc]
  refine Option.bind_congr fun first hfirst => ?_
  cases shape with
  | plain => rfl
  | qualified =>
    obtain ⟨rest, rfl, -⟩ := word?_eq_some_iff.mp hfirst
    simp only [List.append_assoc, List.drop_left]
    -- the colons have to be on the left, and the second word is read as in the left part
    rcases rest with _ | ⟨x, _ | ⟨y, rest⟩⟩
    · simp [hcolon]
    · by_cases hx : x = ':' <;> simp [hx, hcolon]
    · by_cases hx : x = ':' <;> by_cases hy : y = ':' <;>
        simp [hx, hy, word?_append_cons hc]

section Separator

variable {c : Char} (hc : Text.IsSeparator c)

include hc

/-- **No declaration reaches across a separator**, and none is cut short by it. -/
theorem declaration?_append_separator (hd : ∀ k ∈ d.keyword.toList, Text.isWord k = true)
    (a b : List Char) : d.declaration? (a ++ c :: b) = d.declaration? a := by
  have hkeyword : c ∉ d.keyword.toList := fun hmem => by
    have hword := hd c hmem
    rw [hc.notWord] at hword
    cases hword
  by_cases hfront : d.keyword.toList <+: a
  · obtain ⟨rest, rfl⟩ := hfront
    rw [List.append_assoc, declaration?_keyword_append, declaration?_keyword_append,
      Text.takeWhile_append_cons_of_neg hc.notBlank, Text.dropWhile_append_cons_of_neg hc.notBlank,
      name?_append_cons hc.notWord hc.notColon]
  · have hwhole : ¬ d.keyword.toList <+: a ++ c :: b := fun hwhole =>
      hfront (Text.prefix_of_prefix_append_cons hkeyword hwhole)
    rw [declaration?_of_no_keyword hfront, declaration?_of_no_keyword hwhole]

/-- **The scanner takes the parts around a separator in turn.** -/
theorem namesIn_append_separator (hd : ∀ k ∈ d.keyword.toList, Text.isWord k = true)
    {a : List Char} {skip : Nat} (hskip : skip ≤ a.length) (b : List Char) :
    d.namesIn skip (a ++ c :: b) = d.namesIn skip a ++ d.namesIn 0 b := by
  induction a generalizing skip with
  | nil =>
    obtain rfl := Nat.le_zero.mp hskip
    have hnone : d.declaration? (c :: b) = none :=
      (declaration?_append_separator hc hd [] b).trans (declaration?_nil d)
    rw [List.nil_append, namesIn_of_eq_none hnone]
    rfl
  | cons x a ih =>
    cases skip with
    | succ skip =>
      rw [List.cons_append, namesIn_succ, namesIn_succ]
      exact ih (Nat.le_of_succ_le_succ hskip)
    | zero =>
      have hsame := declaration?_append_separator hc hd (x :: a) b
      rw [List.cons_append] at hsame ⊢
      cases hfound : d.declaration? (x :: a) with
      | none =>
        rw [namesIn_of_eq_none hfound, namesIn_of_eq_none (hsame.trans hfound)]
        exact ih (Nat.zero_le _)
      | some declaration =>
        have hwidth := width_le_length_of_declaration? hfound
        rw [List.length_cons] at hwidth
        rw [namesIn_of_eq_some hfound, namesIn_of_eq_some (hsame.trans hfound),
          ih (Nat.sub_le_of_le_add hwidth), List.cons_append]

end Separator

end Declarator

theorem Kind.isWord_of_mem_keyword (kind : Kind) :
    ∀ k ∈ kind.declarator.keyword.toList, Text.isWord k = true := by
  cases kind <;> exact List.all_eq_true.mp (by decide +kernel)

/-! ## Inserting in parts -/

namespace Context

variable {ctx : Context} {whole a b : String}

/-- What a source of two parts would add is what the first adds, and then what the second adds. -/
theorem fresh_of_scan_eq {kind : Kind} (h : kind.scan whole = kind.scan a ++ kind.scan b) :
    ctx.fresh kind whole = ctx.fresh kind a ++ (ctx.extract a).1.fresh kind b := by
  unfold fresh
  rw [h, NameList.fresh_append, list_extract]

/-- Sources are extracted in turn where they are scanned in turn. -/
theorem extract_of_scan_eq (h : ∀ kind : Kind, kind.scan whole = kind.scan a ++ kind.scan b) :
    ctx.extract whole =
      (((ctx.extract a).1.extract b).1, (ctx.extract a).2 + ((ctx.extract a).1.extract b).2) := by
  refine Prod.ext (ext_names fun kind => ?_) (Growth.ext_count fun kind => ?_)
  · rw [names_extract, names_extract, names_extract, fresh_of_scan_eq (h kind), List.append_assoc]
  · rw [Growth.count_add, count_extract, count_extract, count_extract, fresh_of_scan_eq (h kind),
      List.length_append]

theorem scan_separated (kind : Kind) {c : Char} (hc : Text.IsSeparator c) (a b : String) :
    kind.scan (a ++ String.singleton c ++ b) = kind.scan a ++ kind.scan b := by
  unfold Kind.scan
  simp only [Declarator.scan_eq_namesIn, String.toList_append, String.toList_singleton,
    List.append_assoc, List.singleton_append]
  exact Declarator.namesIn_append_separator hc kind.isWord_of_mem_keyword (Nat.zero_le _) _

/-- **Extraction goes part by part.** Around a separator, whatever stands on either side and
whatever the context holds:
* every kind of names is scanned in the left part and then in the right one;
* the whole leaves the context that the right part leaves behind the left one;
* its counts are the sums of theirs. -/
theorem extract_separated (ctx : Context) (a b : String) (c : Char) (hc : Text.IsSeparator c) :
    let whole := a ++ String.singleton c ++ b
    let left := ctx.extract a
    let right := left.1.extract b
    (∀ kind : Kind, kind.scan whole = kind.scan a ++ kind.scan b) ∧
      ctx.extract whole = (right.1, left.2 + right.2) :=
  have hscan := fun kind => scan_separated kind hc a b
  ⟨hscan, extract_of_scan_eq hscan⟩

/-- The left part ends in a keyword and blanks, and the right part starts with a name. -/
theorem extract_separated_dangling_keyword :
    let a := "struct A fun f module 0x1::M struct "
    let b := "B struct A fun g module 0x1:"
    Text.IsSeparator ';' ∧
      (∅ : Context).extract (a ++ String.singleton ';' ++ b) =
        (⟨⟨["0x1::M"]⟩, ⟨["A"]⟩, ⟨["f", "g"]⟩⟩, ⟨1, 1, 2⟩) := by
  intro a b
  have hc : Text.IsSeparator ';' := ⟨by decide +kernel, by decide +kernel, by decide +kernel⟩
  refine ⟨hc, (extract_separated ∅ a b ';' hc).2.trans ?_⟩
  decide +kernel

end Context

end MoveDesk
