import MoveDesk.Proofs.Separation
import MoveDesk.Report

/-!
# Sources in pieces

The pieces of a text are its longest parts without blanks. A keyword without blanks declares a name
where it ends a piece and the next piece starts with the name, and nowhere else. How many blanks
stand between two pieces, and which, does not matter.

`namesAcross` reads pieces, not a text. `namesIn_spaced` is the tie to the scanner: by induction on
the pieces, and on what the scanner has not passed of the piece that it is in.

Headlines:
* **`scan_eq_namesAcross`**: the scanner finds in a source what its pieces declare.
* **`scan_ignores_layout`**: sources of the same pieces declare the same names, among them the
  source whose pieces stand one space apart.
-/

namespace MoveDesk

/-! ## Pieces -/

namespace Text

/-- No blank stands in the text. -/
def Unbroken (text : List Char) : Prop := ∀ c ∈ text, isBlank c = false

instance (text : List Char) : Decidable (Unbroken text) :=
  List.decidableBAll (fun c => isBlank c = false) text

/-- The longest parts of the text without blanks, in order. -/
def pieces (text : List Char) : List (List Char) := (text.splitOnP isBlank).filter (· ≠ [])

/-- The pieces of the source, one space apart. -/
def respaced (source : String) : String :=
  " ".intercalate ((pieces source.toList).map String.ofList)

variable {front piece text rest : List Char} {parts : List (List Char)} {c : Char}

@[simp] theorem pieces_nil : pieces [] = [] := rfl

/-- A blank stands between pieces. -/
theorem pieces_append_cons (hc : isBlank c = true) (front rest : List Char) :
    pieces (front ++ c :: rest) = pieces front ++ pieces rest := by
  unfold pieces
  rw [List.splitOnP_append_cons _ _ hc, List.filter_append]

theorem pieces_of_unbroken (h : Unbroken piece) (hne : piece ≠ []) : pieces piece = [piece] := by
  unfold pieces
  rw [List.splitOnP_eq_singleton h]
  simp [hne]

/-- A piece ends at a blank. -/
theorem pieces_unbroken_append_cons (h : Unbroken piece) (hne : piece ≠ [])
    (hc : isBlank c = true) (rest : List Char) :
    pieces (piece ++ c :: rest) = piece :: pieces rest := by
  rw [pieces_append_cons hc, pieces_of_unbroken h hne, List.singleton_append]

/-- The pieces of lines are those of each line. -/
theorem pieces_asLines (texts : List String) :
    pieces (asLines texts).toList = texts.flatMap fun text => pieces text.toList := by
  induction texts with
  | nil => rfl
  | cons text texts ih =>
    have hlines : (asLines (text :: texts)).toList =
        text.toList ++ '\n' :: (asLines texts).toList := by
      simp [asLines_cons]
    rw [hlines, pieces_append_cons (by decide), ih, List.flatMap_cons]

/-- Pieces, one space apart, are read back. -/
theorem pieces_intercalate (h : ∀ piece ∈ parts, Unbroken piece ∧ piece ≠ []) :
    pieces ([' '].intercalate parts) = parts := by
  induction parts with
  | nil => rfl
  | cons piece parts ih =>
    obtain ⟨⟨hunbroken, hne⟩, hparts⟩ := List.forall_mem_cons.mp h
    cases parts with
    | nil =>
      rw [List.intercalate_singleton]
      exact pieces_of_unbroken hunbroken hne
    | cons next parts =>
      rw [List.intercalate_cons_cons, List.append_assoc, List.singleton_append,
        pieces_unbroken_append_cons hunbroken hne (by decide), ih hparts]

/-- The text is a gap of blanks before each of the pieces, and maybe one behind the last. -/
inductive Spaced : List (List Char) → List Char → Prop
  | nil {gap : List Char} (hgap : ∀ c ∈ gap, isBlank c = true) : Spaced [] gap
  | cons {gap piece rest : List Char} {parts : List (List Char)} (hne : gap ≠ [])
      (hgap : ∀ c ∈ gap, isBlank c = true) (hpiece : Unbroken piece) (hpiecene : piece ≠ [])
      (hrest : Spaced parts rest) : Spaced (piece :: parts) (gap ++ (piece ++ rest))

theorem Spaced.isBlank_head (h : Spaced parts text) : ∀ c ∈ text.head?, isBlank c = true := by
  intro c hc
  cases h with
  | nil hgap => exact hgap c (List.mem_of_mem_head? hc)
  | cons hne hgap =>
    rw [List.head?_append, List.head?_eq_some_head hne] at hc
    obtain rfl := Option.some.inj hc
    exact hgap _ (List.head_mem hne)

theorem Spaced.cons_isBlank (h : Spaced parts text) (hc : isBlank c = true) :
    Spaced parts (c :: text) := by
  cases h with
  | nil hgap => exact .nil (List.forall_mem_cons.mpr ⟨hc, hgap⟩)
  | @cons gap _ _ _ hne hgap hpiece hpiecene hrest =>
    have hall : ∀ b ∈ c :: gap, isBlank b = true := List.forall_mem_cons.mpr ⟨hc, hgap⟩
    exact .cons (List.cons_ne_nil c gap) hall hpiece hpiecene hrest

theorem Spaced.unbroken (h : Spaced parts text) :
    ∀ piece ∈ parts, Unbroken piece ∧ piece ≠ [] := by
  induction h with
  | nil => exact List.forall_mem_nil _
  | cons _ _ hpiece hpiecene _ ih => exact List.forall_mem_cons.mpr ⟨⟨hpiece, hpiecene⟩, ih⟩

/-- Every text is a front without blanks, which may be empty, and its other pieces behind it. -/
theorem exists_spaced (text : List Char) :
    ∃ front parts rest, text = front ++ rest ∧ Unbroken front ∧
      text.splitOnP isBlank = front :: parts ∧ Spaced (parts.filter (· ≠ [])) rest := by
  induction text with
  | nil => exact ⟨[], [], [], rfl, List.forall_mem_nil _, rfl, .nil (List.forall_mem_nil _)⟩
  | cons c text ih =>
    obtain ⟨front, parts, rest, rfl, hfront, hsplit, hspaced⟩ := ih
    by_cases hc : isBlank c = true
    · refine ⟨[], front :: parts, c :: (front ++ rest), rfl, List.forall_mem_nil _, ?_, ?_⟩
      · rw [List.splitOnP_cons_eq_if_modifyHead, if_pos hc, hsplit]
      · by_cases hne : front = []
        · subst hne
          exact hspaced.cons_isBlank hc
        · have hkept : (front :: parts).filter (· ≠ []) = front :: parts.filter (· ≠ []) :=
            List.filter_cons_of_pos (by simp [hne])
          rw [hkept]
          exact .cons (List.cons_ne_nil c []) (by simp [hc]) hfront hne hspaced
    · refine ⟨c :: front, parts, rest, rfl, ?_, ?_, hspaced⟩
      · exact List.forall_mem_cons.mpr ⟨Bool.eq_false_iff.mpr hc, hfront⟩
      · rw [List.splitOnP_cons_eq_if_modifyHead, if_neg hc, hsplit, List.modifyHead_cons]

theorem unbroken_of_mem_pieces (h : piece ∈ pieces text) : Unbroken piece ∧ piece ≠ [] := by
  obtain ⟨front, parts, rest, -, hfront, hsplit, hspaced⟩ := exists_spaced text
  unfold pieces at h
  rw [hsplit] at h
  obtain ⟨hmem, hne⟩ := List.mem_filter.mp h
  have hne : piece ≠ [] := of_decide_eq_true hne
  rcases List.mem_cons.mp hmem with rfl | hmem
  · exact ⟨hfront, hne⟩
  · exact hspaced.unbroken piece (List.mem_filter.mpr ⟨hmem, decide_eq_true hne⟩)

/-- The new layout keeps the pieces. -/
theorem pieces_respaced (source : String) :
    pieces (respaced source).toList = pieces source.toList := by
  have hmap : ((pieces source.toList).map String.ofList).map String.toList =
      pieces source.toList := by
    simp [Function.comp_def]
  unfold respaced
  rw [String.toList_intercalate, hmap]
  exact pieces_intercalate fun piece h => unbroken_of_mem_pieces h

end Text

/-! ## Declarations across pieces -/

namespace Declarator

open Text

/-- The names that pieces declare behind the `front` of a piece: the keyword ends a piece, and the
next one starts with the name. What stands behind the name is the front of what comes next. -/
def namesAcross (d : Declarator) (front : List Char) : List (List Char) → List String
  | [] => []
  | piece :: parts =>
    if d.keyword.toList <:+ front then
      match name? d.shape piece with
      | some name => String.ofList name :: d.namesAcross (piece.drop name.length) parts
      | none => d.namesAcross piece parts
    else d.namesAcross piece parts

variable {d : Declarator} {front piece text rest name : List Char} {parts : List (List Char)}

theorem not_suffix_nil (hne : d.keyword ≠ "") : ¬ d.keyword.toList <:+ [] := by
  rw [List.suffix_nil, String.toList_eq_nil_iff]
  exact hne

theorem namesAcross_cons_of_not_suffix (h : ¬ d.keyword.toList <:+ front) :
    d.namesAcross front (piece :: parts) = d.namesAcross piece parts := by
  rw [namesAcross, if_neg h]

theorem namesAcross_cons_of_eq_none (h : name? d.shape piece = none) :
    d.namesAcross front (piece :: parts) = d.namesAcross piece parts := by
  rw [namesAcross, h]
  exact ite_self _

theorem namesAcross_cons_of_eq_some (hfront : d.keyword.toList <:+ front)
    (h : name? d.shape piece = some name) :
    d.namesAcross front (piece :: parts) =
      String.ofList name :: d.namesAcross (piece.drop name.length) parts := by
  rw [namesAcross, if_pos hfront, h]

/-- The names in a piece are those of the piece alone. -/
theorem name?_append_spaced (shape : NameShape) (h : Spaced parts rest) (piece : List Char) :
    name? shape (piece ++ rest) = name? shape piece := by
  cases rest with
  | nil => rw [List.append_nil]
  | cons c rest =>
    have hblank : isBlank c = true := h.isBlank_head c rfl
    have hword : isWord c = false := by
      refine Bool.eq_false_iff.mpr fun hword => ?_
      rw [isBlank_eq_false_of_isWord hword] at hblank
      cases hblank
    have hcolon : c ≠ ':' := by
      rintro rfl
      exact absurd hblank (by decide)
    exact name?_append_cons hword hcolon shape piece rest

/-- Where pieces begin, a declaration starts with the keyword alone. -/
theorem declaration?_append_spaced (hd : Unbroken d.keyword.toList) (hfront : Unbroken front)
    (h : Spaced parts text) (hkeyword : front ≠ d.keyword.toList) :
    d.declaration? (front ++ text) = none := by
  refine Option.eq_none_iff_forall_ne_some.mpr fun declaration hsome => hkeyword ?_
  obtain ⟨blanks, behind, htext, hblanks, -, -⟩ := declaration?_eq_some_iff.mp hsome
  have hrest : text.takeWhile (fun c => !isBlank c) = [] := by
    cases text with
    | nil => rfl
    | cons c text => simp [h.isBlank_head c rfl]
  have hbehind : (blanks ++ (declaration.name ++ behind)).takeWhile (fun c => !isBlank c) = [] := by
    obtain ⟨b, blanks', rfl⟩ := List.exists_cons_of_ne_nil hblanks.ne_nil
    simp [hblanks.all b List.mem_cons_self]
  -- on both sides stands what comes before the first blank
  calc front = (front ++ text).takeWhile (fun c => !isBlank c) := by
        rw [List.takeWhile_append_of_pos (by simpa [Unbroken] using hfront), hrest, List.append_nil]
    _ = (d.keyword.toList ++ (blanks ++ (declaration.name ++ behind))).takeWhile
          (fun c => !isBlank c) := by rw [htext]; simp only [List.append_assoc]
    _ = d.keyword.toList := by
        rw [List.takeWhile_append_of_pos (by simpa [Unbroken] using hd), hbehind, List.append_nil]

/-- Blanks declare nothing. -/
theorem namesIn_append_of_isBlank (hne : d.keyword ≠ "") (hd : Unbroken d.keyword.toList)
    {gap : List Char} (hgap : ∀ c ∈ gap, isBlank c = true) (rest : List Char) :
    d.namesIn 0 (gap ++ rest) = d.namesIn 0 rest := by
  obtain ⟨k, keyword, hkeyword⟩ := List.exists_cons_of_ne_nil (mt String.toList_eq_nil_iff.mp hne)
  refine namesIn_append_of_notMem (k := k) (by rw [hkeyword]; rfl) (fun hmem => ?_) rest
  have hblank := hd k (by rw [hkeyword]; exact List.mem_cons_self)
  rw [hgap k hmem] at hblank
  cases hblank

theorem isRun_gap {gap : List Char} (hne : gap ≠ []) (hgap : ∀ c ∈ gap, isBlank c = true)
    (hpiece : Unbroken piece) (hpiecene : piece ≠ []) (rest : List Char) :
    IsRun isBlank gap (piece ++ rest) where
  ne_nil := hne
  all := hgap
  stops c hc := by
    obtain ⟨p, piece, rfl⟩ := List.exists_cons_of_ne_nil hpiecene
    obtain rfl : p = c := by simpa using hc
    exact hpiece p List.mem_cons_self

/-- Behind the keyword and a gap, the name is that of the next piece. -/
theorem declaration?_keyword_spaced {gap : List Char} (hgap : IsRun isBlank gap (piece ++ rest))
    (h : Spaced parts rest) :
    d.declaration? (d.keyword.toList ++ (gap ++ (piece ++ rest))) =
      (name? d.shape piece).map fun name =>
        ⟨name, d.keyword.toList.length + gap.length + name.length⟩ := by
  rw [declaration?_keyword_append, hgap.takeWhile_eq, if_neg hgap.ne_nil, hgap.dropWhile_eq,
    name?_append_spaced d.shape h]

/-- **The scanner reads pieces**: behind a front without blanks it finds what the pieces declare. -/
theorem namesIn_spaced (hne : d.keyword ≠ "") (hd : Unbroken d.keyword.toList)
    (h : Spaced parts text) (hfront : Unbroken front) :
    d.namesIn 0 (front ++ text) = d.namesAcross front parts := by
  induction h generalizing front with
  | @nil gap hgap =>
    have hblank : gap.Pairwise fun a b => isBlank a = true → isBlank b = true := by
      refine List.pairwise_iff_forall_sublist.mpr fun hab _ => ?_
      exact hgap _ (hab.subset (List.mem_cons_of_mem _ List.mem_cons_self))
    exact namesIn_append_eq_nil hfront hblank
  | @cons gap piece rest parts hgapne hgap hpiece hpiecene hrest ih =>
    induction front with
    | nil =>
      rw [List.nil_append, namesIn_append_of_isBlank hne hd hgap, ih hpiece,
        namesAcross_cons_of_not_suffix (not_suffix_nil hne)]
    | cons c front ihfront =>
      have hfront' : Unbroken front := (List.forall_mem_cons.mp hfront).2
      have hspaced : Spaced (piece :: parts) (gap ++ (piece ++ rest)) :=
        .cons hgapne hgap hpiece hpiecene hrest
      by_cases hkeyword : c :: front = d.keyword.toList
      · have hdeclaration := declaration?_keyword_spaced (d := d)
          (isRun_gap hgapne hgap hpiece hpiecene rest) hrest
        rw [← hkeyword] at hdeclaration
        cases hname : name? d.shape piece with
        | none =>
          rw [hname, Option.map_none, List.cons_append] at hdeclaration
          rw [List.cons_append, namesIn_of_eq_none hdeclaration, ihfront hfront',
            namesAcross_cons_of_eq_none hname, namesAcross_cons_of_eq_none hname]
        | some name =>
          -- the scanner goes on in the same piece, behind the name
          obtain ⟨behind, rfl, -⟩ := name?_eq_some_iff.mp hname
          have hbehind : Unbroken behind := fun b hb => hpiece b (List.mem_append_right name hb)
          have htext : c :: front ++ (gap ++ (name ++ behind ++ rest)) =
              c :: front ++ gap ++ name ++ (behind ++ rest) := by
            simp only [List.append_assoc]
          rw [hname, Option.map_some, htext] at hdeclaration
          have hwidth : (c :: front).length + gap.length + name.length =
              (c :: front ++ gap ++ name).length := by
            rw [List.length_append, List.length_append]
          rw [htext, namesIn_of_declaration? hdeclaration hwidth, ih hbehind,
            namesAcross_cons_of_eq_some (hkeyword ▸ List.suffix_refl _) hname, List.drop_left]
      · have hnone := declaration?_append_spaced hd hfront hspaced hkeyword
        have hsuffix : d.keyword.toList <:+ c :: front ↔ d.keyword.toList <:+ front := by
          rw [List.suffix_cons_iff]
          exact or_iff_right (Ne.symm hkeyword)
        rw [List.cons_append] at hnone
        rw [List.cons_append, namesIn_of_eq_none hnone, ihfront hfront', namesAcross, namesAcross]
        simp only [hsuffix]

/-- **The scanner finds what the pieces declare.** -/
theorem scan_eq_namesAcross (hne : d.keyword ≠ "") (hd : Unbroken d.keyword.toList)
    (source : String) :
    d.scan source = d.namesAcross [] (pieces source.toList) := by
  obtain ⟨front, parts, rest, htext, hfront, hsplit, hspaced⟩ := exists_spaced source.toList
  rw [scan_eq_namesIn, htext, namesIn_spaced hne hd hspaced hfront, ← htext, pieces, hsplit]
  by_cases hfrontne : front = []
  · subst hfrontne
    rfl
  · rw [List.filter_cons_of_pos (by simp [hfrontne]),
      namesAcross_cons_of_not_suffix (not_suffix_nil hne)]

end Declarator

theorem Kind.unbroken_keyword (kind : Kind) :
    kind.declarator.keyword ≠ "" ∧ Text.Unbroken kind.declarator.keyword.toList := by
  cases kind <;> decide

namespace Context

/-- Sources that declare the same names make the same changes. -/
theorem extract_congr {a b : String} (h : ∀ kind : Kind, kind.scan a = kind.scan b)
    (ctx : Context) : ctx.extract a = ctx.extract b := by
  have hfresh : ∀ kind, ctx.fresh kind a = ctx.fresh kind b := fun kind => by
    rw [fresh, fresh, h kind]
  refine Prod.ext (ext_names fun kind => ?_) (Growth.ext_count fun kind => ?_)
  · rw [names_extract, names_extract, hfresh]
  · rw [count_extract, count_extract, hfresh]

/-- Sources of the same pieces make the same changes. -/
theorem extract_of_pieces_eq {a b : String} (h : Text.pieces a.toList = Text.pieces b.toList)
    (ctx : Context) : ctx.extract a = ctx.extract b := by
  refine extract_congr (fun kind => ?_) ctx
  obtain ⟨hne, hd⟩ := kind.unbroken_keyword
  rw [Kind.scan, Kind.scan, Declarator.scan_eq_namesAcross hne hd,
    Declarator.scan_eq_namesAcross hne hd, h]

end Context

/-- **Layout does not matter.** For every source:
* a keyword that is not empty and holds no blank declares the same names, in the same order, in the
  source, in the source with its pieces one space apart, and in every source of the same pieces;
* the keywords of modules, structs and functions are such;
* an extraction from the source, from the source with its pieces one space apart and from every
  source of the same pieces changes a context alike, and counts alike. -/
theorem scan_ignores_layout (source : String) :
    (∀ d : Declarator, d.keyword ≠ "" → Text.Unbroken d.keyword.toList →
        d.scan source = d.scan (Text.respaced source) ∧
          ∀ other, Text.pieces other.toList = Text.pieces source.toList →
            d.scan other = d.scan source) ∧
      (∀ kind : Kind, kind.declarator.keyword ≠ "" ∧
        Text.Unbroken kind.declarator.keyword.toList) ∧
      ∀ ctx : Context, ctx.extract source = ctx.extract (Text.respaced source) ∧
        ∀ other, Text.pieces other.toList = Text.pieces source.toList →
          ctx.extract other = ctx.extract source := by
  have hrespaced := Text.pieces_respaced source
  refine ⟨fun d hne hd => ?_, Kind.unbroken_keyword, fun ctx => ⟨?_, fun other hother => ?_⟩⟩
  · have hscan : ∀ other, Text.pieces other.toList = Text.pieces source.toList →
        d.scan other = d.scan source := by
      intro other hother
      rw [Declarator.scan_eq_namesAcross hne hd, Declarator.scan_eq_namesAcross hne hd, hother]
    exact ⟨(hscan _ hrespaced).symm, hscan⟩
  · exact Context.extract_of_pieces_eq hrespaced.symm ctx
  · exact Context.extract_of_pieces_eq hother ctx

/-- Blanks of several kinds, also at the ends. The keyword ends a longer piece, is read as the name
behind it, and then declares a name itself. -/
theorem scan_ignores_layout_gaps :
    let source := "\u3000defun\t\n\u00a0fun  fun\r\nx::y "
    let other := "defun fun fun\u2028x::y"
    let d : Declarator := ⟨"fun", .plain⟩
    d.keyword ≠ "" ∧ Text.Unbroken d.keyword.toList ∧
      Text.pieces other.toList = Text.pieces source.toList ∧
      d.scan source = d.scan "defun fun fun x::y" ∧ d.scan other = d.scan source ∧
      (∅ : Context).extract other = (∅ : Context).extract source ∧
      d.scan other = ["fun", "x"] := by
  intro source other d
  have hne : d.keyword ≠ "" := by decide
  have hd : Text.Unbroken d.keyword.toList := by decide
  have hpieces : Text.pieces other.toList = Text.pieces source.toList := by decide +kernel
  have hrespaced : Text.respaced source = "defun fun fun x::y" := by decide +kernel
  obtain ⟨hscan, -, hextract⟩ := scan_ignores_layout source
  refine ⟨hne, hd, hpieces, ?_, (hscan d hne hd).2 other hpieces, (hextract ∅).2 other hpieces, ?_⟩
  · rw [(hscan d hne hd).1, hrespaced]
  · decide +kernel

end MoveDesk
