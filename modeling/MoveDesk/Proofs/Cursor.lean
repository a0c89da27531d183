import Mathlib.Logic.Relation
import MoveDesk.Declarator.Cursor
import MoveDesk.Proofs.Separation
import MoveDesk.Proofs.Slices
import MoveDesk.Proofs.Surroundings

/-!
# The scanner on bytes follows the scanner

Every offset of the scanner on bytes is the place of a character. The readers `behindBlanks?`,
`behindWord?`, `behindName?` and `nameSpan?` find from a place between characters what the readers
of the scanner find there, and so does a pass. `Follows` is the invariant of the passes: the cursor
stands between characters, and the names that are declared before it have been found.

One byte behind the first of a keyword is a place between characters because the keyword is in
ASCII. Nothing else needs this.

Headlines:
* **`yields_nameSpan?`**: the span behind a keyword is that of the declared name.
* **`passed_of_follows`**: a pass does not fail, and moves the cursor ahead unless it is the last.
* **`pass_follows_scan`**: the passes come to an end and have found the scanned names.
-/

namespace MoveDesk.Declarator

open Text

variable {d : Declarator} {a b text : List Char}

/-! ## Reading from a place -/

theorem word?_eq_ite (text : List Char) :
    word? text = if text.takeWhile isWord = [] then none else some (text.takeWhile isWord) := by
  unfold word?
  split
  · rename_i hempty
    rw [if_pos hempty]
  · rename_i hne
    rw [if_neg hne]

section Qualified

variable {first rest : List Char}

theorem name?_colons (h : word? (first ++ ([':', ':'] ++ rest)) = some first) :
    name? .qualified (first ++ ([':', ':'] ++ rest)) =
      (word? rest).map fun second => first ++ ([':', ':'] ++ second) := by
  simp only [name?, h, Option.bind_eq_bind, Option.bind_some, List.drop_left]
  rw [Option.map_eq_bind]
  rfl

theorem name?_of_not_colons (h : word? (first ++ rest) = some first)
    (hcolons : ¬ [':', ':'] <+: rest) : name? .qualified (first ++ rest) = none := by
  simp only [name?, h, Option.bind_eq_bind, Option.bind_some, List.drop_left]
  split
  · exact absurd (List.prefix_append _ _) hcolons
  · rfl

end Qualified

theorem encode_colons : Text.encode "::" = bytesOf [':', ':'] := encode_eq_bytesOf "::"

theorem yields_behindBlanks? (a b : List Char) :
    Yields (bytesOf (a ++ b)) (behindBlanks? (bytesOf (a ++ b)) (bytesOf a).length)
      (if b.takeWhile isBlank = [] then none
        else some (bytesOf (a ++ b.takeWhile isBlank)).length) := by
  refine (yields_slice_behind a b).bind ?_
  have hlength : (bytesOf b).length =
      (bytesOf (b.takeWhile isBlank)).length + (bytesOf (b.dropWhile isBlank)).length := by
    rw [← List.length_append, ← bytesOf_append, List.takeWhile_append_dropWhile]
  simp only [runSize_bytesOf, List.length_drop, bytesOf_append, List.length_append]
  by_cases hblanks : b.takeWhile isBlank = []
  · rw [if_pos hblanks, if_pos (by rw [hblanks]; rfl)]
    exact .pure _ _
  · have hpos := List.length_pos_iff.mpr (bytesOf_ne_nil hblanks)
    have htrimmed : (bytesOf b).length - ((bytesOf b).length -
        (bytesOf (b.takeWhile isBlank)).length) = (bytesOf (b.takeWhile isBlank)).length := by omega
    rw [if_neg hblanks, if_neg (by omega), htrimmed]
    exact .pure _ _

theorem yields_behindWord? (a b : List Char) :
    Yields (bytesOf (a ++ b)) (behindWord? (bytesOf (a ++ b)) (bytesOf a).length)
      ((word? b).map fun word => (bytesOf (a ++ word)).length) := by
  refine (yields_slice_behind a b).bind ?_
  simp only [runSize_bytesOf, word?_eq_ite, bytesOf_append, List.length_append]
  by_cases hword : b.takeWhile isWord = []
  · rw [if_pos hword, hword]
    exact .pure _ _
  · have hpos := List.length_pos_iff.mpr (bytesOf_ne_nil hword)
    rw [if_neg hword, if_pos hpos]
    exact .pure _ _

theorem yields_behindName? (shape : NameShape) (a b : List Char) :
    Yields (bytesOf (a ++ b)) (behindName? shape (bytesOf (a ++ b)) (bytesOf a).length)
      ((name? shape b).map fun name => (bytesOf (a ++ name)).length) := by
  refine (yields_behindWord? a b).bind ?_
  cases hword : word? b with
  | none =>
    have hname : name? shape b = none := by simp [name?, hword]
    rw [hname]
    exact .pure _ _
  | some first =>
    obtain ⟨rest, rfl, -⟩ := word?_eq_some_iff.mp hword
    cases shape with
    | plain =>
      have hname : name? .plain (first ++ rest) = some first := by simp [name?, hword]
      rw [hname]
      exact .pure _ _
    | qualified =>
      rw [← List.append_assoc]
      refine (yields_slice_behind (a ++ first) rest).bind ?_
      have hstarts : (Text.encode "::").isPrefixOf (bytesOf rest) = true ↔ [':', ':'] <+: rest := by
        rw [List.isPrefixOf_iff_prefix, encode_colons, bytesOf_prefix_iff]
      simp only
      by_cases hcolons : [':', ':'] <+: rest
      · rw [if_pos (hstarts.mpr hcolons)]
        obtain ⟨behind, rfl⟩ := hcolons
        have hdrop : (bytesOf ([':', ':'] ++ behind)).drop (Text.encode "::").length =
            bytesOf behind := by
          rw [encode_colons, bytesOf_append, List.drop_left]
        have hoffset : (bytesOf (a ++ first ++ ([':', ':'] ++ behind))).length -
            (bytesOf behind).length = (bytesOf (a ++ first ++ [':', ':'])).length := by
          rw [← List.append_assoc, bytesOf_append _ behind, List.length_append, Nat.add_sub_cancel]
        rw [hdrop, hoffset, name?_colons hword, Option.map_map]
        have hsecond := yields_behindWord? (a ++ first ++ [':', ':']) behind
        simp only [List.append_assoc] at hsecond ⊢
        exact hsecond
      · rw [if_neg (mt hstarts.mp hcolons), name?_of_not_colons hword hcolons]
        exact .pure _ _

/-- **The span behind a keyword is that of the declared name.** -/
theorem yields_nameSpan? (d : Declarator) (a b : List Char) :
    Yields (bytesOf (a ++ b)) (nameSpan? d.shape (bytesOf (a ++ b)) (bytesOf a).length)
      ((d.declaration? (d.keyword.toList ++ b)).map fun declaration =>
        spanOf (a ++ b.takeWhile isBlank) declaration.name) := by
  refine (yields_behindBlanks? a b).bind ?_
  rw [declaration?_keyword_append]
  by_cases hblanks : b.takeWhile isBlank = []
  · rw [if_pos hblanks, if_pos hblanks]
    exact .pure _ _
  · rw [if_neg hblanks, if_neg hblanks]
    have hname := yields_behindName? d.shape (a ++ b.takeWhile isBlank) (b.dropWhile isBlank)
    rw [List.append_assoc, List.takeWhile_append_dropWhile] at hname
    refine hname.bind ?_
    cases name? d.shape (b.dropWhile isBlank) with
    | none => exact .pure _ _
    | some name => exact .pure _ _

/-! ## One pass -/

section Pass

variable {before after : List Char}

theorem offset?_keyword (hne : d.keyword ≠ "") (text : List Char) :
    offset? (Text.encode d.keyword) (bytesOf text) =
      (cut? d.keyword.toList text).map fun cut => (bytesOf cut.1).length := by
  rw [encode_eq_bytesOf]
  exact offset?_bytesOf (mt String.toList_eq_nil_iff.mp hne) text

/-- The span of the name, read where a pass reads it. -/
theorem yields_nameSpan?_behind (d : Declarator) (a before after : List Char) :
    Yields (bytesOf (a ++ (before ++ d.keyword.toList ++ after)))
      (nameSpan? d.shape (bytesOf (a ++ (before ++ d.keyword.toList ++ after)))
        ((bytesOf a).length + (bytesOf before).length + (Text.encode d.keyword).length))
      ((d.declaration? (d.keyword.toList ++ after)).map fun declaration =>
        spanOf (a ++ before ++ d.keyword.toList ++ after.takeWhile isBlank) declaration.name) := by
  have h := yields_nameSpan? d (a ++ before ++ d.keyword.toList) after
  simpa only [bytesOf_append, List.length_append, List.append_assoc, Nat.add_assoc,
    encode_eq_bytesOf] using h

/-- A pass is the last where the keyword does not come any more. -/
theorem yields_pass_of_eq_none (hne : d.keyword ≠ "") (hcut : cut? d.keyword.toList b = none)
    (names : List Span) :
    Yields (bytesOf (a ++ b)) (d.pass (bytesOf (a ++ b)) ⟨(bytesOf a).length, names⟩) none := by
  refine (yields_slice_behind a b).bind ?_
  rw [offset?_keyword hne, hcut]
  exact .pure _ _

/-- A pass goes on one byte behind the start of a keyword without a name. -/
theorem yields_pass_of_missed (hne : d.keyword ≠ "")
    (hcut : cut? d.keyword.toList b = some (before, after))
    (hmissed : d.declaration? (d.keyword.toList ++ after) = none) (names : List Span) :
    Yields (bytesOf (a ++ b)) (d.pass (bytesOf (a ++ b)) ⟨(bytesOf a).length, names⟩)
      (some ⟨(bytesOf a).length + (bytesOf before).length + 1, names⟩) := by
  refine (yields_slice_behind a b).bind ?_
  rw [offset?_keyword hne, hcut]
  obtain ⟨rfl, -⟩ := cut?_eq_some_iff.mp hcut
  refine (yields_nameSpan?_behind d a before after).bind ?_
  rw [hmissed]
  exact .pure _ _

/-- A pass goes on behind the name that it has found. -/
theorem yields_pass_of_declared (hne : d.keyword ≠ "") {blanks name rest : List Char} {width : Nat}
    (hcut : cut? d.keyword.toList b = some (before, blanks ++ (name ++ rest)))
    (hblanks : IsRun isBlank blanks (name ++ rest))
    (hdeclared : d.declaration? (d.keyword.toList ++ (blanks ++ (name ++ rest))) =
      some ⟨name, width⟩) (names : List Span) :
    let front := a ++ before ++ d.keyword.toList ++ blanks
    Yields (bytesOf (a ++ b)) (d.pass (bytesOf (a ++ b)) ⟨(bytesOf a).length, names⟩)
      (some ⟨(bytesOf (front ++ name)).length, names ++ [spanOf front name]⟩) := by
  intro front
  refine (yields_slice_behind a b).bind ?_
  rw [offset?_keyword hne, hcut]
  obtain ⟨rfl, -⟩ := cut?_eq_some_iff.mp hcut
  refine (yields_nameSpan?_behind d a before _).bind ?_
  rw [hdeclared, hblanks.takeWhile_eq]
  have hslice := yields_slice front name rest
  have hparts : front ++ name ++ rest =
      a ++ (before ++ d.keyword.toList ++ (blanks ++ (name ++ rest))) := by
    simp only [front, List.append_assoc]
  rw [hparts] at hslice
  exact hslice.bind (.pure _ _)

end Pass

/-! ## The names behind a place -/

/-- Nothing is declared where the keyword does not come. -/
theorem namesIn_of_no_keyword (h : ¬ d.keyword.toList <:+: text) : d.namesIn 0 text = [] := by
  induction text with
  | nil => rfl
  | cons c text ih =>
    rw [List.infix_cons_iff, not_or] at h
    rw [namesIn_of_eq_none (declaration?_of_no_keyword h.1), ih h.2]

/-- Nothing is declared before the first place of the keyword. -/
theorem namesIn_append_of_firstBehind {before : List Char}
    (h : FirstBehind d.keyword.toList before) (after : List Char) :
    d.namesIn 0 (before ++ d.keyword.toList ++ after) =
      d.namesIn 0 (d.keyword.toList ++ after) := by
  induction before with
  | nil => rfl
  | cons c before ih =>
    have hnot : ¬ d.keyword.toList <+: c :: (before ++ d.keyword.toList ++ after) := fun hstarts =>
      List.cons_ne_nil c before (h.eq_nil_of_prefix hstarts)
    rw [List.cons_append, List.cons_append,
      namesIn_of_eq_none (declaration?_of_no_keyword hnot), ih h.tail]

/-- A keyword without a name is passed by with its first character. -/
theorem namesIn_keyword_of_eq_none (hne : d.keyword ≠ "") {after : List Char}
    (h : d.declaration? (d.keyword.toList ++ after) = none) :
    d.namesIn 0 (d.keyword.toList ++ after) = d.namesIn 0 (d.keyword.toList.tail ++ after) := by
  obtain ⟨k, keyword, hkeyword⟩ := List.exists_cons_of_ne_nil (mt String.toList_eq_nil_iff.mp hne)
  rw [hkeyword, List.cons_append] at h ⊢
  exact namesIn_of_eq_none h

/-- Behind a keyword with a name stand blanks, the name, and what is declared behind it. -/
theorem namesIn_keyword_of_eq_some {after name : List Char} {width : Nat}
    (h : d.declaration? (d.keyword.toList ++ after) = some ⟨name, width⟩) :
    ∃ blanks rest, after = blanks ++ (name ++ rest) ∧ IsRun isBlank blanks (name ++ rest) ∧
      d.namesIn 0 (d.keyword.toList ++ after) = String.ofList name :: d.namesIn 0 rest := by
  obtain ⟨blanks, rest, htext, hblanks, -, hwidth⟩ := declaration?_eq_some_iff.mp h
  refine ⟨blanks, rest, ?_, hblanks, ?_⟩
  · simpa only [List.append_assoc, List.append_cancel_left_eq] using htext
  · rw [htext] at h ⊢
    exact namesIn_of_declaration? h (by simpa only [List.length_append] using hwidth)

/-! ## The invariant -/

/-- The spans are those of the names that are declared in the text before `ahead`. -/
def Found (d : Declarator) (text ahead : List Char) (names : List Span) : Prop :=
  names.map (fun name => Text.decode? (name.part (bytesOf text))) ++
    (d.namesIn 0 ahead).map some = (d.namesIn 0 text).map some

/-- One more name is found. -/
theorem Found.concat {front name rest ahead : List Char} {names : List Span}
    (h : d.Found (front ++ name ++ rest) ahead names)
    (hnames : d.namesIn 0 ahead = String.ofList name :: d.namesIn 0 rest) :
    d.Found (front ++ name ++ rest) rest (names ++ [spanOf front name]) := by
  unfold Found at h ⊢
  rw [hnames, List.map_cons] at h
  rw [List.map_append, List.map_singleton, part_spanOf, decode?_bytesOf, ← h, List.append_assoc,
    List.singleton_append]

/-- The scanner stands between characters of the text, and has found what is declared before. -/
def Follows (d : Declarator) (text : List Char) (progress : Progress) : Prop :=
  ∃ behind ahead, text = behind ++ ahead ∧ progress.cursor = (bytesOf behind).length ∧
    d.Found text ahead progress.names

theorem follows_start (d : Declarator) (text : List Char) : d.Follows text {} :=
  ⟨[], text, rfl, rfl, rfl⟩

theorem Follows.cursor_le {progress : Progress} (h : d.Follows text progress) :
    progress.cursor ≤ (bytesOf text).length := by
  obtain ⟨behind, ahead, rfl, hcursor, -⟩ := h
  rw [hcursor, bytesOf_append, List.length_append]
  exact Nat.le_add_right _ _

/-- What a pass comes to where the scanner follows the text. -/
inductive Passed (d : Declarator) (text : List Char) (progress : Progress) : Prop
  | last (hpass : Yields (bytesOf text) (d.pass (bytesOf text) progress) none)
      (hfound : d.Found text [] progress.names)
  | next {further : Progress}
      (hpass : Yields (bytesOf text) (d.pass (bytesOf text) progress) (some further))
      (hcursor : progress.cursor < further.cursor) (hfollows : d.Follows text further)

section Passed

variable {behind ahead before after : List Char} {names : List Span}

theorem passed_of_missed (hne : d.keyword ≠ "") (hascii : IsAscii d.keyword.toList)
    (hcut : cut? d.keyword.toList ahead = some (before, after))
    (hmissed : d.declaration? (d.keyword.toList ++ after) = none)
    (hfound : d.Found (behind ++ ahead) (d.keyword.toList ++ after) names) :
    d.Passed (behind ++ ahead) ⟨(bytesOf behind).length, names⟩ := by
  refine .next (yields_pass_of_missed hne hcut hmissed names) ?_ ?_
  · simp only
    omega
  · obtain ⟨rfl, -⟩ := cut?_eq_some_iff.mp hcut
    obtain ⟨k, keyword, hkeyword⟩ := List.exists_cons_of_ne_nil (mt String.toList_eq_nil_iff.mp hne)
    have hskipped : d.namesIn 0 (d.keyword.toList ++ after) = d.namesIn 0 (keyword ++ after) := by
      rw [namesIn_keyword_of_eq_none hne hmissed, hkeyword, List.tail_cons]
    rw [Found, hskipped] at hfound
    -- the byte that is passed by is a character
    have hk := length_bytesOf_singleton (hascii k (hkeyword ▸ List.mem_cons_self))
    refine ⟨behind ++ before ++ [k], keyword ++ after, ?_, ?_, hfound⟩
    · simp only [hkeyword, List.append_assoc, List.cons_append, List.nil_append]
    · simp only [bytesOf_append, List.length_append, hk]

theorem passed_of_declared (hne : d.keyword ≠ "") {name : List Char} {width : Nat}
    (hcut : cut? d.keyword.toList ahead = some (before, after))
    (hdeclared : d.declaration? (d.keyword.toList ++ after) = some ⟨name, width⟩)
    (hfound : d.Found (behind ++ ahead) (d.keyword.toList ++ after) names) :
    d.Passed (behind ++ ahead) ⟨(bytesOf behind).length, names⟩ := by
  obtain ⟨blanks, rest, rfl, hblanks, hnames⟩ := namesIn_keyword_of_eq_some hdeclared
  refine .next (yields_pass_of_declared hne hcut hblanks hdeclared names) ?_ ?_
  · have hkeyword : 0 < (bytesOf d.keyword.toList).length :=
      List.length_pos_iff.mpr (bytesOf_ne_nil (mt String.toList_eq_nil_iff.mp hne))
    simp only [bytesOf_append, List.length_append]
    omega
  · obtain ⟨rfl, -⟩ := cut?_eq_some_iff.mp hcut
    have hparts : behind ++ (before ++ d.keyword.toList ++ (blanks ++ (name ++ rest))) =
        behind ++ before ++ d.keyword.toList ++ blanks ++ name ++ rest := by
      simp only [List.append_assoc]
    rw [hparts] at hfound ⊢
    exact ⟨_, rest, rfl, rfl, hfound.concat hnames⟩

/-- **One pass** does not fail, and moves the cursor ahead unless it is the last. -/
theorem passed_of_follows (hne : d.keyword ≠ "") (hascii : IsAscii d.keyword.toList)
    {progress : Progress} (h : d.Follows text progress) : d.Passed text progress := by
  obtain ⟨behind, ahead, rfl, hcursor, hfound⟩ := h
  obtain ⟨cursor, names⟩ := progress
  obtain rfl : cursor = (bytesOf behind).length := hcursor
  unfold Found at hfound
  cases hcut : cut? d.keyword.toList ahead with
  | none =>
    rw [namesIn_of_no_keyword (cut?_eq_none_iff.mp hcut)] at hfound
    exact .last (yields_pass_of_eq_none hne hcut names) hfound
  | some cut =>
    obtain ⟨before, after⟩ := cut
    obtain ⟨hahead, hfirst⟩ := cut?_eq_some_iff.mp hcut
    have hnames : d.namesIn 0 ahead = d.namesIn 0 (d.keyword.toList ++ after) :=
      hahead ▸ namesIn_append_of_firstBehind hfirst after
    rw [hnames] at hfound
    cases hdeclaration : d.declaration? (d.keyword.toList ++ after) with
    | none => exact passed_of_missed hne hascii hcut hdeclaration hfound
    | some declaration => exact passed_of_declared hne hcut hdeclaration hfound

end Passed

/-! ## The run -/

/-- A pass leads from one state of the scanner to the next. -/
def Passes (d : Declarator) (source : Bytes) (progress further : Progress) : Prop :=
  ∃ spans, (d.pass source progress).run [] = .ok (some further, spans)

/-- The states that the scanner comes to. -/
def Reach (d : Declarator) (source : Bytes) (progress : Progress) : Prop :=
  Relation.ReflTransGen (d.Passes source) {} progress

theorem follows_of_reach (hne : d.keyword ≠ "") (hascii : IsAscii d.keyword.toList)
    {progress : Progress} (h : d.Reach (bytesOf text) progress) : d.Follows text progress := by
  induction h with
  | refl => exact follows_start d text
  | tail _ hpasses ih =>
    obtain ⟨spans, hrun⟩ := hpasses
    cases passed_of_follows hne hascii ih with
    | last hpass => cases hpass.eq_of_run hrun
    | next hpass _ hfollows =>
      cases hpass.eq_of_run hrun
      exact hfollows

/-- **There is a last pass**, by induction on the number of bytes behind the cursor. -/
theorem exists_last (hne : d.keyword ≠ "") (hascii : IsAscii d.keyword.toList)
    {progress : Progress} (h : d.Reach (bytesOf text) progress) :
    ∃ final, d.Reach (bytesOf text) final ∧
      Yields (bytesOf text) (d.pass (bytesOf text) final) none ∧ d.Found text [] final.names := by
  induction hleft : (bytesOf text).length - progress.cursor using Nat.strong_induction_on
    generalizing progress with
  | _ left ih =>
    cases passed_of_follows hne hascii (follows_of_reach hne hascii h) with
    | last hpass hfound => exact ⟨progress, h, hpass, hfound⟩
    | @next further hpass hcursor hfollows =>
      obtain ⟨spans, hrun, -⟩ := hpass []
      have hle := hfollows.cursor_le
      have hless : (bytesOf text).length - further.cursor < left := by omega
      exact ih _ hless (h.tail ⟨_, hrun⟩) rfl

/-- **The scanner on bytes cuts between characters, always goes on, and finds the scanned names.**
Where the bytes are those of a source, and the keyword is in ASCII and not empty:
* in every state that the scanner comes to, the cursor is an offset in the bytes or their end, and
  the pass from there does not fail: each slice that it cuts out lies within the bytes and between
  characters. Unless it is the last, the cursor moves ahead, and not beyond the end of the bytes;
* the scanner comes to a last pass;
* the spans that it has found by then are, in order, those of the scanned names. -/
theorem pass_follows_scan {bytes : Bytes} {source : String} (hne : d.keyword ≠ "")
    (hascii : IsAscii d.keyword.toList) (hsource : Text.decode? bytes = some source) :
    (∀ progress, d.Reach bytes progress → progress.cursor ≤ bytes.length ∧
      ∃ next spans, (d.pass bytes progress).run [] = .ok (next, spans) ∧
        (∀ span ∈ spans, span.Fits bytes) ∧
        ∀ further ∈ next, progress.cursor < further.cursor ∧ further.cursor ≤ bytes.length) ∧
      ∃ final spans, d.Reach bytes final ∧ (d.pass bytes final).run [] = .ok (none, spans) ∧
        final.names.map (fun name => Text.decode? (name.part bytes)) =
          (d.scan source).map some := by
  obtain rfl : bytes = bytesOf source.toList :=
    (decode?_eq_some_iff.mp hsource).trans (encode_eq_bytesOf source)
  refine ⟨fun progress hreach => ?_, ?_⟩
  · have hfollows := follows_of_reach hne hascii hreach
    refine ⟨hfollows.cursor_le, ?_⟩
    cases passed_of_follows hne hascii hfollows with
    | last hpass =>
      obtain ⟨spans, hrun, hfits⟩ := hpass []
      exact ⟨none, spans, hrun, hfits, fun _ hnone => by cases hnone⟩
    | @next further hpass hcursor hfurther =>
      obtain ⟨spans, hrun, hfits⟩ := hpass []
      refine ⟨some further, spans, hrun, hfits, fun other hother => ?_⟩
      obtain rfl := Option.some.inj hother
      exact ⟨hcursor, hfurther.cursor_le⟩
  · obtain ⟨final, hreach, hpass, hfound⟩ := exists_last hne hascii Relation.ReflTransGen.refl
    obtain ⟨spans, hrun, -⟩ := hpass []
    refine ⟨final, spans, hreach, hrun, ?_⟩
    rw [scan_eq_namesIn, ← hfound]
    exact (List.append_nil _).symm

/-- Characters of several bytes stand before the keyword, between it and the name, and in the name
on both sides of the colons. The second keyword has a blank of two bytes and no address behind. -/
theorem pass_follows_scan_wide_characters :
    let d : Declarator := ⟨"module", .qualified⟩
    let source := "// modulé\nmodule\u3000é::ü\u2003module\u00a0ж"
    let bytes := Text.encode source
    d.keyword ≠ "" ∧ IsAscii d.keyword.toList ∧ Text.decode? bytes = some source ∧
      (∀ progress, d.Reach bytes progress → progress.cursor ≤ bytes.length ∧
        ∃ next spans, (d.pass bytes progress).run [] = .ok (next, spans) ∧
          (∀ span ∈ spans, span.Fits bytes) ∧
          ∀ further ∈ next, progress.cursor < further.cursor ∧ further.cursor ≤ bytes.length) ∧
      ∃ final spans, d.Reach bytes final ∧ (d.pass bytes final).run [] = .ok (none, spans) ∧
        final.names.map (fun name => Text.decode? (name.part bytes)) = [some "é::ü"] := by
  intro d source bytes
  have hne : d.keyword ≠ "" := by decide
  have hascii : IsAscii d.keyword.toList := by decide
  have hsource : Text.decode? bytes = some source := decode?_encode source
  have hscan : d.scan source = ["é::ü"] := by decide +kernel
  obtain ⟨hpasses, final, spans, hreach, hrun, hnames⟩ := pass_follows_scan hne hascii hsource
  rw [hscan] at hnames
  exact ⟨hne, hascii, hsource, hpasses, final, spans, hreach, hrun, hnames⟩

/-- Behind the first byte of a keyword that is not in ASCII there need not be a character. -/
example :
    let d : Declarator := ⟨"é", .plain⟩
    let bytes := Text.encode "é"
    ((d.pass bytes {}).run []).toOption = some (some ⟨1, []⟩, [⟨0, 2⟩, ⟨2, 2⟩]) ∧
      ((d.pass bytes ⟨1, []⟩).run []).toOption = none := by
  decide +kernel

end MoveDesk.Declarator
