import MoveDesk.Proofs.Find
import MoveDesk.Proofs.Pieces
import MoveDesk.Proofs.Script

/-!
# Code that is entered line by line

A session takes the code of a block line by line, and drops the carriage returns at the end of each
line. So the text that it hands to the desk may differ from the one that was entered. What the desk
answers does not: the scanner reads pieces, which hold no blanks, and the rules of a review look for
literals, which hold neither a newline nor a carriage return.

Headlines:
* **`extract_block`**, **`review_block`**: the desk answers for the block as for the source.
* **`run_paste`**: a source that is entered is analyzed and reviewed as if it were handed over.
-/

namespace MoveDesk

namespace Text

/-! ## The lines of a source -/

/-- What stands between the newlines of the source. -/
def linesOf (source : String) : List String := (split '\n' source.toList).map String.ofList

theorem notMem_of_mem_split {α : Type} [DecidableEq α] {separator : α} {piece text : List α}
    (h : piece ∈ split separator text) : separator ∉ piece := by
  induction text generalizing piece with
  | nil =>
    obtain rfl := List.mem_singleton.mp h
    exact List.not_mem_nil
  | cons a rest ih =>
    rw [split] at h
    split at h
    · exact absurd h List.not_mem_nil
    · rename_i front pieces hsplit
      rw [hsplit] at ih
      split at h
      · rcases List.mem_cons.mp h with rfl | h
        · exact List.not_mem_nil
        · exact ih h
      · rename_i ha
        rcases List.mem_cons.mp h with rfl | h
        · exact List.not_mem_cons_of_ne_of_not_mem (Ne.symm ha) (ih List.mem_cons_self)
        · exact ih (List.mem_cons_of_mem _ h)

theorem newline_notMem_linesOf (source : String) :
    ∀ line ∈ linesOf source, '\n' ∉ line.toList := by
  intro line hline
  obtain ⟨piece, hpiece, rfl⟩ := List.mem_map.mp hline
  rw [String.toList_ofList]
  exact notMem_of_mem_split hpiece

theorem linesOf_ne_nil (source : String) : linesOf source ≠ [] :=
  mt List.map_eq_nil_iff.mp (split_ne_nil '\n' source.toList)

theorem intercalate_linesOf (source : String) : "\n".intercalate (linesOf source) = source :=
  intercalate_pieces rfl source

/-- Texts as lines are the texts with newlines between them, and one behind. -/
theorem asLines_eq {texts : List String} (h : texts ≠ []) :
    asLines texts = "\n".intercalate texts ++ "\n" := by
  induction texts with
  | nil => exact absurd rfl h
  | cons text texts ih =>
    rw [asLines_cons]
    cases texts with
    | nil => simp [asLines]
    | cons next texts =>
      rw [ih (List.cons_ne_nil next texts), String.intercalate_cons_cons]
      simp only [String.append_assoc]

/-! ## What a newline or a carriage return cannot change -/

variable {needle : List Char} {p : Char → Bool}

/-- The pieces of a text are those of its lines. -/
theorem pieces_intercalate_newline {texts : List String} (h : texts ≠ []) :
    pieces ("\n".intercalate texts).toList = texts.flatMap fun text => pieces text.toList := by
  rw [← pieces_asLines, asLines_eq h, String.toList_append]
  exact (List.append_nil _).symm.trans (pieces_append_cons (by decide) _ []).symm

/-- Blanks at the end of a text belong to no piece. -/
theorem pieces_rdropWhile (hp : ∀ c, p c = true → isBlank c = true) (text : List Char) :
    pieces (text.rdropWhile p) = pieces text := by
  induction text using List.reverseRecOn with
  | nil => rfl
  | append_singleton text c ih =>
    by_cases hc : p c = true
    · rw [List.rdropWhile_concat_pos _ _ _ hc, ih, pieces_append_cons (hp c hc), pieces_nil,
        List.append_nil]
    · rw [List.rdropWhile_concat_neg _ _ _ hc]

/-- What holds no newline stands in one of the lines. -/
theorem infix_intercalate_iff (hne : needle ≠ []) (hneedle : '\n' ∉ needle) (texts : List String) :
    needle <:+: ("\n".intercalate texts).toList ↔ ∃ text ∈ texts, needle <:+: text.toList := by
  induction texts with
  | nil => simp [hne]
  | cons text texts ih =>
    cases texts with
    | nil => simp
    | cons next texts =>
      have hlines : ("\n".intercalate (text :: next :: texts)).toList =
          text.toList ++ '\n' :: ("\n".intercalate (next :: texts)).toList := by
        simp [String.intercalate_cons_cons]
      rw [hlines, infix_append_cons_iff hneedle, ih]
      simp only [List.exists_mem_cons_iff]

/-- What holds none of the characters that are dropped stands in what is left. -/
theorem infix_rdropWhile_iff (hne : needle ≠ []) (hneedle : ∀ c ∈ needle, p c = false)
    (text : List Char) : needle <:+: text.rdropWhile p ↔ needle <:+: text := by
  induction text using List.reverseRecOn with
  | nil => exact Iff.rfl
  | append_singleton text c ih =>
    by_cases hc : p c = true
    · have hmem : c ∉ needle := fun hmem => by simp [hneedle c hmem] at hc
      rw [List.rdropWhile_concat_pos _ _ _ hc, ih, infix_append_cons_iff hmem, List.infix_nil]
      exact (or_iff_left hne).symm
    · rw [List.rdropWhile_concat_neg _ _ _ hc]

end Text

/-! ## What the desk answers for a block -/

namespace Entry

open Text

/-- A text in which no newline and no carriage return stands. -/
def IsMarkless (literal : String) : Prop :=
  literal ≠ "" ∧ '\n' ∉ literal.toList ∧ '\r' ∉ literal.toList

instance (literal : String) : Decidable (IsMarkless literal) :=
  inferInstanceAs (Decidable (_ ∧ _ ∧ _))

theorem map_stripped_ne_nil (source : String) : (linesOf source).map stripped ≠ [] :=
  mt List.map_eq_nil_iff.mp (linesOf_ne_nil source)

theorem toList_stripped (line : String) :
    (stripped line).toList = line.toList.rdropWhile (· = '\r') := String.toList_ofList

/-- Without carriage returns at the ends of its lines, a source is its own block. -/
theorem block_linesOf {source : String} (h : ∀ line ∈ linesOf source, ¬ ['\r'] <:+ line.toList) :
    block (linesOf source) = source := by
  have hline : ∀ line ∈ linesOf source, stripped line = line := by
    intro line hline
    have hkept : line.toList.rdropWhile (· = '\r') = line.toList := by
      refine List.rdropWhile_eq_self_iff.mpr fun hne hlast => h line hline ?_
      rw [← of_decide_eq_true hlast]
      exact ⟨_, List.dropLast_append_getLast hne⟩
    rw [stripped, hkept, String.ofList_toList]
  rw [block, List.map_congr_left hline, List.map_id', intercalate_linesOf]

/-- The block has the pieces of the source. -/
theorem pieces_block (source : String) :
    pieces (block (linesOf source)).toList = pieces source.toList := by
  have hstripped : ∀ line : String, pieces (stripped line).toList = pieces line.toList := by
    intro line
    rw [toList_stripped]
    refine pieces_rdropWhile (fun c hc => ?_) line.toList
    rw [of_decide_eq_true hc]
    decide
  calc pieces (block (linesOf source)).toList
      = ((linesOf source).map stripped).flatMap fun line => pieces line.toList :=
        pieces_intercalate_newline (map_stripped_ne_nil source)
    _ = (linesOf source).flatMap fun line => pieces line.toList := by
        rw [List.flatMap_map]
        simp only [hstripped]
    _ = pieces source.toList := by
        rw [← pieces_intercalate_newline (linesOf_ne_nil source), intercalate_linesOf]

/-- A literal stands in the block where it stands in the source, and only there. -/
theorem occursIn_block {literal : String} (h : IsMarkless literal) (source : String) :
    occursIn literal.toList (block (linesOf source)).toList =
      occursIn literal.toList source.toList := by
  obtain ⟨hne, hnewline, hreturn⟩ := h
  have hne : literal.toList ≠ [] := mt String.toList_eq_nil_iff.mp hne
  have hstripped : ∀ line : String,
      literal.toList <:+: (stripped line).toList ↔ literal.toList <:+: line.toList := by
    intro line
    rw [toList_stripped]
    refine infix_rdropWhile_iff hne (fun c hc => decide_eq_false ?_) line.toList
    rintro rfl
    exact hreturn hc
  rw [Bool.eq_iff_iff, occursIn_iff, occursIn_iff]
  calc literal.toList <:+: (block (linesOf source)).toList
      ↔ ∃ line ∈ (linesOf source).map stripped, literal.toList <:+: line.toList :=
        infix_intercalate_iff hne hnewline _
    _ ↔ ∃ line ∈ linesOf source, literal.toList <:+: line.toList := by
        simp only [List.mem_map, exists_exists_and_eq_and, hstripped]
    _ ↔ literal.toList <:+: source.toList := by
        rw [← infix_intercalate_iff hne hnewline, intercalate_linesOf]

theorem occurrence_block {present absent : List String}
    (h : ∀ literal ∈ present ++ absent, IsMarkless literal) (source : String) :
    ReviewRule.occurrence present absent (block (linesOf source)) =
      ReviewRule.occurrence present absent source := by
  obtain ⟨hpresent, habsent⟩ := List.forall_mem_append.mp h
  unfold ReviewRule.occurrence
  rw [Bool.eq_iff_iff, Bool.and_eq_true, Bool.and_eq_true, List.all_eq_true, List.all_eq_true,
    List.all_eq_true, List.all_eq_true]
  refine and_congr (forall₂_congr fun literal hmem => ?_) (forall₂_congr fun literal hmem => ?_)
  · rw [occursIn_block (hpresent literal hmem)]
  · rw [occursIn_block (habsent literal hmem)]

/-- **An extraction from the block** is one from the source. -/
theorem extract_block (ctx : Context) (source : String) :
    ctx.extract (block (linesOf source)) = ctx.extract source :=
  ctx.extract_of_pieces_eq (pieces_block source)

/-- **A review of the block** is one of the source. -/
theorem review_block (source : String) :
    Desk.review (block (linesOf source)) = Desk.review source := by
  have hfires : ∀ rule ∈ reviewRules,
      rule.fires (block (linesOf source)) = rule.fires source := by
    intro rule hrule
    simp only [reviewRules, List.mem_cons, List.not_mem_nil, or_false] at hrule
    rcases hrule with rfl | rfl | rfl
    all_goals
      simp only [ReviewRule.missingAcquires, ReviewRule.storedWithoutKey,
        ReviewRule.noErrorConstants]
      exact occurrence_block (by decide +kernel) source
  unfold Desk.review review firedFindings
  rw [List.filter_congr hfires]

end Entry

namespace Session

open Entry
open Text (linesOf)

/-! ## Sessions that are given a source -/

/-- The bytes of a source that is entered for a use, up to the line that ends it. -/
def pasted (use : CodeUse) (source : String) : Bytes :=
  Text.encode (codeChoice use ++ "\n" ++ source ++ "\n" ++ endOfCode)

variable {session : Session} {use : CodeUse} {source : String}

/-- The code that is read of a source that is entered is its block. -/
theorem readAll_linesOf (hstage : session.stage = .choice)
    (hword : ∀ line ∈ linesOf source, word line ≠ endOfCode) (use : CodeUse) :
    session.readAll (codeChoice use :: linesOf source) =
      ({ session with stage := .code use ((linesOf source).map stripped).reverse }, codePrompt) :=
  readAll_codeChoice hstage use hword (Text.newline_notMem_linesOf source)

/-- A session makes the same use of the block as of the source, whatever its stage. -/
theorem useCode_block_linesOf (session : Session) (stage : Stage) (use : CodeUse)
    (source : String) :
    useCode { session with stage } use (block (linesOf source)) = session.useCode use source := by
  cases use with
  | review => simp only [useCode, toMenu_eq, Report.review, review_block]
  | analyze => simp only [useCode, toMenu_eq, Desk.analyze, extract_block]

/-- The lines of a source that is entered, and the one that ends it. -/
theorem exists_lines_pasted (use : CodeUse) (source : String) {rest : Bytes}
    (hrest : ∀ b ∈ rest.head?, b = 0x0a) :
    ∃ line, word line = endOfCode ∧
      Text.lines 0x0a (pasted use source ++ rest) =
        (codeChoice use :: linesOf source).map lineBytes ++
          Text.encode line :: Text.lines 0x0a rest.tail := by
  have hmark : '\n' ∉ endOfCode.toList := by decide
  obtain ⟨line, hline, hlines⟩ := Text.exists_lines_encode hmark (by decide) hrest
  have hword : word line = endOfCode := by
    rcases hline with rfl | rfl <;> decide +kernel
  have hplain : ∀ line ∈ codeChoice use :: linesOf source, '\n' ∉ line.toList := by
    refine List.forall_mem_cons.mpr ⟨?_, Text.newline_notMem_linesOf source⟩
    cases use <;> decide
  have hpasted : pasted use source =
      Text.encode (asLines (codeChoice use :: linesOf source)) ++ Text.encode endOfCode := by
    rw [asLines_cons, Text.asLines_eq (Text.linesOf_ne_nil source), Text.intercalate_linesOf,
      ← Text.encode_append, pasted]
    simp only [String.append_assoc]
  refine ⟨line, hword, ?_⟩
  rw [hpasted, List.append_assoc, Text.lines_encode_asLines hplain, hlines]
  rfl

/-- **A source that is entered** is used as it is, and the session goes on from there. -/
theorem run_pasted (hstage : session.stage = .choice)
    (hword : ∀ line ∈ linesOf source, word line ≠ endOfCode) (use : CodeUse) {rest : Bytes}
    (hrest : ∀ b ∈ rest.head?, b = 0x0a) :
    (session.run (Text.lines 0x0a (pasted use source ++ rest))).delivered =
      ((session.useCode use source).1.run (Text.lines 0x0a rest.tail)).delivered.after
        (codePrompt ++ (session.useCode use source).2) := by
  obtain ⟨line, hend, hlines⟩ := exists_lines_pasted use source hrest
  have hleads : session.Leads (codeChoice use :: linesOf source) codePrompt
      { session with stage := .code use ((linesOf source).map stripped).reverse } :=
    leads_readAll (readAll_linesOf hstage hword use) (by simp)
  rcases huse : session.useCode use source with ⟨next, said⟩
  have hread : read { session with stage := .code use ((linesOf source).map stripped).reverse }
      line = (next, said) := by
    rw [read_endOfCode rfl hend, joinCode_reverse, useCode_block_linesOf, huse]
  rw [hlines, hleads, run_encode (by simp) hread, Transcript.Delivery.after_after]

/-- A session at the menu answers a review with the findings, and stays as it is. -/
theorem useCode_review (hstage : session.stage = .choice) (source : String) :
    session.useCode .review source =
      (session, "\n" ++
        asLines ((Desk.review source).map (·.paintedLine session.colors)) ++ menuText) := by
  have hback : atMenu session.desk session.colors = session := by
    rw [atMenu, ← hstage]
  simp only [useCode, toMenu_eq, hback]
  rfl

/-- A source that is entered for a review is answered with the findings. -/
theorem run_pasted_review (hstage : session.stage = .choice)
    (hword : ∀ line ∈ linesOf source, word line ≠ endOfCode) {rest : Bytes}
    (hrest : ∀ b ∈ rest.head?, b = 0x0a) :
    (session.run (Text.lines 0x0a (pasted .review source ++ rest))).delivered =
      (session.run (Text.lines 0x0a rest.tail)).delivered.after
        (codePrompt ++ "\n" ++
          asLines ((Desk.review source).map (·.paintedLine session.colors)) ++ menuText) := by
  simp only [run_pasted hstage hword .review hrest, useCode_review hstage, String.append_assoc]

/-- **Pasting is handing over.** Whatever the session has seen, and whatever stands behind the line
that ends the code: a source none of whose lines ends it,
* entered for an analysis, leaves the context that an analysis of the source itself leaves, and is
  answered with its growth;
* entered for a review, is answered with the findings about the source itself;
* is read without the carriage returns at the ends of its lines, so as it is if there are none. -/
theorem run_paste (session : Session) (hstage : session.stage = .choice) (source : String)
    (hword : ∀ line ∈ linesOf source, word line ≠ endOfCode) (rest : Bytes)
    (hrest : ∀ b ∈ rest.head?, b = 0x0a) :
    let delivered (use : CodeUse) :=
      (session.run (Text.lines 0x0a (pasted use source ++ rest))).delivered
    let others := Text.lines 0x0a rest.tail
    let analyzed := session.desk.analyze source
    delivered .analyze = (run { session with desk := analyzed.1 } others).delivered.after
        (codePrompt ++ "\nAdded to context: " ++ analyzed.2.text ++ "\n" ++ menuText) ∧
      delivered .review = (session.run others).delivered.after
        (codePrompt ++ "\n" ++
          asLines ((Desk.review source).map (·.paintedLine session.colors)) ++ menuText) ∧
      ∀ use, ∃ taken,
        session.readAll (codeChoice use :: linesOf source) =
            ({ session with stage := .code use taken }, codePrompt) ∧
          joinCode taken = "\n".intercalate ((linesOf source).map stripped) ∧
            ((∀ line ∈ linesOf source, ¬ ['\r'] <:+ line.toList) → joinCode taken = source) := by
  intro delivered others analyzed
  refine ⟨?_, run_pasted_review hstage hword hrest, fun use =>
    ⟨_, readAll_linesOf hstage hword use, joinCode_reverse _, fun h => ?_⟩⟩
  · have hused : session.useCode .analyze source =
        ({ session with desk := analyzed.1 },
          "\nAdded to context: " ++ analyzed.2.text ++ "\n" ++ menuText) := by
      simp only [useCode, toMenu_eq]
      rw [atMenu, ← hstage]
    simp only [delivered, others, run_pasted hstage hword .analyze hrest, hused,
      String.append_assoc]
  · rw [joinCode_reverse, block_linesOf h]

/-- Carriage returns at the ends of both lines, one of them twice. -/
theorem run_paste_carriage_returns :
    let source := "struct\r\r\nA fun f\r"
    let delivered (use : CodeUse) :=
      (({} : Session).run (Text.lines 0x0a (pasted use source ++ [0x0a]))).delivered
    (∀ line ∈ linesOf source, word line ≠ endOfCode) ∧
      (∀ b ∈ [0x0a].head?, b = (0x0a : UInt8)) ∧
      delivered .analyze = ⟨Text.encode (codePrompt ++
        "\nAdded to context: " ++ "+0 modules, +1 structs, +1 functions" ++ "\n" ++ menuText),
        ((∅ : Context).extract source).1, none⟩ ∧
      delivered .review = ⟨Text.encode (codePrompt ++ "\n" ++
        asLines [ReviewRule.noErrorConstants.finding.line] ++ menuText), ∅, none⟩ ∧
      ∃ taken, readAll {} (codeChoice .review :: linesOf source) =
          ({ stage := .code .review taken }, codePrompt) ∧
        joinCode taken = "struct\nA fun f" := by
  intro source delivered
  have hword : ∀ line ∈ linesOf source, word line ≠ endOfCode := by decide +kernel
  have hrest : ∀ b ∈ [0x0a].head?, b = (0x0a : UInt8) := by simp
  obtain ⟨hanalyze, hreview, hread⟩ := run_paste {} rfl source hword [0x0a] hrest
  have hgrowth : (({} : Desk).analyze source).2.text =
      "+0 modules, +1 structs, +1 functions" := by decide +kernel
  have hfindings : (Desk.review source).map (·.paintedLine false) =
      [ReviewRule.noErrorConstants.finding.line] := by decide +kernel
  have hend : ∀ desk, (run { desk } []).delivered = ⟨[], desk.context, none⟩ := fun _ => rfl
  refine ⟨hword, hrest, ?_, ?_, ?_⟩
  · simp only [delivered, hanalyze, hgrowth, List.tail_cons, Text.lines, hend,
      Transcript.Delivery.after, List.append_nil]
    rfl
  · simp only [delivered, hreview, hfindings, List.tail_cons, Text.lines, hend,
      Transcript.Delivery.after, List.append_nil]
  · obtain ⟨taken, hlines, hjoin, -⟩ := hread .review
    refine ⟨taken, hlines, hjoin.trans ?_⟩
    decide +kernel

end Session

end MoveDesk
