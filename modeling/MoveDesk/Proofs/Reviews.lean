import MoveDesk.Command
import MoveDesk.Proofs.Bodies
import MoveDesk.Proofs.Findings
import MoveDesk.Proofs.Json.Roundtrip
import MoveDesk.Proofs.Paste
import MoveDesk.Proofs.Service

/-!
# Reviews and where they are shown

The rules of a review know nothing of each other: what a table finds is what its rules find, one
after the other, so tables that are put together find what each of them finds. Only the confirmation
belongs to the table as a whole, and it is given where nothing else is (`review_eq`).

The findings about a source are shown as lines by the desk, the server, the command and a session,
and as data beside the lines where the answer is data. The findings of the built-in rules stand in
their lines, so nothing is lost on the way: each of the lines is read back as its finding.

Headlines:
* **`surfaces_review_alike`**: tables that are put together, and the places where a review is shown.
* **`review_confirming_and_coloured`**: a rule that confirms by itself, and a session in colours.
-/

namespace MoveDesk

/-! ## Tables of rules -/

section Tables

variable {rules others : List ReviewRule} {source : String} {finding : Finding}

/-- Some rule of the table fires. -/
def Fires (rules : List ReviewRule) (source : String) : Prop :=
  ∃ rule ∈ rules, rule.fires source = true

instance (rules : List ReviewRule) (source : String) : Decidable (Fires rules source) :=
  inferInstanceAs (Decidable (∃ rule ∈ rules, rule.fires source = true))

theorem fires_append :
    Fires (rules ++ others) source ↔ Fires rules source ∨ Fires others source := by
  simp only [Fires, List.mem_append, or_and_right, exists_or]

theorem firedFindings_append (rules others : List ReviewRule) (source : String) :
    firedFindings (rules ++ others) source =
      firedFindings rules source ++ firedFindings others source := by
  unfold firedFindings
  rw [List.filter_append, List.map_append]

theorem firedFindings_eq_nil_iff : firedFindings rules source = [] ↔ ¬ Fires rules source := by
  simp [firedFindings, Fires]

/-- **A review is what the rules find**, and the confirmation exactly where this is nothing. -/
theorem review_eq (rules : List ReviewRule) (source : String) :
    review rules source =
      firedFindings rules source ++ if Fires rules source then [] else [allClear] := by
  unfold review
  by_cases h : Fires rules source
  · have hne := mt firedFindings_eq_nil_iff.mp (not_not_intro h)
    rw [if_pos h, List.append_nil]
    split
    · contradiction
    · rfl
  · rw [if_neg h, firedFindings_eq_nil_iff.mpr h]
    rfl

theorem review_of_fires (h : Fires rules source) :
    review rules source = firedFindings rules source := by
  rw [review_eq, if_pos h, List.append_nil]

theorem review_of_not_fires (h : ¬ Fires rules source) : review rules source = [allClear] := by
  rw [review_eq, if_neg h, firedFindings_eq_nil_iff.mpr h, List.nil_append]

/-- A finding of a review is that of a rule that fires, or the confirmation. -/
theorem mem_review (h : finding ∈ review rules source) :
    (∃ rule ∈ rules, rule.fires source = true ∧ rule.finding = finding) ∨
      finding = allClear ∧ ¬ Fires rules source := by
  by_cases hfires : Fires rules source
  · rw [review_of_fires hfires] at h
    obtain ⟨rule, hrule, heq⟩ := List.mem_map.mp h
    obtain ⟨hmem, hfired⟩ := List.mem_filter.mp hrule
    exact .inl ⟨rule, hmem, hfired, heq⟩
  · rw [review_of_not_fires hfires] at h
    exact .inr ⟨List.mem_singleton.mp h, hfires⟩

end Tables

/-! ## Lines that are read back -/

namespace Desk

/-- What the built-in rules say starts with no blank, and has no newlines. -/
theorem plain_of_mem_review {source : String} {finding : Finding}
    (h : finding ∈ Desk.review source) :
    finding.IsTrimmed ∧ '\n' ∉ finding.message.toList := by
  -- The bytes of a message are decided about: the kernel is slow to decode them.
  have hall : ∀ finding ∈ allClear :: reviewRules.map (·.finding),
      (∃ b ∈ (Text.encode finding.message).head?,
        b.toNat < 0x80 ∧ Text.isBlank (Char.ofNat b.toNat) = false) ∧
      0x0a ∉ Text.encode finding.message := by
    decide +kernel
  have hmem : finding ∈ allClear :: reviewRules.map (·.finding) := by
    rcases mem_review h with ⟨rule, hrule, -, heq⟩ | ⟨rfl, -⟩
    · exact List.mem_cons_of_mem _ (List.mem_map.mpr ⟨rule, hrule, heq⟩)
    · exact List.mem_cons_self
  obtain ⟨⟨b, hb, hascii, hblank⟩, hnewline⟩ := hall finding hmem
  refine ⟨fun c hc => ?_, mt Text.newline_mem_encode_iff.mpr hnewline⟩
  rw [Text.head?_of_head?_encode hb hascii] at hc
  exact Option.some.inj hc ▸ hblank

theorem newline_notMem_reviewLines (source : String) :
    ∀ line ∈ reviewLines source, '\n' ∉ line.toList := by
  intro line hline
  obtain ⟨finding, hfinding, rfl⟩ := List.mem_map.mp hline
  have hmarkers : ∀ severity ∈ Severity.all, '\n' ∉ severity.marker.toList := by decide +kernel
  have hmarker := hmarkers finding.severity finding.severity.mem_all
  have hspace : '\n' ∉ [' '] := by decide
  rw [Finding.toList_line, List.mem_append, List.mem_append]
  rintro ((h | h) | h)
  · exact hmarker h
  · exact hspace h
  · exact (plain_of_mem_review hfinding).2 h

/-- **The lines of a review** are read back as its findings. -/
theorem parse?_reviewLines (source : String) :
    (reviewLines source).map Finding.parse? = (Desk.review source).map some := by
  rw [reviewLines, List.map_map]
  refine List.map_congr_left fun finding hfinding => ?_
  exact Finding.parse?_line_eq_some_iff.mpr (plain_of_mem_review hfinding).1

/-- A review as data: its lines, and its findings beside them. -/
def reviewAnswer (source : String) : Json :=
  .object [("findings", .array ((reviewLines source).map .text)),
    ("details", .array ((Desk.review source).map (·.told)))]

theorem isExact_reviewAnswer (source : String) : (reviewAnswer source).isExact = true := by
  have hdetails : ∀ findings : List Finding, Json.areExact (findings.map (·.told)) = true := by
    intro findings
    induction findings with
    | nil => rfl
    | cons finding findings ih => exact ih
  simp [reviewAnswer, Json.isExact, Json.haveExact, Json.areExact_texts, hdetails]

end Desk

/-! ## The server -/

namespace Http

namespace Server

/-- A request for a review is answered with the lines and the findings. -/
theorem serve_review (server : Server) {request : Request} {source : String}
    (hmethod : request.method = "POST") (hpath : request.path = "/api/v1/review".toList)
    (hcode : readCode request = .ok source) :
    (server.serve request).1 = server ∧ (server.serve request).2.status = 200 ∧
      (server.serve request).2.content = .json (Desk.reviewAnswer source) := by
  have hserve := serve_of_route server request
    (show ∀ part, Route.review ≠ .explain part from nofun) hpath
    (List.mem_singleton.mpr hmethod) (hmethod ▸ by decide)
  rw [hserve, grant, hcode]
  exact ⟨rfl, rfl, rfl⟩

end Server

end Http

/-! ## The command and the session -/

/-- Without colours the findings are shown as their lines. -/
theorem Finding.paintedLine_false (finding : Finding) :
    finding.paintedLine false = finding.line := by
  cases hseverity : finding.severity <;> simp only [paintedLine, hseverity, Text.Style.paint_false]

theorem Report.text_review (source : String) :
    (review source).text false = asLines (Desk.reviewLines source) := by
  simp only [review, Finding.paintedLine_false]
  rfl

/-- The text that a review is asked for: that of the path, or else the input. -/
def Sources.reviewed (sources : Sources) (path : Option String) : Except FileError String :=
  path.elim sources.readInput.2 fun path => (sources.read path).2

namespace Command

variable {bench : Bench} {path : Option String} {source : String}

theorem run_review (h : bench.sources.reviewed path = .ok source) :
    Command.run bench (.review path) = bench.present (.review source) := by
  cases path with
  | none =>
    rw [Command.run, show bench.sources.readInput.2 = _ from h]
    rfl
  | some path =>
    rw [Command.run, show (bench.sources.read path).2 = _ from h]
    rfl

/-- The command as JSON answers what the server answers. -/
theorem run_review_json (h : bench.sources.reviewed path = .ok source) :
    ∃ text, Command.run { bench with format := .json } (.review path) =
        .single text bench.desk.context ∧
      Json.parse? (Text.encode text) = some (Desk.reviewAnswer source) := by
  have hexact : (Report.review source).data.isExact = true :=
    Desk.isExact_reviewAnswer source
  exact ⟨(Report.review source).write .json bench.colors, run_review h,
    Report.parse?_write_json hexact bench.colors⟩

/-- The command as text shows the lines. -/
theorem run_review_text (h : bench.sources.reviewed path = .ok source) :
    Command.run { bench with format := .text, colors := false } (.review path) =
      .single (asLines (Desk.reviewLines source)) bench.desk.context := by
  refine Eq.trans (run_review h) ?_
  rw [← Report.text_review]
  rfl

end Command

theorem Session.codePrompt_append_newline :
    codePrompt ++ "\n" = "Paste Move code, then a line containing only END:\n\n" := by
  decide +kernel

/-- A source that is entered in a session for a review is answered with the lines. -/
theorem Session.run_pasted_review_lines {session : Session} {source : String}
    (hstage : session.stage = .choice) (hcolors : session.colors = false)
    (hword : ∀ line ∈ Text.linesOf source, Entry.trimmed line ≠ "END") {rest : Bytes}
    (hrest : ∀ b ∈ rest.head?, b = 0x0a) :
    (session.run (Text.lines 0x0a (pasted .review source ++ rest))).delivered =
      (session.run (Text.lines 0x0a rest.tail)).delivered.after
        (codePrompt ++ "\n" ++ asLines (Desk.reviewLines source) ++ menuText) := by
  rw [run_pasted_review hstage hword hrest, hcolors, ← Report.text_review]
  rfl

/-! ## All of them -/

/-- **Tables that are put together** find what each of them finds. -/
structure ReviewsCompose (rules others : List ReviewRule) (source : String) : Prop where
  /-- The rules that fire in the one table find what they find, and then those in the other. -/
  fired :
    let found (table : List ReviewRule) :=
      (table.filter (·.fires source)).map fun rule => (⟨rule.severity, rule.message⟩ : Finding)
    firedFindings (rules ++ others) source = found rules ++ found others
  /-- Where both tables fire, the review is both reviews. -/
  both : Fires rules source → Fires others source →
    review (rules ++ others) source = review rules source ++ review others source
  /-- Where only the first fires, it is the first review. -/
  first : Fires rules source → ¬ Fires others source →
    review (rules ++ others) source = review rules source
  /-- Where only the second fires, it is the second review. -/
  second : ¬ Fires rules source → Fires others source →
    review (rules ++ others) source = review others source
  /-- Where none fires, it is a single confirmation. -/
  none : ¬ Fires rules source → ¬ Fires others source → review (rules ++ others) source =
    [⟨.confirmation, "Code looks good! No obvious issues found."⟩]
  /-- Where no rule that fires confirms by itself, it is so only if none fires, and a confirmation
  is alone. -/
  alone : (∀ rule ∈ rules ++ others, rule.fires source = true → rule.severity ≠ .confirmation) →
    (review (rules ++ others) source =
        [⟨.confirmation, "Code looks good! No obvious issues found."⟩] ↔
      ¬ Fires rules source ∧ ¬ Fires others source) ∧
    ∀ finding ∈ review (rules ++ others) source, finding.severity = .confirmation →
      review (rules ++ others) source = [finding]

theorem reviewsCompose (rules others : List ReviewRule) (source : String) :
    ReviewsCompose rules others source := by
  have hfires : Fires (rules ++ others) source ↔ Fires rules source ∨ Fires others source :=
    fires_append
  have hnone : ¬ Fires (rules ++ others) source →
      review (rules ++ others) source = [allClear] := review_of_not_fires
  -- No rule that fires gives a confirmation of the review, so it is the one where none does.
  have hconfirmed :
      (∀ rule ∈ rules ++ others, rule.fires source = true → rule.severity ≠ .confirmation) →
      ∀ finding ∈ review (rules ++ others) source, finding.severity = .confirmation →
        finding = allClear ∧ ¬ Fires (rules ++ others) source := by
    intro hplain finding hfinding hseverity
    rcases mem_review hfinding with ⟨rule, hrule, hfired, rfl⟩ | hclear
    · exact absurd hseverity (hplain rule hrule hfired)
    · exact hclear
  refine ⟨firedFindings_append rules others source, fun hrules hothers => ?_,
    fun hrules hothers => ?_, fun hrules hothers => ?_, fun hrules hothers => ?_,
    fun hplain => ⟨⟨fun hall => ?_, fun hneither => ?_⟩, fun finding hfinding hseverity => ?_⟩⟩
  · rw [review_of_fires hrules, review_of_fires hothers, ← firedFindings_append]
    exact review_of_fires (hfires.mpr (.inl hrules))
  · rw [review_of_fires hrules, ← List.append_nil (firedFindings rules source),
      ← firedFindings_eq_nil_iff.mpr hothers, ← firedFindings_append]
    exact review_of_fires (hfires.mpr (.inl hrules))
  · rw [review_of_fires hothers, ← List.nil_append (firedFindings others source),
      ← firedFindings_eq_nil_iff.mpr hrules, ← firedFindings_append]
    exact review_of_fires (hfires.mpr (.inr hothers))
  · exact hnone fun h => (hfires.mp h).elim hrules hothers
  · rw [← not_or, ← hfires]
    exact (hconfirmed hplain _ (hall ▸ List.mem_cons_self) rfl).2
  · exact hnone fun h => (hfires.mp h).elim hneither.1 hneither.2
  · obtain ⟨rfl, hfree⟩ := hconfirmed hplain finding hfinding hseverity
    exact hnone hfree

/-- **A review is shown alike everywhere.** The built-in rules find the same about the source
wherever it is asked for. -/
structure ReviewShownAlike (source : String) : Prop where
  /-- The lines have no newlines. -/
  plain : ∀ line ∈ Desk.reviewLines source, '\n' ∉ line.toList
  /-- They are read back as the findings. -/
  parsed : (Desk.reviewLines source).map Finding.parse? = (Desk.review source).map some
  /-- Any JSON body that has the source as its code is read as the source. -/
  body : ∀ request : Http.Request, request.HasCode source →
    Http.Server.readCode request = .ok source
  /-- The server answers with the lines, and the findings beside them. -/
  server : ∀ (server : Http.Server) (request : Http.Request), request.method = "POST" →
    request.path = "/api/v1/review".toList → Http.Server.readCode request = .ok source →
      (server.serve request).1 = server ∧ (server.serve request).2.status = 200 ∧
        (server.serve request).2.content = .json (.object
          [("findings", .array ((Desk.reviewLines source).map .text)),
            ("details", .array ((Desk.review source).map (·.told)))])
  /-- The command answers the same as JSON. -/
  json : ∀ (bench : Bench) (path : Option String), bench.sources.reviewed path = .ok source →
    ∃ text, Command.run { bench with format := .json } (.review path) =
        .single text bench.desk.context ∧
      Json.parse? (Text.encode text) = some (.object
        [("findings", .array ((Desk.reviewLines source).map .text)),
          ("details", .array ((Desk.review source).map (·.told)))])
  /-- As text it answers with the lines. -/
  text : ∀ (bench : Bench) (path : Option String), bench.sources.reviewed path = .ok source →
    Command.run { bench with format := .text, colors := false } (.review path) =
      .single (String.join ((Desk.reviewLines source).map (· ++ "\n"))) bench.desk.context
  /-- So does a session, to a source none of whose lines ends it. -/
  session : ∀ session : Session, session.stage = .choice → session.colors = false →
    (∀ line ∈ Text.linesOf source, String.ofList (Text.trim line.toList) ≠ "END") →
    ∀ rest : Bytes, (∀ b ∈ rest.head?, b = 0x0a) →
      (session.run (Text.lines 0x0a (Session.pasted .review source ++ rest))).delivered =
        (session.run (Text.lines 0x0a rest.tail)).delivered.after
          ("Paste Move code, then a line containing only END:\n\n" ++
            String.join ((Desk.reviewLines source).map (· ++ "\n")) ++ Session.menuText)

theorem reviewShownAlike (source : String) : ReviewShownAlike source where
  plain := Desk.newline_notMem_reviewLines source
  parsed := Desk.parse?_reviewLines source
  body _ := Http.Server.readCode_of_hasCode
  server server _ := Http.Server.serve_review server
  json _ _ := Command.run_review_json
  text _ _ := Command.run_review_text
  session session hstage hcolors hword rest hrest := by
    have hsaid := Session.run_pasted_review_lines hstage hcolors hword hrest
    rwa [Session.codePrompt_append_newline] at hsaid

/-- **Reviews compose and are shown alike**: tables of rules that are put together find what each of
them finds, and the findings of the built-in rules are the same lines on all ways to them. -/
theorem surfaces_review_alike :
    (∀ (rules others : List ReviewRule) (source : String),
      ReviewsCompose rules others source) ∧
    ∀ source : String, ReviewShownAlike source :=
  ⟨reviewsCompose, reviewShownAlike⟩

/-- A borrow without a declaration, in a body among other fields, at the input, and in a session
that ends with its code. -/
theorem surfaces_review_alike_borrow :
    let source := "borrow_global_mut"
    let lines := ["⚠️ Warning: Functions using borrow_global_mut must declare 'acquires' " ++
        "for the resources they borrow.",
      "💡 Suggestion: Define error constants (e.g. const E_NOT_AUTHORIZED: u64 = 1;) " ++
        "to give aborts meaningful codes."]
    let details : List Json :=
      [.object [("severity", .text "warning"),
          ("message", .text ("Functions using borrow_global_mut must declare 'acquires' " ++
            "for the resources they borrow."))],
        .object [("severity", .text "suggestion"),
          ("message", .text ("Define error constants (e.g. const E_NOT_AUTHORIZED: u64 = 1;) " ++
            "to give aborts meaningful codes."))]]
    let fields := [("note", .null), ("code", .text source)]
    let request : Http.Request :=
      { method := "POST"
        path := "/api/v1/review".toList
        headers := [("content-type", "application/json")]
        body := Text.encode (Json.object fields).pretty }
    let bench : Bench := { sources := { input := Text.encode source } }
    request.HasCode source ∧ bench.sources.reviewed none = .ok source ∧
      review [.missingAcquires, .noErrorConstants] source =
        review [.missingAcquires] source ++ review [.noErrorConstants] source ∧
      Desk.reviewLines source = lines ∧
      (({} : Http.Server).serve request).2.content = .json (.object
        [("findings", .array (lines.map .text)), ("details", .array details)]) ∧
      Command.run bench (.review none) = .single (String.join (lines.map (· ++ "\n"))) ∅ ∧
      (({} : Session).run (Text.lines 0x0a (Session.pasted .review source))).delivered.written =
        Text.encode ("Paste Move code, then a line containing only END:\n\n" ++
          String.join (lines.map (· ++ "\n")) ++ Session.menuText) := by
  intro source lines details fields request bench
  obtain ⟨htables, hsources⟩ := surfaces_review_alike
  have hshown := hsources source
  have hparse : Json.parse? (request.body ++ []) = some (.object fields) :=
    Json.parse?_pretty rfl (List.forall_mem_nil _)
  rw [List.append_nil] at hparse
  have hrequest : request.HasCode source :=
    ⟨by decide +kernel, by decide +kernel, fields, hparse, rfl⟩
  have hinput : bench.sources.reviewed none = .ok source := Text.asText_encode source
  have hreview : Desk.review "borrow_global_mut" =
      [ReviewRule.missingAcquires.finding, ReviewRule.noErrorConstants.finding] := rfl
  have hlines : Desk.reviewLines source = lines :=
    (congrArg (List.map Finding.line) hreview).trans (by decide +kernel)
  have hdetails : (Desk.review source).map (·.told) = details :=
    congrArg (List.map Finding.told) hreview
  have hword : ∀ line ∈ Text.linesOf source,
      String.ofList (Text.trim line.toList) ≠ "END" := by
    decide +kernel
  refine ⟨hrequest, hinput, ?_, hlines, ?_, hlines ▸ hshown.text bench none hinput, ?_⟩
  · exact (htables [.missingAcquires] [.noErrorConstants] source).both (by decide +kernel)
      (by decide +kernel)
  · have hserved := hshown.server {} request rfl rfl (hshown.body request hrequest)
    rw [hlines, hdetails] at hserved
    exact hserved.2.2
  · have hsaid := hshown.session {} rfl rfl hword [] (by simp)
    rw [List.append_nil, hlines] at hsaid
    exact (congrArg (·.written) hsaid).trans (List.append_nil _)

/-- The conditions are needed. A rule that confirms by itself gives the single confirmation where it
fires, and stands beside what other rules find; and a session in colours paints the lines. -/
theorem review_confirming_and_coloured :
    let clear : Finding := ⟨.confirmation, "Code looks good! No obvious issues found."⟩
    let praise : ReviewRule :=
      { name := "praise"
        severity := .confirmation
        message := "Code looks good! No obvious issues found."
        fires := fun _ => true }
    let source := "borrow_global_mut"
    let painted :=
      ["\x1b[33m⚠️ Warning: Functions using borrow_global_mut must declare 'acquires' " ++
          "for the resources they borrow.\x1b[0m",
        "\x1b[36m💡 Suggestion: Define error constants (e.g. const E_NOT_AUTHORIZED: u64 = 1;) " ++
          "to give aborts meaningful codes.\x1b[0m"]
    let written := (({ colors := true } : Session).run
      (Text.lines 0x0a (Session.pasted .review source))).delivered.written
    Fires [praise] source ∧ review ([praise] ++ []) source = [clear] ∧
      review ([praise] ++ [.noErrorConstants]) source =
        [clear, ReviewRule.noErrorConstants.finding] ∧
      (¬ ∀ (rules others : List ReviewRule) (source : String),
        (review (rules ++ others) source = [clear] ↔
          ¬ Fires rules source ∧ ¬ Fires others source) ∧
        ∀ finding ∈ review (rules ++ others) source, finding.severity = .confirmation →
          review (rules ++ others) source = [finding]) ∧
      written = Text.encode ("Paste Move code, then a line containing only END:\n\n" ++
        String.join (painted.map (· ++ "\n")) ++ Session.menuText) ∧
      written ≠ Text.encode ("Paste Move code, then a line containing only END:\n\n" ++
        String.join ((Desk.reviewLines source).map (· ++ "\n")) ++ Session.menuText) := by
  intro clear praise source painted written
  have hfires : Fires [praise] source := by decide +kernel
  have hsingle : review ([praise] ++ []) source = [clear] := by decide +kernel
  have hbeside : review ([praise] ++ [.noErrorConstants]) source =
      [clear, ReviewRule.noErrorConstants.finding] := by
    decide +kernel
  have hword : ∀ line ∈ Text.linesOf source, Entry.trimmed line ≠ "END" := by decide +kernel
  have hlines : (Desk.review source).map (·.paintedLine true) = painted := by decide +kernel
  have hwritten : written = Text.encode ("Paste Move code, then a line containing only END:\n\n" ++
      String.join (painted.map (· ++ "\n")) ++ Session.menuText) := by
    have hstage : ({ colors := true } : Session).stage = .choice := rfl
    have hpasted := Session.run_pasted_review hstage hword
      (show ∀ b ∈ ([] : Bytes).head?, b = 0x0a by simp)
    rw [List.append_nil, hlines, Session.codePrompt_append_newline] at hpasted
    exact (congrArg (·.written) hpasted).trans (List.append_nil _)
  refine ⟨hfires, hsingle, hbeside, fun h => ?_, hwritten, fun hplain => ?_⟩
  · exact ((h [praise] [] source).1.mp hsingle).1 hfires
  · -- The one begins with a colour where the other begins with a marker.
    rw [hwritten, Text.encode_append, Text.encode_append, Text.encode_append,
      Text.encode_append] at hplain
    have hsame := List.append_cancel_left (List.append_cancel_right hplain)
    exact absurd (congrArg List.head? hsame) (by decide +kernel)

end MoveDesk
