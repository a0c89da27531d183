import Mathlib.Data.List.DropRight
import MoveDesk.Proofs.Displays
import MoveDesk.Proofs.Lines
import MoveDesk.Session

/-!
# Sessions that follow a script

A script is a list of commands, each with the lines that answer its questions. A session that reads
these lines takes none of them for another command's, and says what the desk answers to one command
after the other.

The proof goes from the line to the script: `leads_of_read` is the step, `leads_lines` a whole
command, and `run_script` the induction over the script.

Headline:
* **`play_script`**: what a session puts out for a script, and what it leaves.
-/

namespace MoveDesk

/-! ## Scripts -/

/-- A command, with the lines that are entered for it. -/
inductive Entry where
  /-- Write a contract with the name and the address. -/
  | generate (archetype : Intent) (name address : String)
  /-- Explain a concept. -/
  | explain (query : String)
  /-- Make use of a block of code. -/
  | code (use : CodeUse) (lines : List String)
  /-- Show the context. -/
  | context
  /-- A choice that is not on the menu. -/
  | invalid (line : String)
deriving DecidableEq, Repr

namespace Entry

open Session

/-- The choices on the menu. -/
def choices : List String := ["0", "1", "2", "3", "4", "5", "6", "7", "8"]

/-- The choice of an archetype. -/
def generation : Intent → String
  | .token => "1"
  | .nft => "2"
  | .marketplace => "3"
  | .module => "4"
  | .unrecognized => ""

/-- The choice of a use of code. -/
def codeChoice : CodeUse → String
  | .review => "6"
  | .analyze => "7"

/-- The lines of the command. -/
def lines : Entry → List String
  | generate archetype name address => [generation archetype, name, address]
  | explain query => ["5", query]
  | code use lines => codeChoice use :: (lines ++ ["END"])
  | context => ["8"]
  | invalid line => [line]

/-- The line without the blanks around it. -/
def trimmed (line : String) : String := String.ofList (Text.trim line.toList)

/-- The command is on the menu, or clearly is not, and no line of code ends the code. -/
def IsProper : Entry → Prop
  | generate archetype _ _ => archetype ∈ Intent.archetypes
  | code _ lines => ∀ line ∈ lines, trimmed line ≠ "END"
  | invalid line => trimmed line ∉ choices
  | _ => True

/-- The command can be entered line by line. -/
structure WellFormed (entry : Entry) : Prop where
  /-- It is a proper one. -/
  proper : entry.IsProper
  /-- Its lines are lines. -/
  lines : ∀ line ∈ entry.lines, '\n' ∉ line.toList

instance (entry : Entry) : Decidable entry.IsProper :=
  match entry with
  | generate _ _ _ => inferInstanceAs (Decidable (_ ∈ _))
  | code _ _ => inferInstanceAs (Decidable (∀ line ∈ _, trimmed line ≠ "END"))
  | invalid _ => inferInstanceAs (Decidable (_ ∉ _))
  | explain _ | context => inferInstanceAs (Decidable True)

instance (entry : Entry) : Decidable entry.WellFormed :=
  decidable_of_iff (entry.IsProper ∧ ∀ line ∈ entry.lines, '\n' ∉ line.toList)
    ⟨fun h => ⟨h.1, h.2⟩, fun h => ⟨h.1, h.2⟩⟩

/-- The line without the newlines and the carriage returns at its end. -/
def unmarked (line : String) : String :=
  String.ofList (line.toList.rdropWhile fun c => c = '\n' || c = '\r')

/-- The line without the carriage returns at its end. -/
def stripped (line : String) : String := String.ofList (line.toList.rdropWhile (· = '\r'))

/-- The text of a block of code. -/
def block (lines : List String) : String := "\n".intercalate (lines.map stripped)

/-- The text that the command takes into the context. -/
def source? : Entry → Option String
  | code .analyze lines => some (block lines)
  | _ => none

/-- The desk behind the command. -/
def serve (desk : Desk) (entry : Entry) : Desk := desk.analyzeEach entry.source?.toList

/-- The parameters that hold the name and the address. -/
def called (name address : String) : Parameters where
  entries := [("address", address), ("name", name)]
  increasing := List.pairwise_pair.mpr (show "address" < "name" by decide +kernel)

/-- What is said to a choice that is not on the menu. -/
def rejection (choice : String) : String :=
  "Invalid choice '" ++ choice ++ "'. Enter a number from 0 to 8.\n"

/-- What is said to the command: its questions, and what the desk answers. -/
def reply (colors : Bool) (desk : Desk) : Entry → String
  | generate archetype name address =>
    namePrompt ++ addressPrompt ++
      "\n" ++ desk.generate archetype.label (called (trimmed name) (trimmed address)) ++ "\n"
  | explain query => conceptPrompt ++ "\n" ++ Desk.explain (trimmed query) ++ "\n"
  | code .review lines =>
    codePrompt ++ "\n" ++ String.join ((Desk.review (block lines)).map (·.shown colors))
  | code .analyze lines =>
    codePrompt ++ "\nAdded to context: " ++ (desk.analyze (block lines)).2.shown ++ "\n"
  | context => desk.context.shown colors
  | invalid line => rejection (trimmed line)

end Entry

/-! ## Transcripts of runs -/

namespace Transcript

/-- What is delivered when a text is written before the rest. -/
def Delivery.after (text : String) (delivery : Delivery) : Delivery :=
  { delivery with written := Text.encode text ++ delivery.written }

theorem Delivery.after_after (a b : String) (delivery : Delivery) :
    (delivery.after b).after a = delivery.after (a ++ b) := by
  simp only [Delivery.after, Text.encode_append, List.append_assoc]

theorem delivered_after (text : String) (context : Context) (transcript : Transcript) :
    (transcript.after text context).delivered = transcript.delivered.after text := by
  simp only [delivered, text_after, Text.encode_append]
  rfl

end Transcript

namespace Session

open Entry

/-- The bytes of a line that ends with a newline. -/
def lineBytes (line : String) : Bytes := Text.encode (line ++ "\n")

/-- Reading the lines, the session says so much and goes on as the next one. -/
def Leads (session : Session) (lines : List String) (said : String) (next : Session) : Prop :=
  ∀ rest, (session.run (lines.map lineBytes ++ rest)).delivered =
    (next.run rest).delivered.after said

variable {session middle next : Session} {lines more : List String} {said also : String}

theorem Leads.refl (session : Session) : session.Leads [] "" session := fun _ => rfl

theorem Leads.trans (h : session.Leads lines said middle) (h' : middle.Leads more also next) :
    session.Leads (lines ++ more) (said ++ also) next := by
  intro rest
  rw [List.map_append, List.append_assoc, h, h', Transcript.Delivery.after_after]

/-- A line that can be read is taken. -/
theorem run_encode {line : String} (hstage : session.stage ≠ .over)
    (h : session.read line = (next, said)) (rest : List Bytes) :
    (session.run (Text.encode line :: rest)).delivered = (next.run rest).delivered.after said := by
  rw [run, if_neg hstage, Text.asText_encode]
  simp only [h]
  exact Transcript.delivered_after said next.desk.context _

/-- One line. -/
theorem leads_of_read {line : String} (hstage : session.stage ≠ .over)
    (h : session.read (line ++ "\n") = (next, said)) : session.Leads [line] said next :=
  run_encode hstage h

/-- The session behind the lines, and what it says. -/
def readAll (session : Session) : List String → Session × String
  | [] => (session, "")
  | line :: lines =>
    let (next, said) := session.read (line ++ "\n")
    let (last, others) := next.readAll lines
    (last, said ++ others)

theorem readAll_cons {line : String} (h : session.read (line ++ "\n") = (middle, said))
    (h' : middle.readAll lines = (next, also)) :
    session.readAll (line :: lines) = (next, said ++ also) := by
  simp only [readAll, h, h']

/-- A session that is over stays over. -/
theorem stage_readAll (h : session.stage = .over) (lines : List String) :
    (session.readAll lines).1.stage = .over := by
  induction lines generalizing session with
  | nil => exact h
  | cons line lines ih =>
    have hread : session.read (line ++ "\n") = session.ask .over "" := by
      rw [read, h]
    rw [readAll_cons hread rfl]
    exact ih rfl

/-- Lines that are read to a session that is not over. -/
theorem leads_readAll (h : session.readAll lines = (next, said)) (hstage : next.stage ≠ .over) :
    session.Leads lines said next := by
  induction lines generalizing session said with
  | nil =>
    cases h
    exact .refl _
  | cons line lines ih =>
    rcases hread : session.read (line ++ "\n") with ⟨middle, first⟩
    rcases hrest : middle.readAll lines with ⟨last, others⟩
    rw [readAll_cons hread hrest] at h
    cases h
    have hsession : session.stage ≠ .over := by
      intro hover
      have hlast := stage_readAll hover (line :: lines)
      rw [readAll_cons hread hrest] at hlast
      exact hstage hlast
    exact (leads_of_read hsession hread).trans (ih hrest)

/-! ## What is read of a line -/

theorem word_eq_trimmed (line : String) : word line = trimmed line := rfl

theorem parameters_eq_called (name address : String) :
    parameters name address = called name address := by
  have hlt : "address" < "name" := by decide +kernel
  simp only [parameters, Parameters.withName, Parameters.withAddress, Parameters.insert, called]
  congr 1
  exact if_pos hlt

theorem word_append_newline (line : String) : word (line ++ "\n") = word line := by
  have hblank : Text.isBlank '\n' = true := by decide +kernel
  have htrim : Text.trim (line.toList ++ ['\n']) = Text.trim line.toList := by
    unfold Text.trim Text.trimStart
    rw [List.dropWhile_append]
    split
    · rename_i hempty
      rw [List.isEmpty_iff.mp hempty]
      rfl
    · unfold Text.trimEnd
      rw [List.reverse_append, List.reverse_singleton, List.singleton_append,
        List.dropWhile_cons_of_pos hblank]
  unfold word
  rw [String.toList_append]
  exact congrArg String.ofList htrim

/-- Without newlines in the line, the marks at its end are carriage returns. -/
theorem rdropWhile_marks {line : List Char} (h : '\n' ∉ line) :
    line.rdropWhile (fun c => c = '\n' || c = '\r') = line.rdropWhile (· = '\r') := by
  induction line using List.reverseRecOn with
  | nil => rfl
  | append_singleton line c ih =>
    obtain ⟨hline, hc⟩ := not_or.mp (mt List.mem_append.mpr h)
    have hc : c ≠ '\n' := fun heq => hc (List.mem_singleton.mpr heq.symm)
    rw [List.rdropWhile_concat, List.rdropWhile_concat, ih hline]
    simp only [hc, decide_false, Bool.false_or]

theorem content_eq_unmarked (line : String) : content line = unmarked line := rfl

theorem content_append_newline {line : String} (h : '\n' ∉ line.toList) :
    content (line ++ "\n") = stripped line := by
  rw [content_eq_unmarked, unmarked, String.toList_append, stripped, ← rdropWhile_marks h]
  exact congrArg String.ofList (List.rdropWhile_concat_pos _ _ _ rfl)

/-! ## Commands -/

/-- The session at the menu. -/
def atMenu (desk : Desk) (colors : Bool) : Session := { desk, colors }

/-- The menu and its question. -/
def menuText : String := menu ++ choicePrompt

variable {desk : Desk} {colors : Bool}

theorem toMenu_eq (session : Session) (text : String) :
    session.toMenu text = (atMenu session.desk session.colors, text ++ menuText) := by
  rw [toMenu, ask, menuText, String.append_assoc]
  rfl

/-- A choice from the menu. -/
theorem leads_choice {choice : String}
    (h : (atMenu desk colors).choose (word choice) = (next, said)) :
    (atMenu desk colors).Leads [choice] said next := by
  refine leads_of_read (by simp [atMenu]) ?_
  have hread : (atMenu desk colors).read (choice ++ "\n") =
      (atMenu desk colors).choose (word (choice ++ "\n")) := rfl
  rw [hread, word_append_newline, h]

/-- The choice of an archetype, and the lines for its name and its address, whatever ends them. -/
theorem run_generate (hstage : session.stage = .choice) {archetype : Intent}
    (h : archetype ∈ Intent.archetypes) {choice : String}
    (hchoice : word choice = generation archetype) (name address : String) (rest : List Bytes) :
    (session.run
        (Text.encode choice :: Text.encode name :: Text.encode address :: rest)).delivered =
      (session.run rest).delivered.after (namePrompt ++ addressPrompt ++ "\n" ++
        session.desk.generate archetype.label (parameters (word name) (word address)) ++ "\n" ++
          menuText) := by
  have hfirst : session.read choice = session.ask (.name archetype) namePrompt := by
    rw [read, hstage]
    simp only [hchoice]
    cases archetype with
    | unrecognized => exact absurd h (by decide)
    | _ => rfl
  have hname : read { session with stage := .name archetype } name =
      ({ session with stage := .address archetype (word name) }, addressPrompt) := rfl
  have haddress : read { session with stage := .address archetype (word name) } address =
      (session, "\n" ++
        session.desk.generate archetype.label (parameters (word name) (word address)) ++ "\n" ++
          menuText) := by
    have hback : ({ session with stage := .choice } : Session) = session := by rw [← hstage]
    simp only [read, toMenu, ask, hback, menuText, String.append_assoc]
  rw [run_encode (hstage ▸ by decide) hfirst,
    run_encode (show Stage.name archetype ≠ .over from nofun) hname,
    run_encode (show Stage.address archetype (word name) ≠ .over from nofun) haddress]
  simp only [Transcript.Delivery.after_after, String.append_assoc]

theorem leads_generate {archetype : Intent} (h : archetype ∈ Intent.archetypes)
    (name address : String) :
    (atMenu desk colors).Leads [generation archetype, name, address]
      (reply colors desk (.generate archetype name address) ++ menuText) (atMenu desk colors) := by
  intro rest
  have hchoice : word (generation archetype ++ "\n") = generation archetype := by
    rw [word_append_newline]
    revert archetype
    decide +kernel
  have hmenu : (atMenu desk colors).stage = .choice := rfl
  have hrun := run_generate hmenu h hchoice (name ++ "\n") (address ++ "\n") rest
  rw [word_append_newline, word_append_newline, parameters_eq_called] at hrun
  exact hrun

theorem leads_explain (query : String) :
    (atMenu desk colors).Leads ["5", query] (reply colors desk (.explain query) ++ menuText)
      (atMenu desk colors) := by
  have hchoice : (atMenu desk colors).Leads ["5"] conceptPrompt
      { desk, colors, stage := .concept } :=
    leads_choice rfl
  have hquery : Leads { desk, colors, stage := .concept } [query]
      ("\n" ++ Desk.explain (trimmed query) ++ "\n" ++ menuText) (atMenu desk colors) := by
    refine leads_of_read (by simp) ?_
    simp only [read, word_append_newline, toMenu_eq, word_eq_trimmed query]
  simpa only [reply, String.append_assoc, List.cons_append, List.nil_append] using
    hchoice.trans hquery

section

variable {use : CodeUse} {taken : List String} {line : String}

/-- The choice of a use of code asks for the code. -/
theorem read_codeChoice (hstage : session.stage = .choice) (use : CodeUse) :
    session.read (codeChoice use ++ "\n") =
      ({ session with stage := .code use [] }, codePrompt) := by
  have hchoice : word (codeChoice use) = codeChoice use := by
    cases use <;> decide +kernel
  rw [read, hstage]
  simp only [word_append_newline, hchoice]
  cases use <;> rfl

/-- A line of a block is kept, without the carriage returns at its end. -/
theorem read_code (hstage : session.stage = .code use taken) (hword : word line ≠ endOfCode)
    (hline : '\n' ∉ line.toList) :
    session.read (line ++ "\n") =
      ({ session with stage := .code use (stripped line :: taken) }, "") := by
  rw [read, hstage]
  simp only [word_append_newline, if_neg hword, content_append_newline hline, ask]

/-- At the line that ends a block, use is made of it. -/
theorem read_endOfCode (hstage : session.stage = .code use taken) (hword : word line = endOfCode) :
    session.read line = session.useCode use (joinCode taken) := by
  rw [read, hstage]
  exact if_pos hword

end

/-- The lines of a block are kept behind those taken so far, and nothing is said. -/
theorem readAll_code {use : CodeUse} {lines taken : List String}
    (hstage : session.stage = .code use taken) (hword : ∀ line ∈ lines, word line ≠ endOfCode)
    (hline : ∀ line ∈ lines, '\n' ∉ line.toList) :
    session.readAll lines =
      ({ session with stage := .code use ((lines.map stripped).reverse ++ taken) }, "") := by
  induction lines generalizing session taken with
  | nil =>
    rw [List.map_nil, List.reverse_nil, List.nil_append, ← hstage]
    rfl
  | cons line lines ih =>
    obtain ⟨hfirst, hword⟩ := List.forall_mem_cons.mp hword
    obtain ⟨hplain, hline⟩ := List.forall_mem_cons.mp hline
    rw [readAll_cons (read_code hstage hfirst hplain) (ih rfl hword hline), List.map_cons,
      List.reverse_cons, List.append_assoc]
    rfl

/-- A use of code is chosen, and the lines of the block are read. -/
theorem readAll_codeChoice (hstage : session.stage = .choice) (use : CodeUse) {lines : List String}
    (hword : ∀ line ∈ lines, word line ≠ endOfCode)
    (hline : ∀ line ∈ lines, '\n' ∉ line.toList) :
    session.readAll (codeChoice use :: lines) =
      ({ session with stage := .code use (lines.map stripped).reverse }, codePrompt) := by
  rw [readAll_cons (read_codeChoice hstage use) (readAll_code rfl hword hline), List.append_nil,
    String.append_empty]

theorem joinCode_reverse (lines : List String) :
    joinCode (lines.map stripped).reverse = block lines := by
  rw [joinCode, List.reverse_reverse, block]

/-- The answer to a whole block. -/
theorem useCode_block (desk : Desk) (colors : Bool) (stage : Stage) (use : CodeUse)
    (lines : List String) :
    ∃ answer, reply colors desk (.code use lines) = codePrompt ++ answer ∧
      useCode { desk, colors, stage } use (block lines) =
        (atMenu (serve desk (.code use lines)) colors, answer ++ menuText) := by
  cases use with
  | review =>
    refine ⟨"\n" ++ (Report.review (block lines)).text colors, ?_, ?_⟩
    · simp only [reply, Report.review, Finding.asLines_paintedLine, String.append_assoc]
    · simp only [useCode, toMenu_eq]
      rfl
  | analyze =>
    refine ⟨"\nAdded to context: " ++ (desk.analyze (block lines)).2.text ++ "\n", ?_, ?_⟩
    · simp only [reply, Growth.text_eq_shown, String.append_assoc]
    · simp only [useCode, toMenu_eq]
      rfl

theorem leads_block (use : CodeUse) {lines : List String}
    (hword : ∀ line ∈ lines, word line ≠ endOfCode) (hline : ∀ line ∈ lines, '\n' ∉ line.toList) :
    (atMenu desk colors).Leads (codeChoice use :: (lines ++ [endOfCode]))
      (reply colors desk (.code use lines) ++ menuText)
      (atMenu (serve desk (.code use lines)) colors) := by
  obtain ⟨answer, hreply, huse⟩ :=
    useCode_block desk colors (.code use (lines.map stripped).reverse) use lines
  have hend : Leads { desk, colors, stage := .code use (lines.map stripped).reverse }
      [endOfCode] (answer ++ menuText) (atMenu (serve desk (.code use lines)) colors) := by
    have hmark : word (endOfCode ++ "\n") = endOfCode := by decide +kernel
    refine leads_of_read (by simp) ?_
    rw [read_endOfCode rfl hmark, joinCode_reverse, huse]
  have hlines : (atMenu desk colors).Leads (codeChoice use :: lines) codePrompt
      { desk, colors, stage := .code use (lines.map stripped).reverse } :=
    leads_readAll (readAll_codeChoice rfl use hword hline) (by simp)
  simpa only [hreply, String.append_assoc, List.cons_append] using hlines.trans hend

theorem choose_of_notMem {choice : String} (h : choice ∉ choices) (session : Session) :
    session.choose choice = session.toMenu (invalidChoice choice) := by
  unfold choose
  split
  -- one case for each choice on the menu, and one for all others
  all_goals first | exact absurd (by decide) h | rfl

/-- **One command**: its lines are read, its reply is said, and the session is back at the menu. -/
theorem leads_lines {entry : Entry} (h : entry.WellFormed) :
    (atMenu desk colors).Leads entry.lines (reply colors desk entry ++ menuText)
      (atMenu (serve desk entry) colors) := by
  obtain ⟨hproper, hlines⟩ := h
  cases entry with
  | generate archetype name address => exact leads_generate hproper name address
  | explain query => exact leads_explain query
  | code use lines =>
    refine leads_block use hproper fun line hline => hlines line ?_
    exact List.mem_cons_of_mem _ (List.mem_append_left _ hline)
  | context =>
    refine leads_choice ?_
    rw [reply, ← Context.describe_snapshot]
    exact toMenu_eq _ _
  | invalid line =>
    refine leads_choice ?_
    rw [word_eq_trimmed, choose_of_notMem hproper]
    exact toMenu_eq _ _

/-! ## Runs of scripts -/

/-- What a session puts out for a script: for each command the menu first, and then the reply. -/
def dialogue (colors : Bool) (desk : Desk) : List Entry → String
  | [] => ""
  | entry :: script =>
    menuText ++ reply colors desk entry ++ dialogue colors (serve desk entry) script

theorem analyzeEach_sources (desk : Desk) (entry : Entry) (script : List Entry) :
    desk.analyzeEach ((entry :: script).filterMap source?) =
      (serve desk entry).analyzeEach (script.filterMap source?) := by
  rw [List.filterMap_cons, serve]
  cases entry.source? <;> rfl

/-- **A script**: its lines are read, with the menu before each of the replies and behind them. -/
theorem run_script {script : List Entry} (h : ∀ entry ∈ script, entry.WellFormed) (desk : Desk)
    (rest : List Bytes) :
    ((atMenu desk colors).run ((script.flatMap Entry.lines).map lineBytes ++ rest)).delivered.after
        menuText =
      ((atMenu (desk.analyzeEach (script.filterMap source?)) colors).run rest).delivered.after
        (dialogue colors desk script ++ menuText) := by
  induction script generalizing desk with
  | nil => rfl
  | cons entry script ih =>
    obtain ⟨hentry, hscript⟩ := List.forall_mem_cons.mp h
    -- the menu that stands behind the first reply is the one before the rest of the script
    rw [analyzeEach_sources, List.flatMap_cons, List.map_append, List.append_assoc,
      leads_lines hentry, Transcript.Delivery.after_after, ← String.append_assoc,
      ← Transcript.Delivery.after_after, ih hscript, Transcript.Delivery.after_after, dialogue]
    simp only [String.append_assoc]

/-- Nothing is read or put out any more. -/
theorem run_over (hstage : session.stage = .over) (rest : List Bytes) :
    (session.run rest).delivered = ⟨[], session.desk.context, none⟩ := by
  cases rest with
  | nil =>
    rw [run, close, hstage]
    rfl
  | cons line rest =>
    rw [run, if_pos hstage]
    rfl

/-- A line of the choice to leave ends the session. -/
theorem run_goodbye (desk : Desk) (colors : Bool) {line : String} (hline : word line = "0")
    (others : List Bytes) :
    ((atMenu desk colors).run (Text.encode line :: others)).delivered =
      ⟨Text.encode "Goodbye!\n", desk.context, none⟩ := by
  have hread : (atMenu desk colors).read line = (atMenu desk colors).choose (word line) := rfl
  have hchoose : (atMenu desk colors).choose "0" =
      ({ desk, colors, stage := .over }, "Goodbye!\n") := rfl
  rw [run, if_neg (by simp [atMenu]), Text.asText_encode]
  simp only [hread, hline, hchoose]
  rw [Transcript.delivered_after, run_over rfl, Transcript.Delivery.after, List.append_nil]

/-- The choice to leave is read with a newline behind it or at the end of the input. -/
theorem run_exit (desk : Desk) (colors : Bool) {rest : Bytes} (hrest : ∀ b ∈ rest.head?, b = 0x0a) :
    ((atMenu desk colors).run (Text.lines 0x0a (Text.encode "0" ++ rest))).delivered =
      ⟨Text.encode "Goodbye!\n", desk.context, none⟩ := by
  have hmark : '\n' ∉ "0".toList := by decide
  obtain ⟨line, hline, hlines⟩ := Text.exists_lines_encode hmark (by decide) hrest
  have hword : word line = "0" := by
    rcases hline with rfl | rfl <;> decide +kernel
  rw [hlines]
  exact run_goodbye desk colors hword _

/-- **A session follows its script.** Whatever the desk has seen, whatever stands in the lines of
the commands, and whatever bytes stand behind the line of the choice to leave:
* the session does not break off;
* it puts out, for each command in turn, the menu and the reply of the desk as it then is, and the
  menu and the farewell behind them;
* it leaves the context that the blocks of code to be analyzed, and nothing else, are taken into. -/
theorem play_script (session : Session) (script : List Entry)
    (hscript : ∀ entry ∈ script, entry.WellFormed) (rest : Bytes)
    (hrest : ∀ b ∈ rest.head?, b = 0x0a) :
    let input := Text.encode (asLines (script.flatMap Entry.lines)) ++ (Text.encode "0" ++ rest)
    (session.play input).delivered =
      { written := Text.encode
          (dialogue session.colors session.desk script ++ menuText ++ "Goodbye!\n")
        context := session.desk.context.extractAll (script.filterMap source?)
        failure := none } := by
  intro input
  have hlines : ∀ line ∈ script.flatMap Entry.lines, '\n' ∉ line.toList := by
    intro line hline
    obtain ⟨entry, hentry, hmem⟩ := List.mem_flatMap.mp hline
    exact (hscript entry hentry).lines line hmem
  have hplay : (session.play input).delivered =
      ((atMenu session.desk session.colors).run (Text.lines 0x0a input)).delivered.after
        menuText := by
    rw [play, toMenu_eq, String.empty_append]
    exact Transcript.delivered_after _ _ _
  rw [hplay, Text.lines_encode_asLines hlines]
  refine (run_script hscript session.desk _).trans ?_
  rw [run_exit _ _ hrest, Desk.analyzeEach_eq, Transcript.Delivery.after,
    Text.encode_append _ "Goodbye!\n"]

set_option maxRecDepth 16000 in
/-- One command of each kind, with colours: a name and an address with blanks around them, blocks
with carriage returns, a choice that is not on the menu, and bytes that are no text behind the
end. -/
theorem play_script_each_command :
    let script : List Entry :=
      [.generate .module " Vault" "0xB0B ", .explain " gas ",
        .code .review ["const E_X: u64 = 1;\r", "borrow_global_mut"],
        .code .analyze ["struct A \x7b\r", "\x7d fun f"], .invalid " 9", .context]
    let input := Text.encode ("4\n Vault\n0xB0B \n" ++ "5\n gas \n" ++
      "6\nconst E_X: u64 = 1;\r\nborrow_global_mut\nEND\n" ++
      "7\nstruct A \x7b\r\n\x7d fun f\nEND\n" ++ " 9\n" ++ "8\n" ++ "0\n") ++ [0xff]
    let menu := "\n=== movesmith: Move contract assistant ===\n" ++
      "1. Generate token contract\n2. Generate NFT contract\n" ++
      "3. Generate marketplace contract\n4. Generate generic module\n" ++
      "5. Explain a Move concept\n6. Review code\n7. Analyze code into context\n" ++
      "8. Show context\n0. Exit\nChoice: "
    let code := "module 0xB0B::Vault \x7b
    use std::signer;

    /// Error codes
    const E_ALREADY_INITIALIZED: u64 = 1;

    struct Data has key \x7b
        value: u64,
    \x7d

    public entry fun initialize(account: &signer) \x7b
        assert!(!exists<Data>(signer::address_of(account)), E_ALREADY_INITIALIZED);
        move_to(account, Data \x7b value: 0 \x7d);
    \x7d
\x7d
"
    let delivery := (play { colors := true } input).delivered
    (∀ entry ∈ script, entry.WellFormed) ∧ (∀ b ∈ [0x0a, 0xff].head?, b = (0x0a : UInt8)) ∧
      delivery.written = Text.encode (
        menu ++ "Contract name (blank for default): " ++ "Address (blank for 0x1): " ++
          "\n" ++ code ++ "\n" ++
        menu ++ "Concept (abilities, resources, acquires, signer): " ++
          "\nConcept not found. Try: abilities, resources, acquires, signer\n" ++
        menu ++ "Paste Move code, then a line containing only END:\n" ++
          "\n\x1b[33m⚠️ Warning: Functions using borrow_global_mut must declare 'acquires' " ++
          "for the resources they borrow.\x1b[0m\n" ++
        menu ++ "Paste Move code, then a line containing only END:\n" ++
          "\nAdded to context: +0 modules, +1 structs, +1 functions\n" ++
        menu ++ "Invalid choice '9'. Enter a number from 0 to 8.\n" ++
        menu ++ "\x1b[1mModules\x1b[0m (0)\n\x1b[1mStructs\x1b[0m (1)\n  A\n" ++
          "\x1b[1mFunctions\x1b[0m (1)\n  f\n" ++
        menu ++ "Goodbye!\n") ∧
      delivery.context = .ofInserts [(.structs, "A"), (.functions, "f")] ∧
      delivery.failure = none := by
  intro script input menu code delivery
  have hscript : ∀ entry ∈ script, entry.WellFormed := by decide +kernel
  have hrest : ∀ b ∈ [0x0a, 0xff].head?, b = (0x0a : UInt8) := by simp
  have hinput : input =
      Text.encode (asLines (script.flatMap Entry.lines)) ++ (Text.encode "0" ++ [0x0a, 0xff]) := by
    decide +kernel
  have hblock : script.filterMap source? = ["struct A \x7b\n\x7d fun f"] := by decide +kernel
  have hdelivery := play_script { colors := true } script hscript [0x0a, 0xff] hrest
  simp only [← hinput, hblock] at hdelivery
  refine ⟨hscript, hrest, ?_⟩
  simp only [delivery, hdelivery]
  refine ⟨congrArg Text.encode ?_, by decide +kernel, trivial⟩
  have hmenu : menuText = menu := by decide +kernel
  have hinstruction : Desk.classify "module" = .module := by decide +kernel
  have hparams : called (trimmed " Vault") (trimmed "0xB0B ") = called "Vault" "0xB0B" := by
    decide +kernel
  have hcode : ({} : Desk).generate "module" (called "Vault" "0xB0B") = code := by
    rw [Desk.generate, hinstruction]
    exact (Template.substitute_ofList _ _).trans (congrArg String.ofList (by decide +kernel))
  have hgenerated : reply true {} (.generate .module " Vault" "0xB0B ") =
      "Contract name (blank for default): " ++ "Address (blank for 0x1): " ++ "\n" ++ code ++
        "\n" := by
    rw [reply, hparams, show Intent.label .module = "module" from rfl, hcode]
    rfl
  have hexplained : reply true {} (.explain " gas ") =
      "Concept (abilities, resources, acquires, signer): " ++
        "\nConcept not found. Try: abilities, resources, acquires, signer\n" := by
    decide +kernel
  have hreviewed : reply true {} (.code .review ["const E_X: u64 = 1;\r", "borrow_global_mut"]) =
      "Paste Move code, then a line containing only END:\n" ++
        "\n\x1b[33m⚠️ Warning: Functions using borrow_global_mut must declare 'acquires' " ++
        "for the resources they borrow.\x1b[0m\n" := by
    decide +kernel
  have hanalyzed : reply true {} (.code .analyze ["struct A \x7b\r", "\x7d fun f"]) =
      "Paste Move code, then a line containing only END:\n" ++
        "\nAdded to context: +0 modules, +1 structs, +1 functions\n" := by
    decide +kernel
  let analyzed := serve {} (.code .analyze ["struct A \x7b\r", "\x7d fun f"])
  have hinvalid : reply true analyzed (.invalid " 9") =
      "Invalid choice '9'. Enter a number from 0 to 8.\n" := by
    decide +kernel
  have hcontext : reply true analyzed .context =
      "\x1b[1mModules\x1b[0m (0)\n\x1b[1mStructs\x1b[0m (1)\n  A\n" ++
        "\x1b[1mFunctions\x1b[0m (1)\n  f\n" := by
    decide +kernel
  have hdialogue : dialogue true {} script =
      menuText ++ reply true {} (.generate .module " Vault" "0xB0B ") ++
        (menuText ++ reply true {} (.explain " gas ") ++
          (menuText ++
              reply true {} (.code .review ["const E_X: u64 = 1;\r", "borrow_global_mut"]) ++
            (menuText ++
                reply true {} (.code .analyze ["struct A \x7b\r", "\x7d fun f"]) ++
              (menuText ++ reply true analyzed (.invalid " 9") ++
                (menuText ++ reply true analyzed .context ++ ""))))) := rfl
  rw [hdialogue, hgenerated, hexplained, hreviewed, hanalyzed, hinvalid, hcontext, hmenu]
  simp only [String.append_assoc, String.append_empty]

end Session

end MoveDesk
