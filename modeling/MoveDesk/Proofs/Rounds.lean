import MoveDesk.Proofs.Script

/-!
# Sessions on any input

Whatever bytes are put into a session, its lines fall into rounds: a choice from the menu, and the
lines that the choice asks for. `standing` says what the lines behind a menu come to, and `Course`
how a whole input is read: rounds, and then the choice to leave, the end of the input, or a line
that is no text. Both speak of lines only, not of what a session does with them.

The proof goes from the line to the input. `Stage.Behind` is the invariant: it ties the stage of the
session to the lines behind the last menu. `turn_of_read` is one line, and `run_follows` all of
them.

Headlines:
* **`Course.unique`**: there is one way to read an input.
* **`play_takes_whole_blocks`**: a session ends on every input, breaks off at a line that is no text
  and nowhere else, and takes in the blocks of code that were read to their end.
-/

namespace MoveDesk

open Session
open Entry (trimmed unmarked)

/-! ## What lines come to -/

/-- What a line at the menu asks for. -/
inductive Choice where
  /-- A contract. -/
  | generation
  /-- An explanation. -/
  | explanation
  /-- A use of code. -/
  | code (use : CodeUse)
  /-- The context. -/
  | context
  /-- To leave. -/
  | leave
  /-- Nothing that is on the menu. -/
  | invalid
deriving DecidableEq, Repr

/-- What the lines behind a menu come to. -/
inductive Standing where
  /-- More lines are asked for. If the input ends here, the source is taken in. -/
  | unfinished (source : Option String)
  /-- The round is over, and the source is taken in. -/
  | finished (source : Option String)
  /-- The session is over. -/
  | left
deriving DecidableEq, Repr

/-- The source that a block of the given lines is for the context. -/
def CodeUse.source? (use : CodeUse) (lines : List String) : Option String :=
  match use with
  | .review => none
  | .analyze => some ("\n".intercalate (lines.map unmarked))

namespace Standing

/-- More lines are asked for. -/
def IsUnfinished (standing : Standing) : Prop := ∃ source, standing = unfinished source

/-- The standing of lines of which a fixed number is asked for. -/
def counted (wanted : Nat) (lines : List String) : Option Standing :=
  if lines.length < wanted then some (unfinished none)
  else if lines.length = wanted then some (finished none)
  else none

/-- The standing of lines of which all belong to a block, up to the line that ends it. -/
def block (use : CodeUse) (lines : List String) : Option Standing :=
  let code := lines.takeWhile (trimmed · ≠ "END")
  match lines.dropWhile (trimmed · ≠ "END") with
  | [] => some (unfinished (use.source? code))
  | [_] => some (finished (use.source? code))
  | _ => none

end Standing

namespace Choice

/-- What a line at the menu asks for. -/
def ofLine (line : String) : Choice :=
  match trimmed line with
  | "1" | "2" | "3" | "4" => generation
  | "5" => explanation
  | "6" => code .review
  | "7" => code .analyze
  | "8" => context
  | "0" => leave
  | _ => invalid

/-- What the lines behind a choice come to, if they all belong to it. -/
def standing (choice : Choice) (lines : List String) : Option Standing :=
  match choice with
  | generation => Standing.counted 2 lines
  | explanation => Standing.counted 1 lines
  | code use => Standing.block use lines
  | context | invalid => Standing.counted 0 lines
  | leave => if lines = [] then some .left else none

end Choice

/-- What the lines behind a menu come to, if none of them stands behind the next menu. -/
def Session.standing : List String → Option Standing
  | [] => some (.unfinished none)
  | choice :: lines => (Choice.ofLine choice).standing lines

/-! ## How an input is read -/

namespace Session

/-- How the reading of an input ends. -/
inductive Ending where
  /-- With the choice to leave. -/
  | left
  /-- With the input: at the menu, at a question or in a block of code. -/
  | inputOver
  /-- With a line that is no text. -/
  | notText
deriving DecidableEq, Repr

/-- The failure of a session whose reading ends so. -/
def Ending.failure? : Ending → Option CommandError
  | left | inputOver => none
  | notText => some (.system "stream did not contain valid UTF-8")

/-- What is read of an input. -/
structure Reading where
  /-- The lines that are read. -/
  lines : List Bytes
  /-- The sources that are taken in. -/
  sources : List String
  /-- How it ends. -/
  ending : Ending
deriving DecidableEq, Repr

/-- What is read where a round stands before the rest. -/
def Reading.behind (lines : List String) (source : Option String) (reading : Reading) :
    Reading where
  lines := lines.map Text.encode ++ reading.lines
  sources := source.toList ++ reading.sources
  ending := reading.ending

/-- How the lines of an input are read. -/
inductive Course : List Bytes → Reading → Prop
  /-- A whole round comes first. -/
  | round {lines : List String} {source : Option String} {rest : List Bytes} {reading : Reading}
      (hlines : standing lines = some (.finished source)) (hrest : Course rest reading) :
      Course (lines.map Text.encode ++ rest) (reading.behind lines source)
  /-- Behind the choice to leave nothing is read. -/
  | left {lines : List String} {rest : List Bytes} (hlines : standing lines = some .left) :
      Course (lines.map Text.encode ++ rest) ⟨lines.map Text.encode, [], .left⟩
  /-- The input ends in a round. A block of code ends there too. -/
  | inputOver {lines : List String} {source : Option String}
      (hlines : standing lines = some (.unfinished source)) :
      Course (lines.map Text.encode) ⟨lines.map Text.encode, source.toList, .inputOver⟩
  /-- A line in a round is no text. What the round has read so far is lost. -/
  | notText {lines : List String} {source : Option String} {line : Bytes} {rest : List Bytes}
      (hlines : standing lines = some (.unfinished source)) (hline : Text.decode? line = none) :
      Course (lines.map Text.encode ++ line :: rest)
        ⟨lines.map Text.encode ++ [line], [], .notText⟩

end Session

/-! ## Rounds do not run into each other -/

section

variable {lines : List String} {s s' : Standing}

theorem Standing.counted_append_cons {wanted : Nat} (h : counted wanted lines = some s)
    (hdone : ¬s.IsUnfinished) (line : String) (more : List String) :
    counted wanted (lines ++ line :: more) = none := by
  unfold counted at h ⊢
  split at h
  · exact absurd ⟨none, (Option.some.inj h).symm⟩ hdone
  · split at h
    · rw [List.length_append, List.length_cons, if_neg (by omega), if_neg (by omega)]
    · cases h

theorem Standing.block_append_cons {use : CodeUse} (h : block use lines = some s)
    (hdone : ¬s.IsUnfinished) (line : String) (more : List String) :
    block use (lines ++ line :: more) = none := by
  unfold block at h ⊢
  simp only at h ⊢
  split at h
  · exact absurd ⟨_, (Option.some.inj h).symm⟩ hdone
  · rename_i last hlast
    rw [List.dropWhile_append, hlast]
    rfl
  · cases h

namespace Session

/-- No line belongs to a round behind the last of it. -/
theorem standing_append_cons (h : standing lines = some s) (hdone : ¬s.IsUnfinished)
    (line : String) (more : List String) : standing (lines ++ line :: more) = none := by
  cases lines with
  | nil => exact absurd ⟨none, (Option.some.inj h).symm⟩ hdone
  | cons choice lines =>
    change (Choice.ofLine choice).standing lines = some s at h
    change (Choice.ofLine choice).standing (lines ++ line :: more) = none
    cases hchoice : Choice.ofLine choice with
    | code use =>
      rw [hchoice] at h
      exact Standing.block_append_cons h hdone line more
    | leave => exact if_neg (List.append_ne_nil_of_right_ne_nil _ (List.cons_ne_nil line more))
    | _ =>
      rw [hchoice] at h
      exact Standing.counted_append_cons h hdone line more

/-- Behind an unfinished round no text stands, which would be read for it. -/
def Exhausted : Standing → List Bytes → Prop
  | .unfinished _, rest => ∀ line ∈ rest.head?, Text.decode? line = none
  | _, _ => True

theorem eq_nil_of_exhausted {more : List String} {rest : List Bytes} (h : standing lines = some s)
    (hmore : standing (lines ++ more) = some s')
    (hrest : Exhausted s (more.map Text.encode ++ rest)) : more = [] := by
  cases more with
  | nil => rfl
  | cons line more =>
    exfalso
    by_cases hs : s.IsUnfinished
    · obtain ⟨source, rfl⟩ := hs
      have hline := hrest (Text.encode line) rfl
      rw [Text.decode?_encode] at hline
      cases hline
    · rw [standing_append_cons h hs] at hmore
      cases hmore

/-- The lines at the front of an input that have a standing are determined by the input. -/
theorem front_unique {front other : List String} {rest rest' : List Bytes}
    (hfront : standing front = some s) (hother : standing other = some s')
    (hrest : Exhausted s rest) (hrest' : Exhausted s' rest')
    (h : front.map Text.encode ++ rest = other.map Text.encode ++ rest') :
    front = other ∧ s = s' ∧ rest = rest' := by
  have hinjective := List.map_injective_iff.mpr Text.encode_injective
  suffices hsame : front = other by
    subst hsame
    exact ⟨rfl, Option.some.inj (hfront.symm.trans hother), List.append_cancel_left h⟩
  -- one of them stands at the front of the other, and there is nothing between their ends
  rcases List.append_eq_append_iff.mp h with
    ⟨between, hbetween, hrests⟩ | ⟨between, hbetween, hrests⟩
  · obtain ⟨start, more, rfl, hstart, rfl⟩ := List.map_eq_append_iff.mp hbetween
    obtain rfl := hinjective hstart
    rw [eq_nil_of_exhausted hfront hother (hrests ▸ hrest), List.append_nil]
  · obtain ⟨start, more, rfl, hstart, rfl⟩ := List.map_eq_append_iff.mp hbetween
    obtain rfl := hinjective hstart
    rw [eq_nil_of_exhausted hother hfront (hrests ▸ hrest'), List.append_nil]

end Session

end

/-! ## Courses -/

namespace Session

variable {input : List Bytes} {reading other : Reading}

/-- What is read of an input whose first lines have the standing. -/
def Continues (lines : List String) : Standing → List Bytes → Reading → Prop
  | .finished source, rest, reading =>
    ∃ later, Course rest later ∧ reading = later.behind lines source
  | .left, _, reading => reading = ⟨lines.map Text.encode, [], .left⟩
  | .unfinished source, [], reading =>
    reading = ⟨lines.map Text.encode, source.toList, .inputOver⟩
  | .unfinished _, line :: _, reading =>
    reading = ⟨lines.map Text.encode ++ [line], [], .notText⟩

namespace Course

theorem exists_front (h : Course input reading) :
    ∃ lines s rest, standing lines = some s ∧ Exhausted s rest ∧
      input = lines.map Text.encode ++ rest ∧ Continues lines s rest reading := by
  cases h with
  | @round lines source rest reading hlines hrest =>
    exact ⟨lines, _, rest, hlines, trivial, rfl, reading, hrest, rfl⟩
  | @left lines rest hlines => exact ⟨lines, _, rest, hlines, trivial, rfl, rfl⟩
  | @inputOver lines source hlines =>
    exact ⟨lines, _, [], hlines, by simp [Exhausted], (List.append_nil _).symm, rfl⟩
  | @notText lines source line rest hlines hline =>
    exact ⟨lines, _, line :: rest, hlines, by simpa [Exhausted] using hline, rfl, rfl⟩

/-- **There is one way to read an input.** -/
theorem unique (h : Course input reading) (h' : Course input other) : other = reading := by
  induction h generalizing other with
  | round hlines hrest ih =>
    obtain ⟨_, _, _, hfront, hexhausted, hinput, hcontinues⟩ := h'.exists_front
    obtain ⟨rfl, rfl, rfl⟩ := front_unique hlines hfront trivial hexhausted hinput
    obtain ⟨later, hlater, rfl⟩ := hcontinues
    rw [ih hlater]
  | left hlines =>
    obtain ⟨_, _, _, hfront, hexhausted, hinput, hcontinues⟩ := h'.exists_front
    obtain ⟨rfl, rfl, rfl⟩ := front_unique hlines hfront trivial hexhausted hinput
    exact hcontinues
  | inputOver hlines =>
    obtain ⟨_, _, _, hfront, hexhausted, hinput, hcontinues⟩ := h'.exists_front
    rw [← List.append_nil (List.map _ _)] at hinput
    obtain ⟨rfl, rfl, rfl⟩ :=
      front_unique hlines hfront (by simp [Exhausted]) hexhausted hinput
    exact hcontinues
  | notText hlines hline =>
    obtain ⟨_, _, _, hfront, hexhausted, hinput, hcontinues⟩ := h'.exists_front
    obtain ⟨rfl, rfl, rfl⟩ :=
      front_unique hlines hfront (by simpa [Exhausted] using hline) hexhausted hinput
    exact hcontinues

/-- What is read stands at the front of the input. -/
theorem lines_prefix (h : Course input reading) : reading.lines <+: input := by
  induction h with
  | round hlines hrest ih => exact (List.prefix_append_right_inj _).mpr ih
  | left hlines => exact List.prefix_append _ _
  | inputOver hlines => exact List.prefix_rfl
  | notText hlines hline =>
    exact (List.prefix_append_right_inj _).mpr (List.prefix_append [_] _)

/-- A reading that ends with the input is of all lines. -/
theorem lines_eq_of_inputOver (h : Course input reading) (hends : reading.ending = .inputOver) :
    reading.lines = input := by
  induction h with
  | round hlines hrest ih => exact congrArg (List.map Text.encode _ ++ ·) (ih hends)
  | left hlines => cases hends
  | inputOver hlines => rfl
  | notText hlines hline => cases hends

/-- The reading ends with a line that is no text where one is read, and only there. -/
theorem ending_eq_notText_iff (h : Course input reading) :
    reading.ending = .notText ↔ ∃ line ∈ reading.lines, Text.decode? line = none := by
  have htexts : ∀ texts : List String,
      ∀ line ∈ texts.map Text.encode, Text.decode? line ≠ none := by
    intro texts line hline
    obtain ⟨text, -, rfl⟩ := List.mem_map.mp hline
    rw [Text.decode?_encode]
    exact Option.some_ne_none text
  induction h with
  | @round lines _ _ _ hlines hrest ih =>
    refine ih.trans ⟨fun ⟨line, hline, hnone⟩ => ⟨line, List.mem_append_right _ hline, hnone⟩, ?_⟩
    rintro ⟨line, hline, hnone⟩
    rcases List.mem_append.mp hline with hline | hline
    · exact absurd hnone (htexts lines line hline)
    · exact ⟨line, hline, hnone⟩
  | @left lines _ hlines =>
    exact ⟨nofun, fun ⟨line, hline, hnone⟩ => absurd hnone (htexts lines line hline)⟩
  | @inputOver lines _ hlines =>
    exact ⟨nofun, fun ⟨line, hline, hnone⟩ => absurd hnone (htexts lines line hline)⟩
  | notText hlines hline =>
    exact ⟨fun _ => ⟨_, List.mem_append_right _ List.mem_cons_self, hline⟩, fun _ => rfl⟩

end Course

end Session

/-! ## One line -/

/-- The lines behind the last menu lead to the stage. -/
def Stage.Behind : Stage → List String → Prop
  | .choice, lines => lines = []
  | .name _, lines => ∃ choice, lines = [choice] ∧ Choice.ofLine choice = .generation
  | .address _ _, lines =>
    ∃ choice name, lines = [choice, name] ∧ Choice.ofLine choice = .generation
  | .concept, lines => ∃ choice, lines = [choice] ∧ Choice.ofLine choice = .explanation
  | .code use taken, lines =>
    ∃ choice block, lines = choice :: block ∧ Choice.ofLine choice = .code use ∧
      (∀ line ∈ block, trimmed line ≠ "END") ∧ taken = (block.map unmarked).reverse
  | .over, _ => False

namespace Session

/-- What becomes of a session and its desk behind a line, where `lines` are those behind the last
menu, the new one included. -/
inductive Turn (desk : Desk) (lines : List String) (next : Session) : Prop
  /-- More lines are asked for. -/
  | asks (hdesk : next.desk = desk) (hstage : next.stage.Behind lines)
  /-- The session is back at the menu. -/
  | returns {source : Option String} (hlines : standing lines = some (.finished source))
      (hdesk : next.desk = desk.analyzeEach source.toList) (hstage : next.stage = .choice)
  /-- The session is over. -/
  | leaves (hlines : standing lines = some .left) (hdesk : next.desk = desk)
      (hstage : next.stage = .over)

variable {session : Session} {lines block : List String}

/-- A choice changes nothing but the stage. -/
theorem choose_stage (session : Session) (line : String) :
    ∃ stage, (session.choose (word line)).1 = { session with stage } ∧
      match Choice.ofLine line with
      | .generation => ∃ archetype, stage = .name archetype
      | .explanation => stage = .concept
      | .code use => stage = .code use []
      | .context | .invalid => stage = .choice
      | .leave => stage = .over := by
  rw [word_eq_trimmed]
  unfold Choice.ofLine choose
  generalize trimmed line = choice
  split
  all_goals simp_all [ask, toMenu]

theorem turn_of_choose (session : Session) (line : String) :
    Turn session.desk [line] (session.choose (word line)).1 := by
  obtain ⟨stage, hchoose, hstage⟩ := choose_stage session line
  rw [hchoose]
  cases hchoice : Choice.ofLine line with
  | generation =>
    rw [hchoice] at hstage
    obtain ⟨archetype, rfl⟩ := hstage
    exact .asks rfl ⟨line, rfl, hchoice⟩
  | explanation =>
    rw [hchoice] at hstage
    obtain rfl := hstage
    exact .asks rfl ⟨line, rfl, hchoice⟩
  | code use =>
    rw [hchoice] at hstage
    obtain rfl := hstage
    exact .asks rfl ⟨line, [], rfl, hchoice, List.forall_mem_nil _, rfl⟩
  | context | invalid =>
    rw [hchoice] at hstage
    have hround : standing [line] = some (.finished none) := by
      rw [standing, hchoice]
      rfl
    exact .returns hround rfl hstage
  | leave =>
    rw [hchoice] at hstage
    refine .leaves ?_ rfl hstage
    rw [standing, hchoice]
    rfl

theorem standing_block (use : CodeUse) (hblock : ∀ line ∈ block, trimmed line ≠ "END") :
    Standing.block use block = some (.unfinished (use.source? block)) := by
  have htrue : ∀ line ∈ block, (decide (trimmed line ≠ "END")) = true := fun line hline =>
    decide_eq_true (hblock line hline)
  simp only [Standing.block, List.takeWhile_eq_self_iff.mpr htrue,
    List.dropWhile_eq_nil_iff.mpr htrue]

theorem standing_block_concat (use : CodeUse) (hblock : ∀ line ∈ block, trimmed line ≠ "END")
    {line : String} (hline : trimmed line = "END") :
    Standing.block use (block ++ [line]) = some (.finished (use.source? block)) := by
  have htrue : ∀ line ∈ block, (decide (trimmed line ≠ "END")) = true := fun line hline =>
    decide_eq_true (hblock line hline)
  simp only [Standing.block, List.takeWhile_append_of_pos htrue, List.dropWhile_append_of_pos htrue]
  simp [hline]

/-- A whole block changes the desk by its source. -/
theorem useCode_desk (session : Session) (use : CodeUse) (block : List String) :
    (session.useCode use (joinCode (block.map unmarked).reverse)).1 =
      atMenu (session.desk.analyzeEach (use.source? block).toList) session.colors := by
  have hcode : joinCode (block.map unmarked).reverse = "\n".intercalate (block.map unmarked) := by
    rw [joinCode, List.reverse_reverse]
  rw [hcode]
  cases use with
  | review => rfl
  | analyze => rfl

/-- A line in a block of code ends it or is kept. -/
theorem read_of_code {use : CodeUse} {taken : List String}
    (hstage : session.stage = .code use taken) (line : String) :
    session.read line =
      if trimmed line = "END" then session.useCode use (joinCode taken)
      else session.ask (.code use (unmarked line :: taken)) "" := by
  rw [read, hstage]
  rfl

/-- **One line**: what it makes of a session follows from the lines behind the last menu. -/
theorem turn_of_read (h : session.stage.Behind lines) (line : String) :
    Turn session.desk (lines ++ [line]) (session.read line).1 := by
  obtain ⟨desk, colors, stage⟩ := session
  cases stage with
  | choice =>
    obtain rfl : lines = [] := h
    exact turn_of_choose _ line
  | name archetype =>
    obtain ⟨choice, rfl, hchoice⟩ := h
    exact .asks rfl ⟨choice, line, rfl, hchoice⟩
  | address archetype name =>
    obtain ⟨choice, name, rfl, hchoice⟩ := h
    have hround : standing [choice, name, line] = some (.finished none) := by
      rw [standing, hchoice]
      rfl
    exact .returns hround rfl rfl
  | concept =>
    obtain ⟨choice, rfl, hchoice⟩ := h
    have hround : standing [choice, line] = some (.finished none) := by
      rw [standing, hchoice]
      rfl
    exact .returns hround rfl rfl
  | code use taken =>
    obtain ⟨choice, block, rfl, hchoice, hblock, rfl⟩ := h
    rw [List.cons_append]
    by_cases hline : trimmed line = "END"
    · rw [read_of_code rfl, if_pos hline, useCode_desk]
      refine .returns ?_ rfl rfl
      rw [standing, hchoice]
      exact standing_block_concat use hblock hline
    · rw [read_of_code rfl, if_neg hline, ask]
      refine .asks rfl ⟨choice, block ++ [line], rfl, hchoice, ?_, ?_⟩
      · intro other hother
        rcases List.mem_append.mp hother with hother | hother
        · exact hblock other hother
        · exact List.mem_singleton.mp hother ▸ hline
      · rw [List.map_append, List.reverse_append]
        rfl
  | _ => exact h.elim

/-- The lines behind the last menu that lead to a stage are unfinished. If the input ends behind
them, what the session takes in is their source. -/
theorem close_of_behind (h : session.stage.Behind lines) :
    ∃ source, standing lines = some (.unfinished source) ∧
      session.close.1.desk = session.desk.analyzeEach source.toList := by
  obtain ⟨desk, colors, stage⟩ := session
  cases stage with
  | choice =>
    obtain rfl : lines = [] := h
    exact ⟨none, rfl, rfl⟩
  | name archetype =>
    obtain ⟨choice, rfl, hchoice⟩ := h
    exact ⟨none, by rw [standing, hchoice]; rfl, rfl⟩
  | address archetype name =>
    obtain ⟨choice, name, rfl, hchoice⟩ := h
    exact ⟨none, by rw [standing, hchoice]; rfl, rfl⟩
  | concept =>
    obtain ⟨choice, rfl, hchoice⟩ := h
    exact ⟨none, by rw [standing, hchoice]; rfl, rfl⟩
  | code use taken =>
    obtain ⟨choice, block, rfl, hchoice, hblock, rfl⟩ := h
    refine ⟨use.source? block, ?_, ?_⟩
    · rw [standing, hchoice]
      exact standing_block use hblock
    · simp only [close, useCode_desk]
      rfl
  | _ => exact h.elim

/-! ## All lines -/

/-- The run of a session on an input comes out as a reading of the lines behind the last menu and
those of the input says. -/
structure Follows (session : Session) (lines : List String) (input : List Bytes)
    (reading : Reading) : Prop where
  /-- It is the reading of the lines. -/
  course : Course (lines.map Text.encode ++ input) reading
  /-- The run fails as the reading ends. -/
  failure : (session.run input).failure = reading.ending.failure?
  /-- The sources of the reading are taken in. -/
  context : (session.run input).context = session.desk.context.extractAll reading.sources
  /-- A run that does not come to the end of the input does not depend on what stands behind the
  lines that are read. -/
  taken : ∃ taken, reading.lines = lines.map Text.encode ++ taken ∧
    (reading.ending ≠ .inputOver → ∀ rest,
      (session.run (taken ++ rest)).delivered = (session.run input).delivered)

theorem stage_ne_over (h : session.stage.Behind lines) : session.stage ≠ .over := fun hover => by
  rw [hover] at h
  exact h

theorem run_text (hstage : session.stage ≠ .over) (text : String) (rest : List Bytes) :
    session.run (Text.encode text :: rest) =
      ((session.read text).1.run rest).after (session.read text).2
        (session.read text).1.desk.context := by
  rw [run, if_neg hstage, Text.asText_encode]

/-- A line that is read goes behind those that have been read since the last menu. -/
theorem map_encode_append_cons (lines : List String) (text : String) (rest : List Bytes) :
    lines.map Text.encode ++ Text.encode text :: rest =
      (lines ++ [text]).map Text.encode ++ rest := by
  simp

namespace Follows

variable {reading : Reading} {source : Option String} {rest : List Bytes} {text : String}

theorem of_nil (hlines : standing lines = some (.unfinished source))
    (hdesk : session.close.1.desk = session.desk.analyzeEach source.toList) :
    Follows session lines [] ⟨lines.map Text.encode, source.toList, .inputOver⟩ := by
  refine ⟨?_, rfl, ?_, [], ?_⟩
  · rw [List.append_nil]
    exact .inputOver hlines
  · change session.close.1.desk.context = _
    rw [hdesk, Desk.analyzeEach_eq]
  · exact ⟨(List.append_nil _).symm, fun hends => absurd rfl hends⟩

theorem of_notText (hstage : session.stage ≠ .over)
    (hlines : standing lines = some (.unfinished source)) {line : Bytes}
    (hline : Text.decode? line = none) :
    Follows session lines (line :: rest) ⟨lines.map Text.encode ++ [line], [], .notText⟩ := by
  have hrun : ∀ tail, session.run (line :: tail) =
      .broken (.system FileError.notText.message) session.desk.context := fun tail => by
    rw [run, if_neg hstage, FileAccess.asText, hline]
  refine ⟨.notText hlines hline, ?_, ?_, [line], rfl, fun _ tail => ?_⟩
  · rw [hrun]
    rfl
  · rw [hrun]
    rfl
  · rw [List.singleton_append, hrun, hrun]

theorem of_asks (hstage : session.stage ≠ .over) (hdesk : (session.read text).1.desk = session.desk)
    (h : Follows (session.read text).1 (lines ++ [text]) rest reading) :
    Follows session lines (Text.encode text :: rest) reading := by
  obtain ⟨taken, hlines, htaken⟩ := h.taken
  refine ⟨?_, ?_, ?_, Text.encode text :: taken, ?_, fun hends tail => ?_⟩
  · rw [map_encode_append_cons]
    exact h.course
  · rw [run_text hstage]
    exact h.failure
  · rw [run_text hstage, ← hdesk]
    exact h.context
  · rw [map_encode_append_cons, hlines]
  · rw [List.cons_append, run_text hstage, run_text hstage, Transcript.delivered_after,
      htaken hends tail, Transcript.delivered_after]

theorem of_returns (hstage : session.stage ≠ .over)
    (hround : standing (lines ++ [text]) = some (.finished source))
    (hdesk : (session.read text).1.desk = session.desk.analyzeEach source.toList)
    (h : Follows (session.read text).1 [] rest reading) :
    Follows session lines (Text.encode text :: rest) (reading.behind (lines ++ [text]) source) := by
  obtain ⟨taken, hlines, htaken⟩ := h.taken
  refine ⟨?_, ?_, ?_, Text.encode text :: taken, ?_, fun hends tail => ?_⟩
  · rw [map_encode_append_cons]
    exact .round hround h.course
  · rw [run_text hstage]
    exact h.failure
  · rw [run_text hstage]
    refine h.context.trans ?_
    rw [hdesk, Desk.analyzeEach_eq]
    exact List.foldl_append.symm
  · rw [map_encode_append_cons, Reading.behind, hlines]
    rfl
  · rw [List.cons_append, run_text hstage, run_text hstage, Transcript.delivered_after,
      htaken hends tail, Transcript.delivered_after]

theorem of_leaves (hstage : session.stage ≠ .over)
    (hround : standing (lines ++ [text]) = some .left)
    (hdesk : (session.read text).1.desk = session.desk)
    (hnext : (session.read text).1.stage = .over) :
    Follows session lines (Text.encode text :: rest)
      ⟨(lines ++ [text]).map Text.encode, [], .left⟩ := by
  have hover := run_over hnext rest
  refine ⟨?_, ?_, ?_, [Text.encode text], ?_, fun _ tail => ?_⟩
  · rw [map_encode_append_cons]
    exact .left hround
  · rw [run_text hstage]
    exact congrArg Transcript.Delivery.failure hover
  · rw [run_text hstage]
    exact (congrArg Transcript.Delivery.context hover).trans (congrArg Desk.context hdesk)
  · rw [map_encode_append_cons, List.append_nil]
  · rw [List.singleton_append, run_text hstage, run_text hstage, Transcript.delivered_after,
      run_over hnext tail, Transcript.delivered_after, hover]

end Follows

/-- **A run follows a reading**, whatever the lines: by induction on those to come, one turn for
each. -/
theorem run_follows (input : List Bytes) {session : Session} {lines : List String}
    (h : session.stage.Behind lines) : ∃ reading, Follows session lines input reading := by
  induction input generalizing session lines with
  | nil =>
    obtain ⟨source, hlines, hdesk⟩ := close_of_behind h
    exact ⟨_, .of_nil hlines hdesk⟩
  | cons line rest ih =>
    have hstage := stage_ne_over h
    cases hline : Text.decode? line with
    | none =>
      obtain ⟨source, hlines, -⟩ := close_of_behind h
      exact ⟨_, .of_notText hstage hlines hline⟩
    | some text =>
      obtain rfl := Text.decode?_eq_some_iff.mp hline
      cases turn_of_read h text with
      | asks hdesk hnext =>
        obtain ⟨reading, hfollows⟩ := ih hnext
        exact ⟨reading, .of_asks hstage hdesk hfollows⟩
      | returns hround hdesk hnext =>
        have hmenu : (session.read text).1.stage.Behind [] := by
          rw [hnext]
          rfl
        obtain ⟨reading, hfollows⟩ := ih hmenu
        exact ⟨_, .of_returns hstage hround hdesk hfollows⟩
      | leaves hround hdesk hnext => exact ⟨_, .of_leaves hstage hround hdesk hnext⟩

/-- **Sessions take in whole blocks.** Whatever the desk has seen and whatever bytes are put in,
there is one reading of the lines, and the session comes to the end of it:
* it reads the lines of the reading, which stand at the front of the input, all of them where the
  reading ends with the input; otherwise no input that begins with them is told from this one;
* it fails where one of them is no text, by saying so, and does not fail otherwise;
* it leaves the context that the sources of the reading, and nothing else, are taken into: those of
  the blocks to be analyzed that were read to the line that ends them or to the end of the input. -/
theorem play_takes_whole_blocks (session : Session) (input : Bytes) :
    ∃ reading : Reading,
      (∀ other, Course (Text.lines 0x0a input) other ↔ other = reading) ∧
        reading.lines <+: Text.lines 0x0a input ∧
        (reading.ending = .inputOver → reading.lines = Text.lines 0x0a input) ∧
        (reading.ending ≠ .inputOver → ∀ other, reading.lines <+: Text.lines 0x0a other →
          (session.play other).delivered = (session.play input).delivered) ∧
        ((session.play input).delivered.failure.isSome ↔
          ∃ line ∈ reading.lines, Text.decode? line = none) ∧
        (session.play input).delivered.failure = reading.ending.failure? ∧
        (session.play input).delivered.context =
          session.desk.context.extractAll reading.sources := by
  have hmenu : (session.toMenu "").1.stage.Behind [] := rfl
  obtain ⟨reading, hcourse, hfailure, hcontext, taken, hlines, htaken⟩ :=
    run_follows (Text.lines 0x0a input) hmenu
  refine ⟨reading, fun other => ⟨hcourse.unique, ?_⟩, hcourse.lines_prefix,
    hcourse.lines_eq_of_inputOver, ?_, ?_, hfailure, hcontext⟩
  · rintro rfl
    exact hcourse
  · intro hends other ⟨rest, hother⟩
    rw [hlines] at hother
    simp only [play, Transcript.delivered_after, ← hother]
    exact congrArg (Transcript.Delivery.after _) (htaken hends rest)
  · rw [← hcourse.ending_eq_notText_iff]
    change (session.play input).failure.isSome = true ↔ _
    rw [show (session.play input).failure = reading.ending.failure? from hfailure]
    cases reading.ending <;> simp [Ending.failure?]

/-- A block to be analyzed and one to be reviewed, and then one that a line in it breaks off, or
that the input ends in. -/
theorem play_takes_whole_blocks_broken :
    let whole := "7\nstruct\r\nA\n END \n6\nstruct R\nEND\n7\nstruct B\r\n"
    let broken := Text.encode whole ++ 0xff :: Text.encode "\nEND\n7\nstruct C\n"
    let ended := Text.encode (whole ++ "\x7b")
    (∃ reading, (∀ other, Course (Text.lines 0x0a broken) other ↔ other = reading) ∧
        reading.sources = ["struct\nA"] ∧ reading.ending = .notText) ∧
      (play {} broken).delivered.failure = some (.system "stream did not contain valid UTF-8") ∧
      (play {} broken).delivered.context = .ofInserts [(.structs, "A")] ∧
      (∃ reading, (∀ other, Course (Text.lines 0x0a ended) other ↔ other = reading) ∧
        reading.sources = ["struct\nA", "struct B\n\x7b"] ∧ reading.ending = .inputOver) ∧
      (play {} ended).delivered.failure = none ∧
      (play {} ended).delivered.context = .ofInserts [(.structs, "A"), (.structs, "B")] := by
  intro whole broken ended
  let analysis := ["7\n", "struct\r\n", "A\n", " END \n"]
  let review := ["6\n", "struct R\n", "END\n"]
  have hanalysis : standing analysis = some (.finished (some "struct\nA")) := by decide +kernel
  have hreview : standing review = some (.finished none) := by decide +kernel
  obtain ⟨reading, hread, -, -, -, -, hfailure, hcontext⟩ := play_takes_whole_blocks {} broken
  obtain ⟨reading', hread', -, -, -, -, hfailure', hcontext'⟩ := play_takes_whole_blocks {} ended
  have hbroken : Text.lines 0x0a broken = analysis.map Text.encode ++ (review.map Text.encode ++
      (["7\n", "struct B\r\n"].map Text.encode ++
        [0xff, 0x0a] :: ["END\n", "7\n", "struct C\n"].map Text.encode)) := by
    decide +kernel
  have hended : Text.lines 0x0a ended = analysis.map Text.encode ++ (review.map Text.encode ++
      ["7\n", "struct B\r\n", "\x7b"].map Text.encode) := by
    decide +kernel
  have hlost : standing ["7\n", "struct B\r\n"] = some (.unfinished (some "struct B")) := by
    decide +kernel
  have hlast : standing ["7\n", "struct B\r\n", "\x7b"] =
      some (.unfinished (some "struct B\n\x7b")) := by
    decide +kernel
  have hnoText : Text.decode? [0xff, 0x0a] = none := by decide +kernel
  have hcourses := hread
  rw [hbroken] at hcourses
  obtain rfl :=
    (hcourses _).mp (.round hanalysis (.round hreview (.notText hlost hnoText)))
  have hcourses' := hread'
  rw [hended] at hcourses'
  obtain rfl := (hcourses' _).mp (.round hanalysis (.round hreview (.inputOver hlast)))
  refine ⟨⟨_, hread, rfl, rfl⟩, hfailure, hcontext.trans ?_, ⟨_, hread', rfl, rfl⟩, hfailure',
    hcontext'.trans ?_⟩
  · decide +kernel
  · decide +kernel

end Session

end MoveDesk
