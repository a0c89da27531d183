import MoveDesk.Files
import MoveDesk.Report
import MoveDesk.Transcript

/-!
# Sessions

The talk by a numbered menu that the command `interactive` leads, line by line: choices 1 to 4 write
a contract, 5 explains a concept, 6 reviews a block of code, 7 takes one into the context, 8 shows
the context, and 0 ends the talk.

* A session is a machine that takes a line at a time. `Stage` is what the next line is, and `read`
  gives the session behind the line and the text that it puts out. `choose` is the menu.
* A block of code goes on to a line that says `endOfCode`. `useCode` takes it as a whole, so code
  that is entered changes the context only when the whole block has been read.
* `close` is what happens at the end of the input, where a block ends too.
* `play` is a whole session, from the first menu on. It breaks off at a line that is no text.
-/

namespace MoveDesk

/-- What a block of code is entered for. -/
inductive CodeUse where
  /-- To be reviewed. -/
  | review
  /-- To be taken into the context. -/
  | analyze
deriving DecidableEq, Repr

/-- What the next line is. -/
inductive Stage where
  /-- A choice from the menu. -/
  | choice
  /-- The name of a contract. -/
  | name (archetype : Intent)
  /-- The address of a contract. -/
  | address (archetype : Intent) (name : String)
  /-- A concept. -/
  | concept
  /-- A line of a block of code, behind the ones read so far, held in reverse. -/
  | code (use : CodeUse) (lines : List String)
  /-- No line is read any more. -/
  | over
deriving DecidableEq, Repr

/-- A talk with the desk. -/
structure Session where
  /-- The desk. -/
  desk : Desk := {}
  /-- Answers are coloured. -/
  colors : Bool := false
  /-- What the next line is. -/
  stage : Stage := .choice

namespace Session

/-! ## What is said -/

/-- The menu. -/
def menu : String :=
  "\n=== movesmith: Move contract assistant ===\n" ++
    asLines [
      "1. Generate token contract",
      "2. Generate NFT contract",
      "3. Generate marketplace contract",
      "4. Generate generic module",
      "5. Explain a Move concept",
      "6. Review code",
      "7. Analyze code into context",
      "8. Show context",
      "0. Exit"]

/-- The question for a choice. -/
def choicePrompt : String := "Choice: "

/-- The question for a name. -/
def namePrompt : String := "Contract name (blank for default): "

/-- The question for an address. -/
def addressPrompt : String := "Address (blank for " ++ Parameters.defaultAddress ++ "): "

/-- The question for a concept. -/
def conceptPrompt : String := "Concept (abilities, resources, acquires, signer): "

/-- The line that ends a block of code. -/
def endOfCode : String := "END"

/-- The question for a block of code. -/
def codePrompt : String := "Paste Move code, then a line containing only " ++ endOfCode ++ ":\n"

/-- The answer to a line that is no choice. -/
def invalidChoice (line : String) : String :=
  "Invalid choice '" ++ line ++ "'. Enter a number from 0 to 8.\n"

/-! ## What a line does -/

/-- The session that asks next for `stage`, saying `text`. -/
def ask (session : Session) (stage : Stage) (text : String) : Session × String :=
  ({ session with stage }, text)

/-- The session back at the menu, behind the text. -/
def toMenu (session : Session) (text : String) : Session × String :=
  session.ask .choice (text ++ menu ++ choicePrompt)

/-- The line without the blanks around it. -/
def word (line : String) : String := String.ofList (Text.trim line.toList)

/-- The line without the marks at its end. -/
def content (line : String) : String :=
  String.ofList (line.toList.reverse.dropWhile fun c => c = '\n' || c = '\r').reverse

/-- The parameters that a name and an address stand for. -/
def parameters (name address : String) : Parameters :=
  ((∅ : Parameters).withName name).withAddress address

/-- What happens to a block of code. -/
def useCode (session : Session) (use : CodeUse) (code : String) : Session × String :=
  match use with
  | .review => session.toMenu ("\n" ++ (Report.review code).text session.colors)
  | .analyze =>
    let (desk, growth) := session.desk.analyze code
    { session with desk }.toMenu ("\nAdded to context: " ++ growth.text ++ "\n")

/-- The code with the given lines, held in reverse. -/
def joinCode (lines : List String) : String := "\n".intercalate lines.reverse

/-- What a choice leads to. -/
def choose (session : Session) (choice : String) : Session × String :=
  match choice with
  | "1" => session.ask (.name .token) namePrompt
  | "2" => session.ask (.name .nft) namePrompt
  | "3" => session.ask (.name .marketplace) namePrompt
  | "4" => session.ask (.name .module) namePrompt
  | "5" => session.ask .concept conceptPrompt
  | "6" => session.ask (.code .review []) codePrompt
  | "7" => session.ask (.code .analyze []) codePrompt
  | "8" => session.toMenu (session.desk.context.snapshot.describe session.colors)
  | "0" => session.ask .over "Goodbye!\n"
  | other => session.toMenu (invalidChoice other)

/-- The session behind a line, and what it says. -/
def read (session : Session) (line : String) : Session × String :=
  match session.stage with
  | .choice => session.choose (word line)
  | .name archetype => session.ask (.address archetype (word line)) addressPrompt
  | .address archetype name =>
    let code := session.desk.generate archetype.label (parameters name (word line))
    session.toMenu ("\n" ++ code ++ "\n")
  | .concept => session.toMenu ("\n" ++ Desk.explain (word line) ++ "\n")
  | .code use lines =>
    if word line = endOfCode then session.useCode use (joinCode lines)
    else session.ask (.code use (content line :: lines)) ""
  | .over => session.ask .over ""

/-- The session at the end of the input, and what it says: a block of code ends there too. -/
def close (session : Session) : Session × String :=
  match session.stage with
  | .code use lines => session.useCode use (joinCode lines)
  | _ => session.ask .over ""

/-! ## Whole sessions -/

/-- What the session puts out for the given lines. A line that is no text breaks it off. -/
def run (session : Session) : List Bytes → Transcript
  | [] =>
    let (session, text) := session.close
    .single text session.desk.context
  | line :: rest =>
    if session.stage = .over then { beats := [], context := session.desk.context }
    else
      match FileAccess.asText line with
      | .error error => .broken (.system error.message) session.desk.context
      | .ok line =>
        let (session, text) := session.read line
        (session.run rest).after text session.desk.context

/-- What the session puts out for the given input, from the menu on. -/
def play (session : Session) (input : Bytes) : Transcript :=
  let (session, text) := session.toMenu ""
  (session.run (Text.lines 0x0a input)).after text session.desk.context

end Session

end MoveDesk
