import MoveDesk.CommandLine
import MoveDesk.Settings.Load
import MoveDesk.Version

/-!
# The program

A run of the program, from its arguments, the environment, the files and the input to what it
writes and the code it ends with. The arguments are read first, then the settings, and the command
comes last.
-/

namespace MoveDesk

/-- What a run of the program starts from. -/
structure Program where
  /-- The arguments. -/
  arguments : List String
  /-- The environment. -/
  environment : Environment := []
  /-- What can be read. -/
  sources : Sources := {}
  /-- Why the server stopped that was started on the address, if it did. -/
  serve : SocketAddress → Option ServeError := fun _ => none

namespace Program

/-- How a run ends. -/
structure Outcome where
  /-- The code that it ends with. -/
  code : Nat
  /-- What it writes. -/
  output : String := ""
  /-- What it writes where errors are written. -/
  errors : String := ""
deriving DecidableEq, Repr

/-- The line that says how to use the program. -/
def usage : String :=
  "Usage: movesmith [OPTIONS] [generate|explain|review|analyze|templates|interactive|serve]"

/-- The outcome where no command is run. -/
def stopped : CommandLine.Stop → Outcome
  | .usage => { code := 2, errors := usage ++ "\n" }
  | .version => { code := 0, output := "movesmith " ++ version ++ "\n" }
  | .help => { code := 0, output := usage ++ "\n" }

/-- Answers are coloured only where that is forced. -/
def colors (program : Program) : Bool :=
  (program.environment.value? "CLICOLOR_FORCE").any (· ≠ "0")

/-- The lines that say what went wrong, behind a mark. -/
def complaint (colors : Bool) (error : CommandError) : String :=
  Text.Style.red.paint colors "✗" ++ " " ++ error.message ++ "\n"

/-- The outcome of a command. -/
def finished (colors : Bool) (transcript : Transcript) : Outcome where
  code := if transcript.failure.isNone then 0 else 1
  output := transcript.text
  errors := (transcript.failure.map (complaint colors)).getD ""

/-- The outcome where the settings cannot be loaded. What leads to no place of a list is a fault
that the program does not recover from. -/
def unsettled (colors : Bool) : LoadError → Outcome
  | .noPlace => { code := 101, errors := LoadError.noPlace.message ++ "\n" }
  | error => { code := 1, errors := complaint colors (.badSettings error.message) }

/-- Where the settings file is: the arguments count more than the environment. -/
def settingsPath (program : Program) (invocation : CommandLine.Invocation) : Option String :=
  invocation.config <|> program.environment.value? "MOVESMITH_CONFIG"

/-- What the command works with under the settings. -/
def bench (program : Program) (invocation : CommandLine.Invocation) (settings : Settings) :
    Bench where
  sources := program.sources
  format := invocation.output.getD settings.output
  colors := program.colors
  server := settings.server
  serve := program.serve

/-- The command that is to be run and what it works with, or the outcome if there is none. -/
def prepare (program : Program) : Except Outcome (Command × Bench) :=
  match CommandLine.parse program.arguments with
  | .error stop => .error (stopped stop)
  | .ok invocation =>
    match Settings.load program.sources.access (program.settingsPath invocation)
        program.environment with
    | .ok settings => .ok (invocation.command, program.bench invocation settings)
    | .error error => .error (unsettled program.colors error)

/-- The run of the program. -/
def run (program : Program) : Outcome :=
  match program.prepare with
  | .ok (command, bench) => finished program.colors (command.run bench)
  | .error outcome => outcome

/-- The paths of all files that the run may read. -/
def paths (program : Program) : List String :=
  match CommandLine.parse program.arguments with
  | .error _ => []
  | .ok invocation =>
    let settings := (program.settingsPath invocation).toList
    settings ++ settings.filterMap Settings.withExtension? ++ invocation.command.paths

end Program

end MoveDesk
