import MoveDesk.Session

/-!
# Commands

The commands of the program, each with all its arguments: `generate`, `explain`, `review`,
`analyze`, `templates`, `interactive` and `serve`.

* `Command.run` gives the transcript of a command, from what it works with (`Bench`). Nothing is
  written before all that the command reads has been read.
* A source comes from a path, or from the input where the path is `-` (`Sources.read`).
* `Desk.analyzeAll` takes several files into one context, and stops at the first that has no text.
-/

namespace MoveDesk

/-- What is to be generated. -/
structure Order where
  /-- The words of the instruction. -/
  words : List String
  /-- Parameters, a later one in place of an earlier one of the same name. -/
  params : List (String × String) := []
  /-- The name of the contract. -/
  name : Option String := none
  /-- The address of the contract. -/
  address : Option String := none
deriving DecidableEq, Repr

namespace Order

/-- The words as one text. -/
def instruction (order : Order) : String := " ".intercalate order.words

/-- All parameters; the name and the address count more than parameters of these names. -/
def parameters (order : Order) : Parameters :=
  let params := Parameters.ofList order.params
  let params := order.name.elim params params.withName
  order.address.elim params params.withAddress

end Order

/-- Something that the program is asked to do. -/
inductive Command where
  /-- Generate a contract. -/
  | generate (order : Order)
  /-- Explain the concept that the words name. -/
  | explain (words : List String)
  /-- Review a file, or the input. -/
  | review (path : Option String)
  /-- Take files into one context. -/
  | analyze (paths : List String)
  /-- List the templates. -/
  | templates
  /-- Talk by a menu. -/
  | interactive
  /-- Serve on the given address. -/
  | serve (listen : Option String)
deriving DecidableEq, Repr

/-- What can be read. -/
structure Sources where
  /-- The files. -/
  access : FileAccess := ({} : Files).read
  /-- The input, as far as it has not been read. -/
  input : Bytes := []

namespace Sources

/-- The path stands for the input. -/
def isInput (path : String) : Bool :=
  match Files.namesOf path with
  | name :: rest => name = "-" && rest.all Files.isHere
  | [] => false

/-- The input as a text, which can be read only once. -/
def readInput (sources : Sources) : Sources × Except FileError String :=
  ({ sources with input := [] }, FileAccess.asText sources.input)

/-- The text that the path leads to. -/
def read (sources : Sources) (path : String) : Sources × Except FileError String :=
  if isInput path then sources.readInput else (sources, sources.access.readText path)

end Sources

namespace Command

/-- The paths that the command reads. -/
def paths : Command → List String
  | review path => path.toList
  | analyze paths => paths
  | _ => []

/-- The command reads all of the input before it does anything else. -/
def readsInput (command : Command) : Bool :=
  command = review none || command.paths.any Sources.isInput

end Command

/-- The desk that has seen the texts that the paths lead to, and how many names each of them added.
It stops at the first path that leads to no text. -/
def Desk.analyzeAll (desk : Desk) (sources : Sources) :
    List String → Desk × Except FileError (List (String × Growth))
  | [] => (desk, .ok [])
  | path :: rest =>
    match sources.read path with
    | (_, .error error) => (desk, .error error)
    | (sources, .ok source) =>
      let (desk, growth) := desk.analyze source
      let (desk, others) := desk.analyzeAll sources rest
      (desk, others.map ((path, growth) :: ·))

/-- What a command works with. -/
structure Bench where
  /-- The desk. -/
  desk : Desk := {}
  /-- What can be read. -/
  sources : Sources := {}
  /-- The format of the answer. -/
  format : Format := .text
  /-- Answers as text are coloured. -/
  colors : Bool := false
  /-- How the server is set up. -/
  server : ServerSettings := {}
  /-- Why the server stopped that was started on the address, if it did. -/
  serve : SocketAddress → Option ServeError := fun _ => none

namespace Bench

/-- The transcript of a report. -/
def present (bench : Bench) (report : Report) : Transcript :=
  .single (report.write bench.format bench.colors) bench.desk.context

/-- The review of a text, if it could be read. -/
def review (bench : Bench) : Except FileError String → Transcript
  | .ok source => bench.present (.review source)
  | .error error => .broken (.system error.message) bench.desk.context

/-- The context that the paths lead to. -/
def analyze (bench : Bench) (paths : List String) : Transcript :=
  match bench.desk.analyzeAll bench.sources paths with
  | (desk, .ok added) => { bench with desk }.present (.analysis added desk.context)
  | (desk, .error error) => .broken (.system error.message) desk.context

/-- The server on the given address, or where the settings say. -/
def runServer (bench : Bench) (listen : Option String) : Transcript :=
  match listen.elim (.ok bench.server) bench.server.withListen with
  | .error error => .broken (.serve error) bench.desk.context
  | .ok settings =>
    { beats := []
      context := bench.desk.context
      failure := (bench.serve settings.listenAddress).map .serve }

end Bench

/-- What the command puts out. -/
def Command.run (bench : Bench) : Command → Transcript
  | .generate order => bench.present (.generation bench.desk order.instruction order.parameters)
  | .explain words => bench.present (.explanation (" ".intercalate words))
  | .review none => bench.review bench.sources.readInput.2
  | .review (some path) => bench.review (bench.sources.read path).2
  | .analyze paths => bench.analyze paths
  | .templates => bench.present (.templates bench.desk)
  | .interactive =>
    Session.play { desk := bench.desk, colors := bench.colors } bench.sources.input
  | .serve listen => bench.runServer listen

end MoveDesk
