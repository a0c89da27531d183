import MoveDesk.Command
import MoveDesk.Text.Find

/-!
# Command lines

`CommandLine.parse` reads the arguments of the program, from left to right. A command is named by a
verb; options for the whole program may stand on either side of it. An option may be given once on
each side, and the one behind the verb counts more.
-/

namespace MoveDesk.CommandLine

/-- The word that names a command. -/
inductive Verb where
  /-- Generate a contract. -/
  | generate
  /-- Explain a concept. -/
  | explain
  /-- Review a source. -/
  | review
  /-- Take files into a context. -/
  | analyze
  /-- List the templates. -/
  | templates
  /-- Talk by a menu. -/
  | interactive
  /-- Serve. -/
  | serve
deriving DecidableEq, Repr

/-- The verb that the word names. -/
def Verb.ofWord? : String → Option Verb
  | "generate" | "gen" => some .generate
  | "explain" => some .explain
  | "review" => some .review
  | "analyze" => some .analyze
  | "templates" => some .templates
  | "interactive" => some .interactive
  | "serve" => some .serve
  | _ => none

/-- An option. -/
inductive Switch where
  /-- Where the settings file is. -/
  | config
  /-- The format of the answer. -/
  | output
  /-- Log more. -/
  | verbose
  /-- Log as JSON. -/
  | logJson
  /-- The name of a contract. -/
  | name
  /-- The address of a contract. -/
  | address
  /-- A parameter of a contract. -/
  | param
  /-- The address to serve on. -/
  | listen
  /-- Say which version this is. -/
  | version
  /-- Say how to use the program. -/
  | help
deriving DecidableEq, Repr

namespace Switch

/-- A value belongs to the option. -/
def takesValue : Switch → Bool
  | verbose | logJson | version | help => false
  | _ => true

/-- The option may stand behind the verb, or before any. -/
def allowedAt (verb : Option Verb) : Switch → Bool
  | name | address | param => verb = some .generate
  | listen => verb = some .serve
  | version => verb.isNone
  | _ => true

/-- The option with the given letter. -/
def ofLetter? : Char → Option Switch
  | 'c' => some config
  | 'o' => some output
  | 'v' => some verbose
  | 'n' => some name
  | 'a' => some address
  | 'p' => some param
  | 'l' => some listen
  | 'V' => some version
  | 'h' => some help
  | _ => none

/-- The option with the given long name. -/
def ofName? : String → Option Switch
  | "config" => some config
  | "output" => some output
  | "verbose" => some verbose
  | "log-json" => some logJson
  | "name" => some name
  | "address" => some address
  | "param" => some param
  | "listen" => some listen
  | "version" => some version
  | "help" => some help
  | _ => none

end Switch

/-- Why no command is run. -/
inductive Stop where
  /-- The arguments make no sense. -/
  | usage
  /-- The version is asked for. -/
  | version
  /-- Help is asked for. -/
  | help
deriving DecidableEq, Repr

/-! ## Options -/

/-- The options that are given on one side of the verb. -/
structure Given where
  /-- Where the settings file is. -/
  config : Option String := none
  /-- The format of the answer. -/
  output : Option Format := none
  /-- Log more. -/
  verbose : Bool := false
  /-- Log as JSON. -/
  logJson : Bool := false
  /-- The name of a contract. -/
  name : Option String := none
  /-- The address of a contract. -/
  address : Option String := none
  /-- The parameters of a contract. -/
  params : List (String × String) := []
  /-- The address to serve on. -/
  listen : Option String := none
deriving DecidableEq, Repr

/-- A parameter: a name, an equals sign and a value. The name is not blank, and the blanks around
it do not belong to it. -/
def parameter? (text : String) : Option (String × String) := do
  let (name, value) ← Text.cut? ['='] text.toList
  let name := Text.trim name
  if name.isEmpty then none else return (String.ofList name, String.ofList value)

namespace Given

/-- A value that is given for the first time. -/
def once {α : Type} (earlier : Option α) (value : Option α) : Except Stop (Option α) :=
  if earlier.isSome || value.isNone then .error .usage else .ok value

/-- The options with a value for one more of them. -/
def withValue (given : Given) (switch : Switch) (value : String) : Except Stop Given := do
  match switch with
  | .config => return { given with config := ← once given.config (some value) }
  | .output => return { given with output := ← once given.output (Format.ofLabel? value) }
  | .name => return { given with name := ← once given.name (some value) }
  | .address => return { given with address := ← once given.address (some value) }
  | .listen => return { given with listen := ← once given.listen (some value) }
  | .param =>
    match parameter? value with
    | some param => return { given with params := given.params ++ [param] }
    | none => .error .usage
  | _ => .error .usage

/-- The options with one more that takes no value. -/
def withFlag (given : Given) (switch : Switch) : Except Stop Given :=
  match switch with
  | .verbose => if given.verbose then .error .usage else .ok { given with verbose := true }
  | .logJson => if given.logJson then .error .usage else .ok { given with logJson := true }
  | .version => .error .version
  | .help => .error .help
  | _ => .error .usage

end Given

/-! ## From left to right -/

/-- How far the arguments have been read. -/
structure Reading where
  /-- The verb. -/
  verb : Option Verb := none
  /-- The options on the left of the verb. -/
  before : Given := {}
  /-- The options behind the verb. -/
  behind : Given := {}
  /-- The words behind the verb that are neither options nor their values. -/
  words : List String := []
  /-- The option that the next argument is the value of. -/
  awaiting : Option Switch := none
  /-- All further arguments are words. -/
  onlyWords : Bool := false
  /-- What help is asked for with, if it is asked for by a word: all that comes behind it. -/
  topics : Option (List String) := none
deriving DecidableEq, Repr

namespace Reading

/-- The options on this side of the verb. -/
def given (reading : Reading) : Given :=
  if reading.verb.isNone then reading.before else reading.behind

/-- The reading with other options on this side of the verb. -/
def withGiven (reading : Reading) (given : Given) : Reading :=
  if reading.verb.isNone then { reading with before := given } else { reading with behind := given }

/-- The option, if it may stand here. -/
def allowed (reading : Reading) (switch : Option Switch) : Except Stop Switch :=
  match switch.filter (·.allowedAt reading.verb) with
  | some switch => .ok switch
  | none => .error .usage

/-- The reading behind a value. -/
def readValue (reading : Reading) (switch : Switch) (value : String) : Except Stop Reading := do
  let given ← reading.given.withValue switch value
  return { reading.withGiven given with awaiting := none }

/-- The reading behind an option by its long name, which may bring its value. -/
def readLong (reading : Reading) (name : String) (value : Option String) : Except Stop Reading := do
  let switch ← reading.allowed (Switch.ofName? name)
  match switch.takesValue, value with
  | true, some value => reading.readValue switch value
  | true, none => return { reading with awaiting := some switch }
  | false, none => return reading.withGiven (← reading.given.withFlag switch)
  | false, some _ => .error .usage

/-- The reading behind options by their letters; the rest behind the first that takes a value is
that value, with an equals sign before it or without. -/
def readLetters (reading : Reading) : List Char → Except Stop Reading
  | [] => .ok reading
  | letter :: rest => do
    let switch ← reading.allowed (Switch.ofLetter? letter)
    if switch.takesValue then
      match rest with
      | [] => return { reading with awaiting := some switch }
      | '=' :: value => reading.readValue switch (String.ofList value)
      | value => reading.readValue switch (String.ofList value)
    else
      readLetters (reading.withGiven (← reading.given.withFlag switch)) rest

/-- The reading behind a word. How many words there may be depends on the verb, and a path is not
empty. -/
def readWord (reading : Reading) (word : String) : Except Stop Reading :=
  let more : Reading := { reading with words := reading.words ++ [word] }
  match reading.verb with
  | some .generate | some .explain => .ok more
  | some .review => if reading.words.isEmpty && word ≠ "" then .ok more else .error .usage
  | some .analyze => if word ≠ "" then .ok more else .error .usage
  | _ => .error .usage

/-- The word that asks for help. -/
def helpWord : String := "help"

/-- The reading behind the first word: a verb, or the word that asks for help. -/
def readVerb (reading : Reading) (word : String) : Except Stop Reading :=
  match Verb.ofWord? word with
  | some verb => .ok { reading with verb := some verb }
  | none => if word = helpWord then .ok { reading with topics := some [] } else .error .usage

/-- The reading behind an option, a word or a value. What looks like an option is never the value
of one. -/
def readNext (reading : Reading) (argument : String) : Except Stop Reading :=
  if reading.onlyWords then reading.readWord argument
  else
    match argument.toList with
    | '-' :: '-' :: long =>
      if reading.awaiting.isSome then .error .usage
      else if long.isEmpty then .ok { reading with onlyWords := true }
      else
        match Text.cut? ['='] long with
        | some (name, value) => reading.readLong (String.ofList name) (some (String.ofList value))
        | none => reading.readLong (String.ofList long) none
    | '-' :: letter :: rest =>
      if reading.awaiting.isSome then .error .usage else reading.readLetters (letter :: rest)
    | _ =>
      match reading.awaiting, reading.verb with
      | some switch, _ => reading.readValue switch argument
      | none, some _ => reading.readWord argument
      | none, none => reading.readVerb argument

/-- The reading behind an argument. -/
def read (reading : Reading) (argument : String) : Except Stop Reading :=
  match reading.topics with
  | some topics => .ok { reading with topics := some (topics ++ [argument]) }
  | none => reading.readNext argument

/-- Help on the topics: on the program, on a verb, or on help itself. There is no other. -/
def helpOn : List String → Stop
  | [] => .help
  | [topic] => if topic = helpWord || (Verb.ofWord? topic).isSome then .help else .usage
  | _ => .usage

/-- The command that has been read. -/
def command (reading : Reading) : Except Stop Command :=
  let words := reading.words
  match reading.verb with
  | none | some .interactive => .ok .interactive
  | some .templates => .ok .templates
  | some .generate =>
    let given := reading.behind
    if words.isEmpty then .error .usage
    else .ok (.generate ⟨words, given.params, given.name, given.address⟩)
  | some .explain => if words.isEmpty then .error .usage else .ok (.explain words)
  | some .review => .ok (.review words.head?)
  | some .analyze => if words.isEmpty then .error .usage else .ok (.analyze words)
  | some .serve => .ok (.serve reading.behind.listen)

end Reading

/-- What the arguments of the program ask for. -/
structure Invocation where
  /-- The command. -/
  command : Command
  /-- Where the settings file is. -/
  config : Option String := none
  /-- The format of the answer. -/
  output : Option Format := none
deriving DecidableEq, Repr

/-- What the arguments ask for, or why no command is run. -/
def parse (arguments : List String) : Except Stop Invocation := do
  let reading ← arguments.foldlM Reading.read ({} : Reading)
  if let some topics := reading.topics then .error (Reading.helpOn topics)
  if reading.awaiting.isSome then .error .usage
  return {
    command := ← reading.command
    config := reading.behind.config <|> reading.before.config
    output := reading.behind.output <|> reading.before.output }

end MoveDesk.CommandLine
