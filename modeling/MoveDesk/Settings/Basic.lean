import MoveDesk.SocketAddress

/-!
# Settings

What can be set from outside, in the settings file or by `MOVESMITH_` variables: the format of
answers (`output`), where the server listens and whom it lets in (`server.listen_addr`,
`server.enable_cors`), and how the program logs (`logging.level`, `logging.json`).

* `Settings` are all of them, each with its default.
* `ServerSettings.withListen` is the address that the command `serve` may be given besides.
* `ServeError` and `CommandError` are why a command fails, with the texts that it says.
-/

namespace MoveDesk

/-- The format of a command's answer. -/
inductive Format where
  /-- For people: code and findings as they are. -/
  | text
  /-- JSON. -/
  | json
  /-- YAML. -/
  | yaml
deriving DecidableEq, Repr

namespace Format

/-- All formats. -/
def all : List Format := [text, json, yaml]

/-- The name of the format. -/
def label : Format → String
  | text => "text"
  | json => "json"
  | yaml => "yaml"

/-- The format with the given name. -/
def ofLabel? (label : String) : Option Format := all.find? (·.label = label)

end Format

/-- Where the server listens if nothing else is said: at the machine itself. -/
def SocketAddress.standard : SocketAddress := ⟨.v4 #v[127, 0, 0, 1], 8080⟩

/-- Where the server listens and whom it lets in. -/
structure ServerSettings where
  /-- The address. -/
  listenAddress : SocketAddress := .standard
  /-- Pages of any origin may call the server. -/
  enableCors : Bool := true
deriving DecidableEq, Repr

/-- How the program logs. -/
structure LogSettings where
  /-- What is logged. -/
  level : String := "info"
  /-- Log lines are JSON. -/
  json : Bool := false
deriving DecidableEq, Repr

/-- All settings. -/
structure Settings where
  /-- The format of answers where no other is asked for. -/
  output : Format := .text
  /-- The server. -/
  server : ServerSettings := {}
  /-- The log. -/
  logging : LogSettings := {}
deriving DecidableEq, Repr

/-- Why the server cannot serve. -/
inductive ServeError where
  /-- It is set up wrongly. -/
  | badSettings (text : String)
  /-- It stopped. -/
  | stopped (text : String)
  /-- The system refused. -/
  | system (text : String)
deriving DecidableEq, Repr

/-- The text of the error. -/
def ServeError.message : ServeError → String
  | badSettings text => "Configuration error: " ++ text
  | stopped text => "Server error: " ++ text
  | system text => "IO error: " ++ text

/-- Why a command fails. -/
inductive CommandError where
  /-- The settings cannot be read. -/
  | badSettings (text : String)
  /-- An argument makes no sense. -/
  | badArgument (text : String)
  /-- The server cannot serve. -/
  | serve (error : ServeError)
  /-- The system refused. -/
  | system (text : String)
  /-- The answer cannot be written as JSON. -/
  | json (text : String)
  /-- The answer cannot be written as YAML. -/
  | yaml (text : String)
deriving DecidableEq, Repr

/-- The text of the error. -/
def CommandError.message : CommandError → String
  | badSettings text => "Configuration error: " ++ text
  | badArgument text => "Invalid argument: " ++ text
  | serve error => error.message
  | system text => "IO error: " ++ text
  | json text => "JSON error: " ++ text
  | yaml text => "YAML error: " ++ text

/-- The settings with the address that the text is written for. -/
def ServerSettings.withListen (settings : ServerSettings) (listen : String) :
    Except ServeError ServerSettings :=
  match SocketAddress.parse? listen with
  | some listenAddress => .ok { settings with listenAddress }
  | none => .error (.badSettings
      ("invalid listen address '" ++ listen ++ "': invalid socket address syntax"))

end MoveDesk
