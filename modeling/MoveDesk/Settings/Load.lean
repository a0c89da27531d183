import MoveDesk.Files
import MoveDesk.Settings.Basic
import MoveDesk.Settings.Environment
import MoveDesk.Toml.Reader

/-!
# Loading settings

The settings that a run of the program starts with. Three layers make them up: the defaults, the
file that the option `config` or the variable `MOVESMITH_CONFIG` names, and the environment, each
written over the one before (`combine`).

* `fileLayer` reads the file. A path that leads to none is tried with `.toml` behind its last name
  (`withExtension?`) and then passed over; a file that is malformed is an error.
* `Setting.settings?` reads what the layers come to, and only that, so that a wrong value does no
  harm where a later layer has another one. Each kind of value is read from whatever can stand for
  it: `bool?`, `text?`, `format?`, `address?`.
* `load` is all of it.
-/

namespace MoveDesk

/-! ## Reading what is left -/

namespace Setting

/-- The setting as a truth value: a number is true unless it is zero. -/
def bool? : Setting → Option Bool
  | bool value => some value
  | int value => some (value ≠ 0)
  | real (.finite _ significand _) => some (significand ≠ 0)
  | real _ => some true
  | text word =>
    let word := Text.lowercase word
    if ["1", "true", "on", "yes"].contains word then some true
    else if ["0", "false", "off", "no"].contains word then some false
    else none
  | _ => none

/-- The setting as a text: numbers are written with as few digits as they need. -/
def text? : Setting → Option String
  | text value => some value
  | bool value => some (if value then "true" else "false")
  | int value => some (toString value)
  | real value => some value.positional
  | _ => none

/-- The setting as a format, in any case, or as a table with a format as its only key. -/
def format? : Setting → Option Format
  | text label => Format.ofLabel? (Text.lowercase label)
  | table [(label, _)] => Format.ofLabel? (Text.lowercase label)
  | _ => none

/-- The setting as an address. -/
def address? (setting : Setting) : Option SocketAddress := setting.text?.bind SocketAddress.parse?

/-- The settings of a group with the given names: a table, or a list with them in order. -/
def group? (names : List String) : Setting → Option Fields
  | table fields => some fields
  | list items => some (names.zip items)
  | _ => none

/-- What `read` makes of the setting under the key, or the default where there is none. -/
def readOr {α : Type} (default : α) (read : Setting → Option α) (key : String)
    (fields : Fields) : Option α :=
  match get? key fields with
  | some setting => read setting
  | none => some default

/-- The setting as the settings of the server. -/
def server? (setting : Setting) : Option ServerSettings := do
  let default : ServerSettings := {}
  let fields ← setting.group? ["listen_addr", "enable_cors"]
  return {
    listenAddress := ← readOr default.listenAddress address? "listen_addr" fields
    enableCors := ← readOr default.enableCors bool? "enable_cors" fields }

/-- The setting as the settings of the log. -/
def logging? (setting : Setting) : Option LogSettings := do
  let default : LogSettings := {}
  let fields ← setting.group? ["level", "json"]
  return {
    level := ← readOr default.level text? "level" fields
    json := ← readOr default.json bool? "json" fields }

/-- The setting as all settings. -/
def settings? (setting : Setting) : Option Settings := do
  let default : Settings := {}
  let fields ← setting.group? ["output", "server", "logging"]
  return {
    output := ← readOr default.output format? "output" fields
    server := ← readOr default.server server? "server" fields
    logging := ← readOr default.logging logging? "logging" fields }

end Setting

/-! ## The layers -/

/-- Why settings cannot be loaded. -/
inductive LoadError where
  /-- The file cannot be read as settings at all. -/
  | malformedFile (path : String)
  /-- What the layers come to makes no settings. -/
  | invalidValue
  /-- A key leads to a place that no list has. -/
  | noPlace
deriving DecidableEq, Repr

/-- The text of the error. -/
def LoadError.message : LoadError → String
  | malformedFile path => "the file " ++ path ++ " is malformed"
  | invalidValue => "a value is invalid"
  | noPlace => "a key leads to no place of a list"

namespace Settings

/-- The settings as a layer. -/
def layer (settings : Settings) : Setting.Fields :=
  [("output", .text settings.output.label),
    ("server", .table
      [("listen_addr", .text settings.server.listenAddress.text),
        ("enable_cors", .bool settings.server.enableCors)]),
    ("logging", .table
      [("level", .text settings.logging.level), ("json", .bool settings.logging.json)])]

/-- What the three layers come to, unless a key in them leads to no place. -/
def combine (file environment : Setting.Fields) : Option Setting :=
  [({} : Settings).layer, file, environment].foldlM Setting.withLayer (.table [])

/-- What the names of settings files end with. -/
def extension : String := ".toml"

/-- The name of a file that holds settings: something stands before the extension. -/
def isSettingsName (name : String) : Bool :=
  extension.length < name.length && extension.toList.isSuffixOf name.toList

/-- The path with the extension behind its last name. -/
def withExtension? (path : String) : Option String := do
  let names := (Files.namesOf path).reverse.dropWhile Files.isHere
  let name :: above := names | none
  if name = ".." then none
  return "/".intercalate ((name ++ extension) :: above).reverse

/-- The text of the settings file that the path leads to, with or without the extension. A path
that leads to no such file, or to one that is no text, is passed over. -/
def fileText? (access : FileAccess) (path : String) : Option String :=
  match access path with
  | .ok content =>
    let name := ((Files.namesOf path).reverse.dropWhile Files.isHere).head?.getD ""
    if isSettingsName name then (FileAccess.asText content).toOption else none
  | .error _ => (withExtension? path).bind fun path => (access.readText path).toOption

/-- The layer of the settings file that the path leads to. -/
def fileLayer (access : FileAccess) (path : String) : Except LoadError Setting.Fields :=
  match fileText? access path with
  | none => .ok []
  | some text =>
    match Toml.parse? text with
    | some fields => .ok fields
    | none => .error (.malformedFile path)

/-- The settings from a file, if there is one, and from the environment. -/
def load (access : FileAccess) (path : Option String) (environment : Environment) :
    Except LoadError Settings := do
  let file ← path.elim (.ok []) (fileLayer access)
  let some setting := combine file environment.layer | .error .noPlace
  match setting.settings? with
  | some settings => .ok settings
  | none => .error .invalidValue

end Settings

end MoveDesk
