import MoveDesk.Data
import MoveDesk.Desk
import MoveDesk.Text.Style
import MoveDesk.Yaml.Printer

/-!
# Reports

The answers of the commands, in the three formats of the option `output`: as text, as JSON or as
YAML. The two data formats write the same value.
-/

namespace MoveDesk

/-- The line of a finding, in the colour of its severity. -/
def Finding.paintedLine (finding : Finding) (colors : Bool) : String :=
  let style := match finding.severity with
    | .warning => Text.Style.yellow
    | .suggestion => .cyan
    | .confirmation => .green
  style.paint colors finding.line

/-- The texts, each as a line. -/
def asLines (texts : List String) : String := String.join (texts.map (· ++ "\n"))

theorem asLines_cons (text : String) (texts : List String) :
    asLines (text :: texts) = text ++ "\n" ++ asLines texts := by
  simp only [asLines, List.map_cons, String.join_cons]

/-- The lists of a context under their headings. -/
def Snapshot.describe (snapshot : Snapshot) (colors : Bool) : String :=
  let list (heading : String) (names : List String) :=
    Text.Style.bold.paint colors heading ++ " (" ++ toString names.length ++ ")\n" ++
      asLines (names.map ("  " ++ ·))
  if snapshot.isEmpty then Text.Style.dim.paint colors "Context is empty" ++ "\n"
  else
    list "Modules" snapshot.modules ++ list "Structs" snapshot.structs ++
      list "Functions" snapshot.functions

/-- An answer in every format. -/
structure Report where
  /-- The answer as data. -/
  data : Json
  /-- The answer as text, with colours or without. -/
  text : Bool → String

namespace Report

/-- The report in the given format. -/
def write (report : Report) (format : Format) (colors : Bool) : String :=
  match format with
  | .text => report.text colors
  | .json => report.data.pretty ++ "\n"
  | .yaml => Yaml.document report.data

/-- The code for an instruction. -/
def generation (desk : Desk) (instruction : String) (params : Parameters) : Report :=
  let code := desk.generate instruction params
  { data := .object [("intent", encode (Desk.classify instruction)), ("code", encode code)]
    text := fun _ => code ++ "\n" }

/-- The explanation of a concept. -/
def explanation (query : String) : Report :=
  let explanation := Desk.explain query
  { data := .object [("concept", encode query), ("explanation", encode explanation)]
    text := fun _ => explanation ++ "\n" }

/-- The findings about a source. -/
def review (source : String) : Report :=
  let findings := Desk.review source
  { data := .object
      [("findings", encode (findings.map (·.line))), ("details", encode findings)]
    text := fun colors => asLines (findings.map (·.paintedLine colors)) }

/-- The two lines of a template. -/
def templateLines (colors : Bool) (entry : TemplateEntry) : List String :=
  [Text.Style.bold.paint colors (Text.padTo 18 entry.patternId) ++ " " ++
      Text.padTo 12 entry.intent.label ++ " " ++ entry.description,
    Text.padTo 18 "" ++ " keys: " ++ Text.Style.dim.paint colors (", ".intercalate entry.keys)]

/-- The templates of the desk. -/
def templates (desk : Desk) : Report where
  data := encode desk.catalog.list
  text := fun colors => asLines (desk.catalog.list.flatMap (templateLines colors))

/-- What each of several files added to the context, what all of them did, and the context. -/
def analysis (added : List (String × Growth)) (context : Context) : Report :=
  let total := (added.map (·.2)).foldl (· + ·) ({} : Growth)
  { data := .object
      [("files", .array (added.map fun (path, growth) =>
          .object [("path", encode path), ("added", encode growth)])),
        ("total", encode total), ("context", encode context.snapshot)]
    text := fun colors =>
      asLines (added.map fun (path, growth) => path ++ ": " ++ growth.text) ++
        "total: " ++ total.text ++ "\n\n" ++ context.snapshot.describe colors }

end Report

end MoveDesk
