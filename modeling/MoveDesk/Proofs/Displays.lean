import MoveDesk.Proofs.Analysis
import MoveDesk.Report

/-!
# How contexts, growths and findings are shown

The sessions and the commands show a context, what a source added to it and the findings of a
review as text; the server and the data formats tell them as JSON. Here both forms are spelled out,
down to the codes that a terminal takes for colours, and apart from the functions that write them:
`Context.shown`, `Growth.shown` and `Finding.shown` are the texts, `Context.told`, `Growth.told` and
`Finding.told` the data. What is said about the outputs of the program is said by these.

Headlines:
* **`Context.describe_snapshot`**, **`Growth.text_eq_shown`**,
  **`Finding.asLines_paintedLine`**: the texts are those that are written.
* **`Context.encode_snapshot`**, **`Growth.encode_eq_told`**,
  **`Finding.encode_eq_told`**: and so are the data.
-/

namespace MoveDesk

/-- The text in the colour that a terminal knows by the number, if colours are shown. -/
def tinted (colors : Bool) (number text : String) : String :=
  if colors then "\x1b[" ++ number ++ "m" ++ text ++ "\x1b[0m" else text

namespace Kind

/-- The kinds, in the order in which they are shown. -/
def all : List Kind := [modules, structs, functions]

/-- What stands above the names of the kind. -/
def heading : Kind → String
  | modules => "Modules"
  | structs => "Structs"
  | functions => "Functions"

/-- The word for the kind. -/
def label : Kind → String
  | modules => "modules"
  | structs => "structs"
  | functions => "functions"

end Kind

/-! ## As text -/

/-- How many names of each kind were new, in one line. -/
def Growth.shown (growth : Growth) : String :=
  ", ".intercalate (Kind.all.map fun kind =>
    "+" ++ toString (growth.count kind) ++ " " ++ kind.label)

/-- The names of the kind, one a line, under their heading and their number. -/
def Context.shownOf (ctx : Context) (colors : Bool) (kind : Kind) : String :=
  tinted colors "1" kind.heading ++ " (" ++ toString (ctx.names kind).length ++ ")\n" ++
    String.join ((ctx.names kind).map fun name => "  " ++ name ++ "\n")

/-- The names of all kinds, or that there is none. -/
def Context.shown (ctx : Context) (colors : Bool) : String :=
  if ∀ kind ∈ Kind.all, ctx.names kind = [] then tinted colors "2" "Context is empty" ++ "\n"
  else String.join (Kind.all.map (ctx.shownOf colors))

/-- The finding in a line, in the colour of its severity. -/
def Finding.shown (finding : Finding) (colors : Bool) : String :=
  let number := match finding.severity with
    | .warning => "33"
    | .suggestion => "36"
    | .confirmation => "32"
  tinted colors number (finding.severity.marker ++ " " ++ finding.message) ++ "\n"

/-! ## As data -/

/-- How many names of each kind were new, as data. -/
def Growth.told (growth : Growth) : Json :=
  .object [("modules_added", .int (growth.count .modules)),
    ("structs_added", .int (growth.count .structs)),
    ("functions_added", .int (growth.count .functions))]

/-- The names of each kind, as data. -/
def Context.told (ctx : Context) : Json :=
  .object [("modules", .array ((ctx.names .modules).map .text)),
    ("structs", .array ((ctx.names .structs).map .text)),
    ("functions", .array ((ctx.names .functions).map .text))]

/-- The finding as data. -/
def Finding.told (finding : Finding) : Json :=
  .object [("severity", .text finding.severity.label), ("message", .text finding.message)]

/-! ## What is written -/

theorem Growth.text_eq_shown (growth : Growth) : growth.text = growth.shown := by
  have hmodules : " modules, +" = " modules" ++ (", " ++ "+") := rfl
  have hstructs : " structs, +" = " structs" ++ (", " ++ "+") := rfl
  unfold text shown
  rw [hmodules, hstructs]
  simp only [Kind.all, List.map_cons, List.map_nil, String.intercalate_cons_cons,
    String.intercalate_singleton, String.append_assoc]
  rfl

theorem Context.list_eq_shownOf (ctx : Context) (colors : Bool) (kind : Kind) :
    Text.Style.bold.paint colors kind.heading ++ " (" ++
        toString (ctx.names kind).length ++ ")\n" ++ asLines ((ctx.names kind).map ("  " ++ ·)) =
      ctx.shownOf colors kind := by
  rw [asLines, List.map_map]
  rfl

/-- No kind has a name where there is no name at all. -/
theorem Context.isEmpty_snapshot_iff (ctx : Context) :
    ctx.snapshot.isEmpty = true ↔ ∀ kind ∈ Kind.all, ctx.names kind = [] := by
  simp [Snapshot.isEmpty, Snapshot.total, snapshot, Kind.all, names, list, and_assoc]

theorem Context.describe_snapshot (ctx : Context) (colors : Bool) :
    ctx.snapshot.describe colors = ctx.shown colors := by
  unfold Snapshot.describe shown
  by_cases h : ∀ kind ∈ Kind.all, ctx.names kind = []
  · rw [if_pos h, if_pos (ctx.isEmpty_snapshot_iff.mpr h)]
    rfl
  · rw [if_neg h, if_neg (mt ctx.isEmpty_snapshot_iff.mp h)]
    simp only [Kind.all, List.map_cons, List.map_nil, String.join_cons, ← list_eq_shownOf,
      String.join_nil, String.append_empty, ← String.append_assoc]
    rfl

theorem Finding.paintedLine_append_newline (finding : Finding) (colors : Bool) :
    finding.paintedLine colors ++ "\n" = finding.shown colors := by
  obtain ⟨severity, message⟩ := finding
  cases severity <;> rfl

/-- The findings are shown line by line. -/
theorem Finding.asLines_paintedLine (findings : List Finding) (colors : Bool) :
    asLines (findings.map (·.paintedLine colors)) =
      String.join (findings.map (·.shown colors)) := by
  rw [asLines, List.map_map]
  exact congrArg String.join <| List.map_congr_left fun finding _ =>
    finding.paintedLine_append_newline colors

theorem Growth.encode_eq_told (growth : Growth) : encode growth = growth.told := rfl

theorem Context.encode_snapshot (ctx : Context) : encode ctx.snapshot = ctx.told := rfl

theorem Finding.encode_eq_told (finding : Finding) : encode finding = finding.told := rfl

/-- A context with a kind of which there is no name, one without any names, and the colours. -/
example :
    let ctx := Context.ofInserts [(.structs, "Coin"), (.functions, "mint"), (.functions, "burn")]
    ctx.shown true = "\x1b[1mModules\x1b[0m (0)\n\x1b[1mStructs\x1b[0m (1)\n  Coin\n" ++
        "\x1b[1mFunctions\x1b[0m (2)\n  mint\n  burn\n" ∧
      (∅ : Context).shown true = "\x1b[2mContext is empty\x1b[0m\n" ∧
      Growth.shown ⟨0, 1, 12⟩ = "+0 modules, +1 structs, +12 functions" := by
  decide +kernel

end MoveDesk
