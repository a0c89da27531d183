import MoveDesk.Text.Blank

/-!
# Findings

A finding is one remark of a review. It is written as one line: the marker of its severity, a
space, and the message; `Finding.parse?` reads such a line back.
-/

namespace MoveDesk

/-- How serious a finding is. -/
inductive Severity where
  /-- Something is wrong. -/
  | warning
  /-- Something could be better. -/
  | suggestion
  /-- Nothing was found. -/
  | confirmation
deriving DecidableEq, Repr

namespace Severity

/-- All severities. -/
def all : List Severity := [warning, suggestion, confirmation]

/-- The name of the severity in data. -/
def label : Severity → String
  | warning => "warning"
  | suggestion => "suggestion"
  | confirmation => "confirmation"

/-- The severity with the given label. -/
def ofLabel? (label : String) : Option Severity := all.find? (·.label = label)

/-- What a line of this severity starts with. -/
def marker : Severity → String
  | warning => "⚠️ Warning:"
  | suggestion => "💡 Suggestion:"
  | confirmation => "✅"

end Severity

/-- One remark of a review. -/
structure Finding where
  /-- How serious it is. -/
  severity : Severity
  /-- What it says. -/
  message : String
deriving DecidableEq, Repr

namespace Finding

/-- The finding as a line. -/
def line (finding : Finding) : String := finding.severity.marker ++ " " ++ finding.message

/-- The finding of the given severity that the line is written for, blanks behind the marker
being no part of the message. -/
def parseAs? (line : String) (severity : Severity) : Option Finding :=
  let marker := severity.marker.toList
  if marker.isPrefixOf line.toList then
    some ⟨severity, String.ofList (Text.trimStart (line.toList.drop marker.length))⟩
  else none

/-- The finding that the line is written for, or `none` if it starts with no marker. -/
def parse? (line : String) : Option Finding := Severity.all.findSome? (parseAs? line)

end Finding

end MoveDesk
