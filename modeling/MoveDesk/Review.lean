import MoveDesk.Finding
import MoveDesk.Text.Find

/-!
# Reviews

What the command `review`, `POST /api/v1/review` and choice 6 of the menu find about a source. A
review applies a table of rules to the source. Every rule that fires gives one finding, in the order
of the table; if none fires the review is a single confirmation.
-/

namespace MoveDesk

/-- A row of the review table. -/
structure ReviewRule where
  /-- The name of the rule. -/
  name : String
  /-- How serious its finding is. -/
  severity : Severity
  /-- What its finding says. -/
  message : String
  /-- The rule fires for the source. -/
  fires : String → Bool

namespace ReviewRule

/-- The finding of a rule that fires. -/
def finding (rule : ReviewRule) : Finding := ⟨rule.severity, rule.message⟩

/-- All the texts `present` occur in the source and none of the texts `absent`. -/
def occurrence (present absent : List String) (source : String) : Bool :=
  present.all (fun text => Text.occursIn text.toList source.toList) &&
    absent.all (fun text => !Text.occursIn text.toList source.toList)

/-- A mutable borrow from global storage without a declaration of what is borrowed. -/
def missingAcquires : ReviewRule where
  name := "missing-acquires"
  severity := .warning
  message := "Functions using borrow_global_mut must declare 'acquires' " ++
    "for the resources they borrow."
  fires := occurrence ["borrow_global_mut"] ["acquires"]

/-- A struct is moved into global storage and none has the ability for it. -/
def storedWithoutKey : ReviewRule where
  name := "stored-without-key"
  severity := .warning
  message := "Resources stored with move_to need the 'key' ability " ++
    "(add `has key` to the struct)."
  fires := occurrence ["move_to", "struct"] ["has key"]

/-- No error constant is declared. -/
def noErrorConstants : ReviewRule where
  name := "no-error-constants"
  severity := .suggestion
  message := "Define error constants (e.g. const E_NOT_AUTHORIZED: u64 = 1;) " ++
    "to give aborts meaningful codes."
  fires := occurrence [] ["const E_"]

end ReviewRule

/-- The review table. -/
def reviewRules : List ReviewRule :=
  [.missingAcquires, .storedWithoutKey, .noErrorConstants]

/-- The finding of a review in which no rule fires. -/
def allClear : Finding := ⟨.confirmation, "Code looks good! No obvious issues found."⟩

/-- The findings of the rules that fire, in table order. -/
def firedFindings (rules : List ReviewRule) (source : String) : List Finding :=
  (rules.filter (·.fires source)).map (·.finding)

/-- The findings of a review; never none. -/
def review (rules : List ReviewRule) (source : String) : List Finding :=
  match firedFindings rules source with
  | [] => [allClear]
  | findings => findings

end MoveDesk
