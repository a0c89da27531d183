import MoveDesk.Intent
import MoveDesk.Parameters
import MoveDesk.Template.Placeholder

/-!
# Templates

A template writes the code of one kind of contract from parameters. `Template.ofBody` makes one
from a text with placeholders.
-/

namespace MoveDesk

/-- What a catalog lists of a template. -/
structure TemplateEntry where
  /-- The name the template is registered under. -/
  patternId : String
  /-- The intent it serves. -/
  intent : Intent
  /-- One line for people. -/
  description : String
  /-- The names of the parameters it reads. -/
  keys : List String
deriving DecidableEq, Repr

/-- A writer of contracts: its entry, and the code it writes for given parameters. -/
structure Template where
  /-- What a catalog lists of it. -/
  entry : TemplateEntry
  /-- The code for given parameters. -/
  generate : Parameters → String

/-- A parameter of a template text, with the value that stands in when it is unset. -/
structure Template.Slot where
  /-- The name of the parameter. -/
  key : String
  /-- The value when it is unset or empty. -/
  default : String := ""
deriving DecidableEq, Repr

/-- The value of a parameter in a template text. -/
def Template.Slot.bind (params : Parameters) (slot : Slot) : String × String :=
  (slot.key, params.getD slot.key slot.default)

/-- The template that fills a text with placeholders. -/
def Template.ofBody (patternId : String) (intent : Intent) (description : String)
    (slots : List Slot) (body : String) : Template where
  entry := { patternId, intent, description, keys := slots.map (·.key) }
  generate params := substitute body (slots.map (·.bind params))

end MoveDesk
