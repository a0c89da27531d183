/-!
# The version
-/

namespace MoveDesk

/-- The version of the program, which the server and the command line both report. -/
def version : String := "0.1.0"

end MoveDesk
