import MoveDesk.Text.Word.Table

/-!
# Word characters

An identifier is a run of word characters: letters and digits of any script, and the low line.
-/

namespace MoveDesk.Text

/-- The character may stand in an identifier. -/
def isWord (c : Char) : Bool := wordRanges.holds c.toNat

end MoveDesk.Text
