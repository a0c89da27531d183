/-!
# Coloured text

How parts of an answer are set off on a terminal that shows colours.
-/

namespace MoveDesk.Text

/-- A way to set a text off. -/
inductive Style where
  /-- In heavy letters. -/
  | bold
  /-- In faint letters. -/
  | dim
  /-- In red. -/
  | red
  /-- In yellow. -/
  | yellow
  /-- In cyan. -/
  | cyan
  /-- In green. -/
  | green
deriving DecidableEq, Repr

namespace Style

/-- The number that the terminal knows the style by. -/
def number : Style → String
  | bold => "1"
  | dim => "2"
  | red => "31"
  | yellow => "33"
  | cyan => "36"
  | green => "32"

/-- The text in the style, if colours are shown. -/
def paint (style : Style) (colors : Bool) (text : String) : String :=
  if colors then "\x1b[" ++ style.number ++ "m" ++ text ++ "\x1b[0m" else text

/-- Without colours a text is shown as it is. -/
theorem paint_false (style : Style) (text : String) : style.paint false text = text := rfl

end Style

/-- The text with spaces behind it up to the given width. -/
def padTo (width : Nat) (text : String) : String :=
  text ++ String.ofList (List.replicate (width - text.length) ' ')

end MoveDesk.Text
