/-!
# Finding a text inside another

`occursIn` says whether a text stands somewhere in another, `cut?` splits a text around the first
place where another stands in it, and `expect?` takes a character off its front.
-/

namespace MoveDesk.Text

/-- `needle` stands somewhere in the text. -/
def occursIn (needle : List Char) : List Char → Bool
  | [] => needle.isEmpty
  | c :: rest => needle.isPrefixOf (c :: rest) || occursIn needle rest

/-- The text behind the character at its front. -/
def expect? (c : Char) : List Char → Option (List Char)
  | d :: rest => if d = c then some rest else none
  | [] => none

/-- What stands before and after the first place of `needle`, or `none` if it stands nowhere. -/
def cut? (needle text : List Char) : Option (List Char × List Char) :=
  go [] text
where
  /-- Goes on behind the characters `passed`, held in reverse. -/
  go (passed : List Char) : List Char → Option (List Char × List Char)
    | [] => if needle.isEmpty then some (passed.reverse, []) else none
    | c :: rest =>
      if needle.isPrefixOf (c :: rest) then
        some (passed.reverse, (c :: rest).drop needle.length)
      else go (c :: passed) rest

end MoveDesk.Text
