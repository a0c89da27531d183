import MoveDesk.Text.Lowercase.Table

/-!
# Lowercase text

`lower` is the full lowercase mapping of Unicode. Two places go beyond one code point for one: the
dotted capital I becomes an `i` and a combining dot above, and a capital sigma takes its final
form where a word ends with it.
-/

namespace MoveDesk.Text

/-- The letter takes part in case. -/
def isCased (c : Char) : Bool := casedRanges.holds c.toNat

/-- The character does not count when it is asked what stands beside a letter. -/
def isCaseIgnorable (c : Char) : Bool := caseIgnorableRanges.holds c.toNat

/-- The lowercase form of one character, without regard to its neighbours. -/
def lowerChar (c : Char) : List Char :=
  if c.toNat < 128 then [c.toLower]
  else if c = '\u0130' then ['i', '\u0307']
  else match lowercaseRuns.find? (·.covers c.toNat) with
    | some run => [Char.ofNat (c.toNat + run.offset).toNat]
    | none => [c]

/-- The first character that counts is a cased letter. -/
def startsCased (text : List Char) : Bool :=
  match text.dropWhile isCaseIgnorable with
  | [] => false
  | c :: _ => isCased c

/-- The text in lowercase. A capital sigma is final if a cased letter comes before it and none
after it, where ignorable characters do not count. -/
def lower (text : List Char) : List Char :=
  go false [] text
where
  /-- Goes on behind a text whose lowercase form, reversed, is `done`; `afterCased` says whether
  the last character that counts was a cased letter. -/
  go (afterCased : Bool) (done : List Char) : List Char → List Char
    | [] => done.reverse
    | c :: rest =>
      let low :=
        if c = 'Σ' then [if afterCased && !startsCased rest then 'ς' else 'σ'] else lowerChar c
      go (if isCaseIgnorable c then afterCased else isCased c) (low.reverse ++ done) rest

/-- The string in lowercase. -/
def lowercase (text : String) : String := String.ofList (lower text.toList)

end MoveDesk.Text
