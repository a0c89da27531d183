/-!
# Media types

`MediaType.parse?` reads the value of a content type header as far as the parameters, which are
checked for their form.
-/

namespace MoveDesk.Http

/-- A media type, in lowercase. -/
structure MediaType where
  /-- What stands before the slash. -/
  kind : List Char
  /-- What stands between the slash and the last plus. -/
  subtype : List Char
  /-- What stands behind the last plus. -/
  suffix : Option (List Char)
deriving DecidableEq, Repr

namespace MediaType

/-- The character may stand in a token. -/
def isTokenChar (c : Char) : Bool :=
  c.isAlphanum || "!#$%&'*+-.^_`|~".toList.contains c

/-- The character may stand between quotes. -/
def isQuotedChar (c : Char) : Bool := ' ' ≤ c && c ≤ '~'

/-- Where a reader of parameters stands. -/
inductive ParameterState where
  /-- Before a name. -/
  | start
  /-- In a name. -/
  | name
  /-- Behind the equals sign. -/
  | value
  /-- In a value without quotes. -/
  | token
  /-- Behind the opening quote. -/
  | opened
  /-- Between quotes. -/
  | quoted
  /-- Behind the closing quote. -/
  | closed
deriving DecidableEq, Repr

/-- The state behind one more character. A quoted value has at least one character, which may be
a quote. -/
def ParameterState.step? (c : Char) : ParameterState → Option ParameterState
  | start => if c = ' ' then some start else if isTokenChar c then some name else none
  | name => if c = '=' then some value else if isTokenChar c then some name else none
  | value => if c = '"' then some opened else if isTokenChar c then some token else none
  | token => if c = ';' then some start else if isTokenChar c then some token else none
  | opened => if isQuotedChar c then some quoted else none
  | quoted => if c = '"' then some closed else if isQuotedChar c then some quoted else none
  | closed => if c = ';' then some start else if c = ' ' then some closed else none

/-- The parameters may end here. -/
def ParameterState.isFinal : ParameterState → Bool
  | start | value | token | closed => true
  | name | opened | quoted => false

/-- The text is a list of parameters. -/
def areParameters (text : List Char) : Bool :=
  (text.foldlM (fun (state : ParameterState) c => state.step? c) ParameterState.start).any
    (·.isFinal)

/-- The place of the last plus that is not the first character. -/
def splitSuffix (text : List Char) : List Char × Option (List Char) :=
  let suffix := (text.reverse.takeWhile (· ≠ '+')).reverse
  let before := text.length - suffix.length
  if before ≤ 1 then (text, none) else (text.take (before - 1), some suffix)

/-- The media type that the value of a header is written for. -/
def parse? (value : String) : Option MediaType :=
  let text := value.toList
  let kind := text.takeWhile isTokenChar
  match text.drop kind.length with
  | '/' :: rest =>
    let subtype := rest.takeWhile isTokenChar
    let found :=
      let (subtype, suffix) := splitSuffix (subtype.map Char.toLower)
      some { kind := kind.map Char.toLower, subtype, suffix }
    if kind.isEmpty then none
    else
      match rest.drop subtype.length with
      | [] => found
      | ';' :: parameters =>
        if !subtype.isEmpty && areParameters parameters then found else none
      | _ => none
  | _ => none

/-- The media type is that of JSON, or of a format built on it. -/
def isJson (m : MediaType) : Bool :=
  m.kind = "application".toList &&
    (m.subtype = "json".toList || m.suffix = some "json".toList)

end MediaType

end MoveDesk.Http
