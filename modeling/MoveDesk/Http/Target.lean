import MoveDesk.Text.Utf8

/-!
# Request targets

The target of a request is a path with a query, an absolute address, or an authority alone.
`Target.path?` checks its form and gives the path, in which percent signs are kept; `unescape`
resolves them.
-/

namespace MoveDesk.Http.Target

/-- The character may stand in a path. -/
def isPathChar (c : Char) : Bool :=
  0x7f < c.toNat || ('!' ≤ c && c ≤ '~' && !"<>`?#".toList.contains c)

/-- The character may stand in a query. -/
def isQueryChar (c : Char) : Bool :=
  0x7f < c.toNat || ('!' ≤ c && c ≤ '~' && !"\"<>#".toList.contains c)

/-- The character may stand in an authority. -/
def isAuthorityChar (c : Char) : Bool :=
  c.isAlphanum || "!$&'()*+,-.:;=@[]_~".toList.contains c

/-- The character may stand in the name of a scheme. -/
def isSchemeChar (c : Char) : Bool := c.isAlphanum || "+-.~".toList.contains c

/-- The character ends an authority. -/
def endsAuthority (c : Char) : Bool := c = '/' || c = '?' || c = '#'

/-- The path of a text that holds a path, a query and a fragment. -/
def pathOf? (text : List Char) : Option (List Char) :=
  let path := text.takeWhile isPathChar
  match text.dropWhile isPathChar with
  | [] => some path
  | '#' :: _ => some path
  | '?' :: query =>
    match query.dropWhile isQueryChar with
    | [] => some path
    | '#' :: _ => some path
    | _ => none
  | _ => none

/-- What has been seen of an authority. -/
structure AuthorityState where
  /-- The colons behind the last at sign or closing bracket. -/
  colons : Nat := 0
  /-- A bracket was opened. -/
  opened : Bool := false
  /-- A bracket was closed. -/
  closed : Bool := false
  /-- There is a percent sign behind the last at sign or closing bracket. -/
  percent : Bool := false
  /-- The last character is an at sign. -/
  atEnd : Bool := false

/-- The state behind one more character of an authority. -/
def AuthorityState.step? (s : AuthorityState) (c : Char) : Option AuthorityState :=
  let s := { s with atEnd := c = '@' }
  if c = ':' then if 8 ≤ s.colons then none else some { s with colons := s.colons + 1 }
  else if c = '[' then if s.percent || s.opened then none else some { s with opened := true }
  else if c = ']' then
    if !s.opened || s.closed then none
    else some { s with closed := true, colons := 0, percent := false }
  else if c = '@' then some { s with colons := 0, percent := false }
  else if c = '%' then some { s with percent := true }
  else if isAuthorityChar c then some s
  else none

/-- The authority is a host, with at most one colon for the number of a service, perhaps behind a
user. -/
def isAuthority (text : List Char) : Bool :=
  match text.foldlM AuthorityState.step? {} with
  | none => false
  | some s => s.opened == s.closed && s.colons ≤ 1 && !s.atEnd && !s.percent

/-- The text behind the name of a scheme with its colon and slashes; `none` if there is no scheme,
and `some none` if its name is too long. -/
def behindScheme? (text : List Char) : Option (Option (List Char)) :=
  let known (scheme : String) := (text.take scheme.length).map Char.toLower = scheme.toList
  if known "http://" then some (some (text.drop 7))
  else if known "https://" then some (some (text.drop 8))
  else
    let name := text.takeWhile isSchemeChar
    match text.drop name.length with
    | ':' :: '/' :: '/' :: rest => some (if 64 < name.length then none else some rest)
    | _ => none

/-- The path of a target. An authority alone has none, and an absolute address without a path has
the root. -/
def path? (target : String) : Option (List Char) :=
  let text := target.toList
  if 65534 < target.utf8ByteSize then none
  else
    match text with
    | [] => none
    | ['*'] => some ['*']
    | '/' :: _ => pathOf? text
    | _ =>
      match behindScheme? text with
      | none => if !text.any endsAuthority && isAuthority text then some [] else none
      | some none => none
      | some (some rest) =>
        let authority := rest.takeWhile (!endsAuthority ·)
        if authority.isEmpty || !isAuthority authority then none
        else
          match pathOf? (rest.drop authority.length) with
          | some [] => some ['/']
          | path => path

/-- The value of a hexadecimal digit. -/
def hexValue? (c : UInt8) : Option UInt8 :=
  if 0x30 ≤ c && c ≤ 0x39 then some (c - 0x30)
  else if 0x41 ≤ c && c ≤ 0x46 then some (c - 0x41 + 10)
  else if 0x61 ≤ c && c ≤ 0x66 then some (c - 0x61 + 10)
  else none

/-- The bytes with every percent sign and two hexadecimal digits replaced by the byte they stand
for, behind the bytes already read, which are held in reverse. -/
def unescapeBytes (read : Bytes) : Bytes → Bytes
  | [] => read.reverse
  | 0x25 :: a :: b :: rest =>
    match hexValue? a, hexValue? b with
    | some high, some low => unescapeBytes ((16 * high + low) :: read) rest
    | _, _ => unescapeBytes (0x25 :: read) (a :: b :: rest)
  | b :: rest => unescapeBytes (b :: read) rest

/-- A part of a path with its percent signs resolved, unless the result is no text. -/
def unescape? (part : List Char) : Option String :=
  Text.decode? (unescapeBytes [] (Text.encode (String.ofList part)))

end MoveDesk.Http.Target
