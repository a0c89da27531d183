import MoveDesk.Text.Digit
import MoveDesk.Text.Find

/-!
# Socket addresses

An IP address and the number of a service there, in their usual text form. Reading allows every
spelling of an address; writing gives the shortest one, in lowercase, the first of the longest runs
of zero groups being left out.
-/

namespace MoveDesk

/-- An IP address. -/
inductive IpAddress where
  /-- Four octets. -/
  | v4 (octets : Vector UInt8 4)
  /-- Eight groups, and the number of the zone the address belongs to. -/
  | v6 (groups : Vector UInt16 8) (zone : UInt32)
deriving DecidableEq, Repr

/-- An IP address and the number of a service there. -/
structure SocketAddress where
  /-- The address. -/
  ip : IpAddress
  /-- The number that tells the services at one address apart. -/
  service : UInt16
deriving DecidableEq, Repr

namespace SocketAddress

open Text (digit? expect?)

/-- A number below `bound`, and the text behind it. -/
def number? (base bound : Nat) (text : List Char) : Option (Nat × List Char) := do
  let digits := text.takeWhile fun c => (digit? base c).isSome
  if digits.isEmpty then none
  let n ← digits.foldlM (fun n c =>
    let n := base * n + (digit? base c).getD 0
    if n < bound then some n else none) 0
  return (n, text.drop digits.length)

/-- An octet: at most three digits, of which the first is no zero unless it stands alone. -/
def octet? (text : List Char) : Option (UInt8 × List Char) :=
  match text.takeWhile Char.isDigit with
  | '0' :: _ :: _ => none
  | _ => (number? 10 UInt8.size text).map fun (n, rest) => (.ofNat n, rest)

/-- Four octets with points between them. -/
def octets? (text : List Char) : Option (Vector UInt8 4 × List Char) := do
  let (a, text) ← octet? text
  let (b, text) ← octet? (← expect? '.' text)
  let (c, text) ← octet? (← expect? '.' text)
  let (d, text) ← octet? (← expect? '.' text)
  return (#v[a, b, c, d], text)

/-- A group: at most four hexadecimal digits. -/
def group? (text : List Char) : Option (UInt16 × List Char) :=
  let digits := text.takeWhile fun c => (digit? 16 c).isSome
  if 4 < digits.length then none
  else (number? 16 UInt16.size text).map fun (n, rest) => (.ofNat n, rest)

/-- The group made of two octets. -/
def pairGroup (high low : UInt8) : UInt16 := .ofNat (256 * high.toNat + low.toNat)

/-- Groups with colons between them. -/
structure Groups where
  /-- The groups. -/
  groups : List UInt16
  /-- The last two were written as four octets. -/
  octets : Bool
  /-- The text behind them. -/
  rest : List Char

/-- As many groups as there are, but at most `limit`; where two or more are still allowed four
octets may stand for the last two. -/
def groups (limit : Nat) (text : List Char) : Groups :=
  go limit [] text
where
  /-- Goes on behind the groups `found`, held in reverse. -/
  go (limit : Nat) (found : List UInt16) (text : List Char) : Groups :=
    match limit with
    | 0 => ⟨found.reverse, false, text⟩
    | limit + 1 =>
      let next := if found.isEmpty then some text else expect? ':' text
      match if limit = 0 then none else next.bind octets? with
      | some (o, rest) =>
        ⟨found.reverse ++ [pairGroup o[0] o[1], pairGroup o[2] o[3]], true, rest⟩
      | none =>
        match next.bind group? with
        | some (group, rest) => go limit (group :: found) rest
        | none => ⟨found.reverse, false, text⟩

/-- The list as a vector, if it has the length. -/
def vector? {α : Type} (n : Nat) (l : List α) : Option (Vector α n) :=
  if h : l.length = n then some ⟨l.toArray, by simpa using h⟩ else none

/-- Eight groups, or fewer with `::` in the place of those that are zero. -/
def eightGroups? (text : List Char) : Option (Vector UInt16 8 × List Char) := do
  let head := groups 8 text
  if head.groups.length = 8 then return (← vector? 8 head.groups, head.rest)
  if head.octets then none
  let text ← expect? ':' head.rest
  let text ← expect? ':' text
  let tail := groups (7 - head.groups.length) text
  let zeros := List.replicate (8 - head.groups.length - tail.groups.length) 0
  return (← vector? 8 (head.groups ++ zeros ++ tail.groups), tail.rest)

/-- A percent sign and the number of a zone. -/
def zone? (text : List Char) : Option (UInt32 × List Char) := do
  let (n, text) ← number? 10 UInt32.size (← expect? '%' text)
  return (.ofNat n, text)

/-- A colon and the number of a service. -/
def service? (text : List Char) : Option (UInt16 × List Char) := do
  let (n, text) ← number? 10 UInt16.size (← expect? ':' text)
  return (.ofNat n, text)

/-- Four octets and the number of a service. -/
def v4? (text : List Char) : Option (SocketAddress × List Char) := do
  let (octets, text) ← octets? text
  let (service, text) ← service? text
  return (⟨.v4 octets, service⟩, text)

/-- Eight groups in brackets, with a zone if there is one, and the number of a service. -/
def v6? (text : List Char) : Option (SocketAddress × List Char) := do
  let (groups, text) ← eightGroups? (← expect? '[' text)
  let (zone, text) := (zone? text).getD (0, text)
  let (service, text) ← service? (← expect? ']' text)
  return (⟨.v6 groups zone, service⟩, text)

/-- The address that the text is written for. -/
def parse? (text : String) : Option SocketAddress :=
  match v4? text.toList <|> v6? text.toList with
  | some (address, []) => some address
  | _ => none

/-- A group without leading zeros. -/
def groupText (group : UInt16) : String :=
  let n := group.toNat
  let digits := [n / 0x1000, n / 0x100 % 16, n / 0x10 % 16, n % 16]
  String.ofList ((digits.take 3).dropWhile (· = 0) ++ digits.drop 3 |>.map Text.hexDigit)

/-- Groups with colons between them. -/
def groupsText (groups : List UInt16) : String := ":".intercalate (groups.map groupText)

/-- The number of zeros at the start. -/
def leadingZeros (groups : List UInt16) : Nat := (groups.takeWhile (· = 0)).length

/-- The first of the longest runs of zero groups: its place and its length. -/
def longestZeros (groups : List UInt16) : Nat × Nat :=
  (List.range groups.length).foldl
    (fun best place =>
      let run := leadingZeros (groups.drop place)
      if best.2 < run then (place, run) else best) (0, 0)

/-- The shortest form of eight groups. -/
def eightGroupsText (groups : List UInt16) : String :=
  match groups with
  | [0, 0, 0, 0, 0, 0xffff, high, low] =>
    "::ffff:" ++ ".".intercalate
      ([high / 256, high % 256, low / 256, low % 256].map (toString ·.toNat))
  | _ =>
    let (place, run) := longestZeros groups
    if run < 2 then groupsText groups
    else groupsText (groups.take place) ++ "::" ++ groupsText (groups.drop (place + run))

/-- The address as a text. -/
def text (address : SocketAddress) : String :=
  match address.ip with
  | .v4 octets =>
    ".".intercalate (octets.toList.map (toString ·.toNat)) ++ ":" ++ toString address.service.toNat
  | .v6 groups zone =>
    let zoneText := if zone = 0 then "" else "%" ++ toString zone.toNat
    "[" ++ eightGroupsText groups.toList ++ zoneText ++ "]:" ++ toString address.service.toNat

/-- The address is one of eight groups. -/
def isV6 (address : SocketAddress) : Bool :=
  match address.ip with
  | .v4 _ => false
  | .v6 _ _ => true

end SocketAddress

end MoveDesk
