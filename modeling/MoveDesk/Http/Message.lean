import MoveDesk.Http.Target
import MoveDesk.Json.Printer
import MoveDesk.Http.MediaType

/-!
# Requests and responses
-/

namespace MoveDesk.Http

/-- Named values; the names are in lowercase. -/
abbrev Headers := List (String × String)

/-- A request. -/
structure Request where
  /-- The method. -/
  method : String
  /-- The path of the target, with its percent signs. -/
  path : List Char
  /-- The headers. -/
  headers : Headers
  /-- The body. -/
  body : Bytes

namespace Request

/-- The text is a token, as methods and the names of headers are. -/
def isToken (text : String) : Bool :=
  !text.isEmpty && text.toList.all MediaType.isTokenChar

/-- The text may be the value of a header. -/
def isHeaderValue (text : String) : Bool :=
  text.toList.all fun c => c = '\t' || (' ' ≤ c && c.toNat ≠ 0x7f)

/-- The request with the given parts, if each has the form it has to have. -/
def make? (method target : String) (headers : Headers) (body : Bytes) : Option Request := do
  let path ← Target.path? target
  let wellFormed := headers.all fun (name, value) => isToken name && isHeaderValue value
  if isToken method && wellFormed then
    some { method, path, headers := headers.map fun (name, value) => (name.toLower, value), body }
  else none

/-- The value of the first header of that name. -/
def header? (request : Request) (name : String) : Option String := request.headers.lookup name

/-- The body is said to be JSON. -/
def isJson (request : Request) : Bool :=
  ((request.header? "content-type").bind MediaType.parse?).any (·.isJson)

end Request

/-- What a response holds. -/
inductive Content where
  /-- Nothing. -/
  | empty
  /-- A JSON value. -/
  | json (value : Json)
  /-- A text. -/
  | text (text : String)
  /-- A page. -/
  | page (text : String)

namespace Content

/-- The media type of the content. -/
def mediaType? : Content → Option String
  | empty => none
  | json _ => some "application/json"
  | text _ => some "text/plain; charset=utf-8"
  | page _ => some "text/html; charset=utf-8"

/-- The content as a text. -/
def body : Content → String
  | empty => ""
  | json value => value.compact
  | text body => body
  | page body => body

end Content

/-- A response. -/
structure Response where
  /-- The status. -/
  status : Nat
  /-- The headers. -/
  headers : Headers := []
  /-- What it holds. -/
  content : Content := .empty

namespace Response

/-- A response with a content and its media type. -/
def of (status : Nat) (content : Content) : Response where
  status
  headers := (content.mediaType?.map ("content-type", ·)).toList
  content

/-- The answer to a request that was granted, with a JSON value. -/
def ok (value : Json) : Response := of 200 (.json value)

/-- The response without its content. -/
def withoutContent (response : Response) : Response := { response with content := .empty }

/-- The response with further headers. -/
def withHeaders (response : Response) (headers : Headers) : Response :=
  { response with headers := response.headers ++ headers }

end Response

end MoveDesk.Http
