import MoveDesk.Data
import MoveDesk.Desk
import MoveDesk.Http.Body
import MoveDesk.Http.Message
import MoveDesk.Http.Page
import MoveDesk.Version

/-!
# The server

What the command `serve` answers with. The server answers requests in turn from one desk, and only
a granted request to analyze changes it.

* `Route` is what is served: the start page, and below `/api/v1/` the paths `health`, `generate`,
  `explain`, `review`, `analyze`, `context` and `templates`.
* `serve` answers a request and `serveAll` several in turn. A request for what is not served, by
  another method, or with a body that cannot be read, is refused and changes nothing.
-/

namespace MoveDesk

namespace Http

/-- A time in seconds, in its two largest units. -/
def uptimeText (seconds : Int) : String :=
  if seconds < 60 then toString seconds ++ "s"
  else if seconds < 3600 then toString (seconds / 60) ++ "m " ++ toString (seconds % 60) ++ "s"
  else if seconds < 86400 then
    toString (seconds / 3600) ++ "h " ++ toString (seconds % 3600 / 60) ++ "m"
  else toString (seconds / 86400) ++ "d " ++ toString (seconds % 86400 / 3600) ++ "h"

/-- What the server serves. -/
inductive Route where
  /-- The start page. -/
  | start
  /-- How the server is. -/
  | health
  /-- Code for an instruction. -/
  | generate
  /-- The explanation of the concept that a part of the path names. -/
  | explain (part : List Char)
  /-- A review. -/
  | review
  /-- Taking code into the context. -/
  | analyze
  /-- The context. -/
  | context
  /-- The templates. -/
  | templates
deriving DecidableEq, Repr

namespace Route

/-- The route of a path below the version of the interface. -/
def below? (path : List Char) : Option Route :=
  if path = "health".toList then some health
  else if path = "generate".toList then some generate
  else if path = "review".toList then some review
  else if path = "analyze".toList then some analyze
  else if path = "context".toList then some context
  else if path = "templates".toList then some templates
  else if "explain/".toList.isPrefixOf path then
    let part := path.drop "explain/".length
    if part.isEmpty || part.contains '/' then none else some (explain part)
  else none

/-- The route of a path. -/
def ofPath? (path : List Char) : Option Route :=
  if path = ['/'] then some start
  else if "/api/v1/".toList.isPrefixOf path then below? (path.drop "/api/v1/".length)
  else none

/-- The route takes a body. -/
def takesBody : Route → Bool
  | generate | review | analyze => true
  | start | health | explain _ | context | templates => false

/-- The methods of the route. -/
def methods (route : Route) : List String := if route.takesBody then ["POST"] else ["GET", "HEAD"]

end Route

/-- The server's state and settings. -/
structure Server where
  /-- The desk that answers. -/
  desk : Desk := {}
  /-- Pages of any origin may call the server. -/
  enableCors : Bool := true
  /-- For how many seconds it has been up. -/
  uptime : Int := 0

namespace Server

/-- A request for code. -/
structure GenerateBody where
  /-- The instruction. -/
  instruction : String
  /-- The parameters. -/
  params : Parameters

/-- The fields of a request for code. -/
def generateFields : List BodyField :=
  [{ name := "intent", kind := .text }, { name := "params", kind := .texts, isRequired := false }]

/-- The fields of a request about code. -/
def codeFields : List BodyField := [{ name := "code", kind := .text }]

/-- The largest number of bytes of a body. -/
def bodyLimit : Nat := 2097152

/-- Why a body is not accepted. -/
inductive BodyRefusal where
  /-- It is not said to be JSON. -/
  | mediaType
  /-- It is too long. -/
  | length
  /-- It cannot be read. -/
  | fault (fault : BodyFault)
deriving DecidableEq, Repr

/-- The response to a body that is not accepted. -/
def BodyRefusal.response : BodyRefusal → Response
  | mediaType => .of 415 (.text "Expected request with `Content-Type: application/json`")
  | length => .of 413 (.text "Failed to buffer the request body")
  | fault .malformed => .of 400 (.text "Failed to parse the request body as JSON")
  | fault .mismatched =>
    .of 422 (.text "Failed to deserialize the JSON body into the target type")

/-- The fields of the request's body. -/
def readBody (fields : List BodyField) (request : Request) : Except BodyRefusal Json :=
  if !request.isJson then .error .mediaType
  else if bodyLimit < request.body.length then .error .length
  else (Body.read fields request.body).mapError .fault

/-- The value of a field of the request's body. -/
def readField {α : Type} (read : Option Json → Option α) (name : String) (body : Json) :
    Except BodyRefusal α :=
  match read (body.field? name) with
  | some value => .ok value
  | none => .error (.fault .mismatched)

/-- The request for code that the body is written for. -/
def readGenerate (request : Request) : Except BodyRefusal GenerateBody := do
  let body ← readBody generateFields request
  let instruction ← readField (·.bind decode?) "intent" body
  let params ← readField (fun field => decode? (field.getD (.object []))) "params" body
  return { instruction, params }

/-- The code that the body is written for. -/
def readCode (request : Request) : Except BodyRefusal String := do
  readField (·.bind decode?) "code" (← readBody codeFields request)

/-- A response, or the one to a body that is not accepted. -/
def respond {α : Type} (body : Except BodyRefusal α) (response : α → Response) : Response :=
  match body with
  | .ok body => response body
  | .error refusal => refusal.response

/-- The answer to a request for code. -/
def generate (desk : Desk) (body : GenerateBody) : Json :=
  .object [("intent", encode (Desk.classify body.instruction)),
    ("code", encode (desk.generate body.instruction body.params))]

/-- The answer to a request for a review. -/
def review (code : String) : Json :=
  .object [("findings", encode (Desk.reviewLines code)), ("details", encode (Desk.review code))]

/-- The server behind a request whose route and method fit, and the response. -/
def grant (server : Server) (route : Route) (request : Request) : Server × Response :=
  match route with
  | .start => (server, .of 200 (.page startPage))
  | .health =>
    (server, .ok (.object [("status", .text "healthy"), ("version", .text version),
      ("uptime", .text (uptimeText server.uptime))]))
  | .generate => (server, respond (readGenerate request) (.ok <| generate server.desk ·))
  | .explain part =>
    match Target.unescape? part with
    | none => (server, .of 400 (.text "Invalid URL"))
    | some concept =>
      (server, .ok (.object [("concept", .text concept),
        ("explanation", .text (Desk.explain concept))]))
  | .review => (server, respond (readCode request) (.ok <| review ·))
  | .analyze =>
    match readCode request with
    | .error refusal => (server, refusal.response)
    | .ok code =>
      let (desk, growth) := server.desk.analyze code
      ({ server with desk }, .ok (.object [("added", encode growth),
        ("context", encode desk.context.snapshot)]))
  | .context => (server, .ok (encode server.desk.context.snapshot))
  | .templates => (server, .ok (encode server.desk.catalog.list))

/-- The server behind a request, and the response, apart from what concerns other origins. -/
def handle (server : Server) (request : Request) : Server × Response :=
  match Route.ofPath? request.path with
  | none => (server, { status := 404 })
  | some route =>
    if route.methods.contains request.method then
      let (server, response) := server.grant route request
      (server, if request.method = "HEAD" then response.withoutContent else response)
    else
      (server, { status := 405, headers := [("allow", ",".intercalate route.methods)] })

/-- The headers that let pages of any origin read a response. -/
def corsHeaders : Headers :=
  [("vary", "origin, access-control-request-method, access-control-request-headers"),
    ("access-control-allow-origin", "*")]

/-- The headers that let pages of any origin make a request. -/
def preflightHeaders : Headers :=
  [("access-control-allow-methods", "*"), ("access-control-allow-headers", "*")]

/-- The server behind a request, and the response. Where pages of any origin may call, the method
`OPTIONS` only asks whether they may. -/
def serve (server : Server) (request : Request) : Server × Response :=
  let (after, response) := server.handle request
  if !server.enableCors then (after, response)
  else if request.method = "OPTIONS" then
    (server, ({ status := 200, headers := response.headers } : Response).withHeaders
      (corsHeaders ++ preflightHeaders))
  else (after, response.withHeaders corsHeaders)

/-- The responses to requests made in turn, and the server behind them. -/
def serveAll (server : Server) : List Request → Server × List Response
  | [] => (server, [])
  | request :: rest =>
    let (server, first) := server.serve request
    let (server, others) := server.serveAll rest
    (server, first :: others)

end Server

end Http

end MoveDesk
