import MoveDesk.Proofs.Bodies
import MoveDesk.Proofs.Displays
import MoveDesk.Proofs.Json.Roundtrip

/-!
# What a run of requests leaves in the server

The server answers in turn, so what a request is told can depend on all requests before it.
`serve_of_isAnalysis` and `serve_of_not_isAnalysis` say all that one request does to the server:
a granted request to analyze has its code taken in, and any other leaves the server as it is. What
holds of a run follows by induction: its context, and that requests which are no granted analyses
can be left out of it.

Headlines:
* **`serveAll_of_sublist`**: without such requests, the others are answered as before.
* **`serveAll_follows_analyses`**: the context behind a run, and the context that each response
  tells.
-/

namespace MoveDesk.Http

/-! ## Exchanges -/

/-- A request and the response to it. -/
structure Exchange where
  /-- The request. -/
  request : Request
  /-- The response. -/
  response : Response

namespace Exchange

/-- The request was one to analyze, and it was granted. -/
def IsAnalysis (exchange : Exchange) : Prop :=
  exchange.request.method = "POST" ∧ exchange.request.path = "/api/v1/analyze".toList ∧
    exchange.response.status = 200

instance : DecidablePred IsAnalysis := fun _ => inferInstanceAs (Decidable (_ ∧ _ ∧ _))

/-- The code that a granted request to analyze is written for. -/
def source? (exchange : Exchange) : Option String :=
  if exchange.IsAnalysis then (Server.readCode exchange.request).toOption else none

end Exchange

/-- The content with another uptime in the place of the one that it tells. -/
def Content.atUptime (seconds : Int) : Content → Content
  | .json (.object fields) =>
    .json (.object (fields.map fun (name, value) =>
      (name, if name = "uptime" then .text (uptimeText seconds) else value)))
  | content => content

/-- The response with another uptime in the place of the one that it tells. -/
def Response.atUptime (seconds : Int) (response : Response) : Response :=
  { response with content := response.content.atUptime seconds }

/-- The response as it is at another uptime. Only the answer how the server is tells it. -/
def Exchange.responseAt (seconds : Int) (exchange : Exchange) : Response :=
  if exchange.request.path = "/api/v1/health".toList then exchange.response.atUptime seconds
  else exchange.response

/-- The server at another uptime. -/
def Server.atUptime (seconds : Int) (server : Server) : Server := { server with uptime := seconds }

/-- The requests made in turn, with the responses to them. -/
def Server.exchanges (server : Server) (requests : List Request) : List Exchange :=
  List.zipWith Exchange.mk requests (server.serveAll requests).2

/-! ## Routes and their paths -/

namespace Route

/-- The path of a route. -/
def path : Route → List Char
  | start => "/".toList
  | health => "/api/v1/health".toList
  | generate => "/api/v1/generate".toList
  | explain part => "/api/v1/explain/".toList ++ part
  | review => "/api/v1/review".toList
  | analyze => "/api/v1/analyze".toList
  | context => "/api/v1/context".toList
  | templates => "/api/v1/templates".toList

theorem path_of_below? {path : List Char} {route : Route} (h : below? path = some route) :
    route.path = "/api/v1/".toList ++ path := by
  unfold below? at h
  simp only at h
  repeat' split at h
  all_goals cases h
  -- the routes but the explanations have one path each
  all_goals try (subst path; rfl)
  rename_i hexplain _
  obtain ⟨part, rfl⟩ := List.isPrefixOf_iff_prefix.mp hexplain
  rfl

/-- A path has no route but the one whose path it is. -/
theorem path_of_ofPath? {path : List Char} {route : Route} (h : ofPath? path = some route) :
    route.path = path := by
  unfold ofPath? at h
  split at h
  · rename_i hstart
    cases h
    exact hstart.symm
  · split at h
    · rename_i hversion
      obtain ⟨rest, rfl⟩ := List.isPrefixOf_iff_prefix.mp hversion
      exact path_of_below? h
    · cases h

/-- Each route but the explanations is the route of its path. -/
theorem ofPath?_eq_some_iff {path : List Char} {route : Route} (h : ∀ part, route ≠ explain part) :
    ofPath? path = some route ↔ path = route.path := by
  constructor
  · exact fun hroute => (path_of_ofPath? hroute).symm
  · rintro rfl
    cases route with
    | explain part => exact absurd rfl (h part)
    | _ => decide +kernel

end Route

namespace Server

variable (server : Server) (request : Request)

/-! ## One request -/

/-- A refusal is never a grant. -/
theorem status_refusal (refusal : BodyRefusal) : refusal.response.status ≠ 200 := by
  cases refusal with
  | mediaType => decide
  | length => decide
  | fault fault => cases fault <;> decide

theorem grant_of_ne_analyze {route : Route} (h : route ≠ .analyze) :
    (server.grant route request).1 = server := by
  cases route with
  | analyze => exact absurd rfl h
  | explain part =>
    unfold grant
    simp only
    split <;> rfl
  | _ => rfl

/-- A request that is not one to analyze leaves the server as it is. -/
theorem handle_of_other
    (h : ¬(request.method = "POST" ∧ request.path = "/api/v1/analyze".toList)) :
    (server.handle request).1 = server := by
  unfold handle
  cases hroute : Route.ofPath? request.path with
  | none => rfl
  | some route =>
    simp only
    split
    · rename_i hmethods
      refine grant_of_ne_analyze server request fun hanalyze => h ?_
      subst hanalyze
      exact ⟨List.mem_singleton.mp (List.contains_iff_mem.mp hmethods),
        (Route.path_of_ofPath? hroute).symm⟩
    · rfl

theorem handle_of_route {route : Route} (hroute : Route.ofPath? request.path = some route)
    (hmethod : request.method ∈ route.methods) (hhead : request.method ≠ "HEAD") :
    server.handle request = server.grant route request := by
  unfold handle
  rw [hroute]
  simp only [if_pos (List.contains_iff_mem.mpr hmethod), if_neg hhead]

/-- What concerns other origins stands in the headers only, but for the method that asks for it. -/
theorem serve_eq_handle (hmethod : request.method ≠ "OPTIONS") :
    server.serve request = ((server.handle request).1,
      (server.handle request).2.withHeaders (if server.enableCors then corsHeaders else [])) := by
  unfold serve
  cases server.enableCors with
  | false => simp [Response.withHeaders]
  | true => simp [hmethod]

theorem ne_of_mem_methods {route : Route} {method : String} (h : method ∈ route.methods) :
    method ≠ "OPTIONS" := by
  unfold Route.methods at h
  split at h
  · exact List.mem_singleton.mp h ▸ by decide
  · rintro rfl
    exact absurd h (by decide)

/-- A request is granted on the path of a route by one of its methods. -/
theorem serve_of_route {route : Route} (hroute : ∀ part, route ≠ .explain part)
    (hpath : request.path = route.path) (hmethod : request.method ∈ route.methods)
    (hhead : request.method ≠ "HEAD") :
    server.serve request = ((server.grant route request).1,
      (server.grant route request).2.withHeaders
        (if server.enableCors then corsHeaders else [])) := by
  have hhandle : server.handle request = server.grant route request :=
    handle_of_route server request ((Route.ofPath?_eq_some_iff hroute).mpr hpath) hmethod hhead
  rw [serve_eq_handle server request (ne_of_mem_methods hmethod), hhandle]

/-- A request to analyze is granted where its body can be read. -/
theorem serve_analyze (hmethod : request.method = "POST")
    (hpath : request.path = "/api/v1/analyze".toList) :
    server.serve request = ((server.grant .analyze request).1,
      (server.grant .analyze request).2.withHeaders
        (if server.enableCors then corsHeaders else [])) :=
  serve_of_route server request nofun hpath (List.mem_singleton.mpr hmethod) (hmethod ▸ by decide)

/-- **A request that is no granted analysis** leaves the server as it is. -/
theorem serve_of_not_isAnalysis
    (h : ¬Exchange.IsAnalysis ⟨request, (server.serve request).2⟩) :
    (server.serve request).1 = server := by
  by_cases hrequest : request.method = "POST" ∧ request.path = "/api/v1/analyze".toList
  · obtain ⟨hmethod, hpath⟩ := hrequest
    have hserve := serve_analyze server request hmethod hpath
    rw [grant] at hserve
    rw [hserve]
    cases hcode : readCode request with
    | error refusal => rfl
    | ok code =>
      refine absurd ⟨hmethod, hpath, ?_⟩ h
      rw [hserve, hcode]
      rfl
  · have hhandle := handle_of_other server request hrequest
    unfold serve
    simp only [hhandle]
    split
    · rfl
    · split <;> rfl

/-- **A granted analysis** has its code taken in, and is told what came of it. -/
theorem serve_of_isAnalysis (h : Exchange.IsAnalysis ⟨request, (server.serve request).2⟩) :
    ∃ code, readCode request = .ok code ∧
      (server.serve request).1 = { server with desk := (server.desk.analyze code).1 } ∧
      (server.serve request).2.content = .json (.object
        [("added", (server.desk.analyze code).2.told),
          ("context", (server.desk.analyze code).1.context.told)]) := by
  obtain ⟨hmethod, hpath, hstatus⟩ := h
  simp only at hmethod hpath hstatus
  have hserve := serve_analyze server request hmethod hpath
  rw [grant] at hserve
  cases hcode : readCode request with
  | error refusal =>
    rw [hserve, hcode] at hstatus
    exact absurd hstatus (status_refusal refusal)
  | ok code =>
    rw [hserve, hcode]
    refine ⟨code, rfl, rfl, ?_⟩
    rw [← Growth.encode_eq_told, ← Context.encode_snapshot]
    rfl

/-- A request to analyze whose body has code is granted. -/
theorem isAnalysis_of_hasCode (hmethod : request.method = "POST")
    (hpath : request.path = "/api/v1/analyze".toList) {code : String}
    (hcode : request.HasCode code) :
    Exchange.IsAnalysis ⟨request, (server.serve request).2⟩ := by
  have hserve := serve_analyze server request hmethod hpath
  rw [grant, readCode_of_hasCode hcode] at hserve
  refine ⟨hmethod, hpath, ?_⟩
  rw [hserve]
  rfl

/-- A request for the context is told it. -/
theorem serve_context (hmethod : request.method = "GET")
    (hpath : request.path = "/api/v1/context".toList) :
    (server.serve request).2.status = 200 ∧
      (server.serve request).2.content = .json server.desk.context.told := by
  have hserve := serve_of_route server request
    (show ∀ part, Route.context ≠ .explain part from nofun) hpath
    (List.mem_cons.mpr (.inl hmethod)) (hmethod ▸ by decide)
  rw [hserve, ← Context.encode_snapshot]
  exact ⟨rfl, rfl⟩

/-! ## Another uptime -/

theorem grant_atUptime (seconds : Int) (route : Route) :
    (server.atUptime seconds).grant route request =
      ((server.grant route request).1.atUptime seconds,
        if route = .health then (server.grant route request).2.atUptime seconds
        else (server.grant route request).2) := by
  cases route with
  | health => rfl
  | explain part =>
    simp only [grant]
    cases Target.unescape? part <;> rfl
  | analyze =>
    simp only [grant]
    cases readCode request <;> rfl
  | _ => rfl

theorem handle_atUptime (seconds : Int) :
    (server.atUptime seconds).handle request =
      ((server.handle request).1.atUptime seconds,
        Exchange.responseAt seconds ⟨request, (server.handle request).2⟩) := by
  unfold handle Exchange.responseAt
  cases hroute : Route.ofPath? request.path with
  | none => simp only; split <;> rfl
  | some route =>
    have hhealth : ∀ part, Route.health ≠ .explain part := nofun
    have hpath : request.path = "/api/v1/health".toList ↔ route = .health :=
      (Route.ofPath?_eq_some_iff hhealth).symm.trans (by rw [hroute, Option.some_inj])
    simp only [grant_atUptime, hpath]
    by_cases hmethods : route.methods.contains request.method
    · simp only [if_pos hmethods]
      by_cases hhead : request.method = "HEAD"
      · simp only [if_pos hhead]
        split <;> rfl
      · simp only [if_neg hhead]
    · simp only [if_neg hmethods]
      split <;> rfl

/-- **Another uptime** shows in the answer how the server is, and nowhere else. -/
theorem serve_atUptime (seconds : Int) :
    (server.atUptime seconds).serve request =
      ((server.serve request).1.atUptime seconds,
        Exchange.responseAt seconds ⟨request, (server.serve request).2⟩) := by
  have hcors : (server.atUptime seconds).enableCors = server.enableCors := rfl
  unfold serve
  simp only [handle_atUptime, hcors]
  unfold Exchange.responseAt
  by_cases hpath : request.path = "/api/v1/health".toList
  · simp only [if_pos hpath]
    split
    · rfl
    · split <;> rfl
  · simp only [if_neg hpath]
    split
    · rfl
    · split <;> rfl

/-! ## Runs -/

theorem serveAll_nil (server : Server) : server.serveAll [] = (server, []) := rfl

theorem serveAll_cons (server : Server) (request : Request) (rest : List Request) :
    server.serveAll (request :: rest) =
      (((server.serve request).1.serveAll rest).1,
        (server.serve request).2 :: ((server.serve request).1.serveAll rest).2) := rfl

theorem exchanges_cons (server : Server) (request : Request) (rest : List Request) :
    server.exchanges (request :: rest) =
      ⟨request, (server.serve request).2⟩ :: (server.serve request).1.exchanges rest := rfl

theorem map_request_exchanges (server : Server) (requests : List Request) :
    (server.exchanges requests).map (·.request) = requests := by
  induction requests generalizing server with
  | nil => rfl
  | cons request rest ih => exact congrArg (request :: ·) (ih (server.serve request).1)

theorem map_response_exchanges (server : Server) (requests : List Request) :
    (server.exchanges requests).map (·.response) = (server.serveAll requests).2 := by
  induction requests generalizing server with
  | nil => rfl
  | cons request rest ih =>
    exact congrArg ((server.serve request).2 :: ·) (ih (server.serve request).1)

theorem serveAll_concat (server : Server) (requests : List Request) (request : Request) :
    (server.serveAll (requests ++ [request])).1 =
      ((server.serveAll requests).1.serve request).1 := by
  induction requests generalizing server with
  | nil => rfl
  | cons first rest ih => exact ih (server.serve first).1

theorem exchanges_append_cons (server : Server) (before : List Request) (request : Request)
    (after : List Request) :
    server.exchanges (before ++ request :: after) = server.exchanges before ++
      ⟨request, ((server.serveAll before).1.serve request).2⟩ ::
        (server.serveAll (before ++ [request])).1.exchanges after := by
  induction before generalizing server with
  | nil => rfl
  | cons first before ih => exact congrArg (_ :: ·) (ih (server.serve first).1)

/-- Each request is answered by the server that those before it left. -/
theorem response_eq {server : Server} {requests : List Request} {before after : List Exchange}
    {exchange : Exchange} (h : server.exchanges requests = before ++ exchange :: after) :
    exchange.response =
      ((server.serveAll (before.map (·.request))).1.serve exchange.request).2 := by
  induction before generalizing server requests with
  | nil =>
    cases requests with
    | nil => cases h
    | cons request rest =>
      obtain rfl := (List.cons.inj h).1
      rfl
  | cons first before ih =>
    cases requests with
    | nil => cases h
    | cons request rest =>
      obtain ⟨rfl, hrest⟩ := List.cons.inj h
      exact ih hrest

/-- **The law of a run**: it leaves the desk that the granted analyses leave. -/
theorem serveAll_desk (server : Server) (requests : List Request) :
    (server.serveAll requests).1 = { server with
      desk := server.desk.analyzeEach ((server.exchanges requests).filterMap (·.source?)) } := by
  induction requests generalizing server with
  | nil => rfl
  | cons request rest ih =>
    rw [serveAll_cons, ih, exchanges_cons, List.filterMap_cons, Exchange.source?]
    by_cases h : Exchange.IsAnalysis ⟨request, (server.serve request).2⟩
    · obtain ⟨code, hcode, hserver, -⟩ := serve_of_isAnalysis server request h
      rw [if_pos h, hcode, hserver]
      rfl
    · rw [if_neg h, serve_of_not_isAnalysis server request h]

/-- **Requests that are no granted analyses can be left out**: the others are answered as before,
also at another uptime, and the desk becomes the same. -/
theorem serveAll_of_sublist (server : Server) (seconds : Int) {requests : List Request}
    {fewer : List Exchange} (hfewer : fewer.Sublist (server.exchanges requests))
    (hall : fewer.filter (·.IsAnalysis) = (server.exchanges requests).filter (·.IsAnalysis)) :
    (server.atUptime seconds).serveAll (fewer.map (·.request)) =
      ((server.serveAll requests).1.atUptime seconds, fewer.map (·.responseAt seconds)) := by
  induction requests generalizing server fewer with
  | nil =>
    obtain rfl := List.sublist_nil.mp hfewer
    rfl
  | cons request rest ih =>
    rw [exchanges_cons] at hfewer hall
    rw [serveAll_cons]
    cases hfewer with
    | cons _ hfewer =>
      by_cases h : Exchange.IsAnalysis ⟨request, (server.serve request).2⟩
      · -- an analysis cannot be left out
        rw [List.filter_cons_of_pos (by simpa using h)] at hall
        have hlength := (hfewer.filter (·.IsAnalysis)).length_le
        rw [hall] at hlength
        exact absurd hlength (Nat.not_succ_le_self _)
      · rw [List.filter_cons_of_neg (by simpa using h)] at hall
        rw [serve_of_not_isAnalysis server request h] at hfewer hall ⊢
        exact ih server hfewer hall
    | @cons_cons fewer _ _ hfewer =>
      have hothers : fewer.filter (·.IsAnalysis) =
          ((server.serve request).1.exchanges rest).filter (·.IsAnalysis) := by
        by_cases h : Exchange.IsAnalysis ⟨request, (server.serve request).2⟩
        · rw [List.filter_cons_of_pos (by simpa using h),
            List.filter_cons_of_pos (by simpa using h)] at hall
          exact (List.cons.inj hall).2
        · rwa [List.filter_cons_of_neg (by simpa using h),
            List.filter_cons_of_neg (by simpa using h)] at hall
      rw [List.map_cons, serveAll_cons, serve_atUptime, ih _ hfewer hothers]
      rfl

/-- **A run follows its analyses.** Whatever the server has seen and whatever is requested of it,
with or without pages of other origins, each request is answered, and
* the context behind the run is the one before it with the code of the granted analyses, and of
  nothing else, taken in;
* a request is answered by the server that those before it left. A granted analysis has code, tells
  the names in the context behind it, and counts as added what each list of names grew by. Any
  request to analyze with a JSON object that holds code is granted, and it is this code. A request
  that is no granted analysis leaves the server as it is, and one for the context is told its names;
* requests that are no granted analyses can be left out. The others are answered as before, but for
  the uptime. -/
theorem serveAll_follows_analyses (server : Server) (requests : List Request) :
    let exchanges := server.exchanges requests
    exchanges.map (·.request) = requests ∧
      exchanges.map (·.response) = (server.serveAll requests).2 ∧
      (server.serveAll requests).1.desk.context =
        server.desk.context.extractAll (exchanges.filterMap (·.source?)) ∧
      (∀ before exchange after, exchanges = before ++ exchange :: after →
        let current := (server.serveAll (before.map (·.request))).1
        let next := (server.serveAll ((before ++ [exchange]).map (·.request))).1
        (exchange.IsAnalysis →
          ∃ (code : String) (growth : Growth), exchange.source? = some code ∧
            next.desk.context = (current.desk.context.extract code).1 ∧
            exchange.response.content = .json (.object [("added", growth.told),
              ("context", next.desk.context.told)]) ∧
            ∀ kind, (next.desk.context.names kind).length =
              (current.desk.context.names kind).length + growth.count kind) ∧
          (∀ code, exchange.request.method = "POST" →
            exchange.request.path = "/api/v1/analyze".toList → exchange.request.HasCode code →
            exchange.IsAnalysis ∧ exchange.source? = some code) ∧
          (¬exchange.IsAnalysis → next = current) ∧
          (exchange.request.method = "GET" →
            exchange.request.path = "/api/v1/context".toList →
            exchange.response.status = 200 ∧
              exchange.response.content = .json current.desk.context.told)) ∧
      ∀ fewer : List Exchange, fewer.Sublist exchanges →
        fewer.filter (·.IsAnalysis) = exchanges.filter (·.IsAnalysis) →
        ∀ seconds, ((server.atUptime seconds).serveAll (fewer.map (·.request))).2 =
          fewer.map (·.responseAt seconds) := by
  intro exchanges
  refine ⟨map_request_exchanges server requests, map_response_exchanges server requests, ?_, ?_, ?_⟩
  · rw [serveAll_desk, Desk.analyzeEach_eq]
  · intro before exchange after hsplit current next
    have hresponse : exchange.response = (current.serve exchange.request).2 := response_eq hsplit
    have hexchange : exchange = ⟨exchange.request, (current.serve exchange.request).2⟩ := by
      rw [← hresponse]
    have hnext : next = (current.serve exchange.request).1 := by
      simp only [next, List.map_append]
      exact serveAll_concat server _ exchange.request
    refine ⟨fun h => ?_, fun code hmethod hpath hcode => ?_, fun h => ?_, fun hmethod hpath => ?_⟩
    · rw [hexchange] at h
      obtain ⟨code, hcode, hserver, hcontent⟩ := serve_of_isAnalysis current exchange.request h
      refine ⟨code, (current.desk.analyze code).2, ?_, ?_, ?_, ?_⟩
      · rw [hexchange, Exchange.source?, if_pos h, hcode]
        rfl
      · rw [hnext, hserver]
        rfl
      · rw [hresponse, hcontent, hnext, hserver]
      · rw [hnext, hserver]
        exact Context.length_extract current.desk.context code
    · have h : exchange.IsAnalysis :=
        hexchange ▸ isAnalysis_of_hasCode current exchange.request hmethod hpath hcode
      refine ⟨h, ?_⟩
      rw [Exchange.source?, if_pos h, readCode_of_hasCode hcode]
      rfl
    · rw [hexchange] at h
      rw [hnext]
      exact serve_of_not_isAnalysis current exchange.request h
    · rw [hresponse]
      exact serve_context current exchange.request hmethod hpath
  · intro fewer hfewer hall seconds
    rw [serveAll_of_sublist server seconds hfewer hall]

/-- A body that is not said to be JSON and a wrong method, and then the same code twice, with
requests for the context around them. Without the first two the others are answered as they are. -/
theorem serveAll_follows_analyses_repeated :
    let source := "struct A \x7b\x7d fun f"
    let fields := [("code", Json.text source)]
    let analysis : Request :=
      { method := "POST"
        path := "/api/v1/analyze".toList
        headers := [("content-type", "application/json")]
        body := Text.encode (Json.object fields).pretty }
    let refused := { analysis with headers := [] }
    let removal := { analysis with method := "DELETE" }
    let asked : Request := ⟨"GET", "/api/v1/context".toList, [], []⟩
    let requests := [refused, removal, asked, analysis, asked, analysis, asked]
    let exchanges := exchanges {} requests
    let told (structs functions : List Json) := Json.object
      [("modules", .array []), ("structs", .array structs), ("functions", .array functions)]
    let added (structs functions : Int) := Json.object [("modules_added", .int 0),
      ("structs_added", .int structs), ("functions_added", .int functions)]
    let seen := told [.text "A"] [.text "f"]
    analysis.HasCode source ∧
      exchanges.map (·.response.status) = [415, 405, 200, 200, 200, 200, 200] ∧
      exchanges.filterMap (·.source?) = [source, source] ∧
      (serveAll {} requests).1.desk.context = .ofInserts [(.structs, "A"), (.functions, "f")] ∧
      (exchanges.drop 2).map (·.response.content) = [.json (told [] []),
        .json (.object [("added", added 1 1), ("context", seen)]), .json seen,
        .json (.object [("added", added 0 0), ("context", seen)]), .json seen] ∧
      (serveAll (atUptime 60 {}) [asked, analysis, asked, analysis, asked]).2 =
        (exchanges.drop 2).map (·.response) := by
  intro source fields analysis refused removal asked requests exchanges told added seen
  obtain ⟨-, -, hcontext, heach, hfewer⟩ := serveAll_follows_analyses {} requests
  have hparse : Json.parse? (analysis.body ++ []) = some (.object fields) :=
    Json.parse?_pretty rfl (List.forall_mem_nil _)
  rw [List.append_nil] at hparse
  have hcode : analysis.HasCode source :=
    ⟨by decide +kernel, by decide +kernel, fields, hparse, rfl⟩
  have hstatus : exchanges.map (·.response.status) = [415, 405, 200, 200, 200, 200, 200] := by
    decide +kernel
  have hsources : exchanges.filterMap (·.source?) = [source, source] := by decide +kernel
  -- What is told is settled by the contexts before and behind the request.
  have hasked : ∀ before after ctx, requests = before ++ asked :: after →
      (serveAll {} before).1.desk.context = ctx →
      ((serveAll {} before).1.serve asked).2.content = .json ctx.told := by
    rintro before after _ hsplit rfl
    obtain ⟨-, -, -, htold⟩ := heach _ _ _ (hsplit ▸ exchanges_append_cons {} before asked after)
    rw [map_request_exchanges] at htold
    exact (htold rfl rfl).2
  have hgranted : ∀ before after (ctx last : Context) (growth : Growth),
      requests = before ++ analysis :: after →
      (serveAll {} before).1.desk.context = ctx →
      (serveAll {} (before ++ [analysis])).1.desk.context = last →
      (∀ kind, (last.names kind).length = (ctx.names kind).length + growth.count kind) →
      ((serveAll {} before).1.serve analysis).2.content =
        .json (.object [("added", growth.told), ("context", last.told)]) := by
    rintro before after _ _ growth hsplit rfl rfl hgrowth
    obtain ⟨hanalysis, hsource, -, -⟩ :=
      heach _ _ _ (hsplit ▸ exchanges_append_cons {} before analysis after)
    obtain ⟨-, growth', -, -, hcontent, hgrowth'⟩ := hanalysis (hsource source rfl rfl hcode).1
    simp only [List.map_append, map_request_exchanges, List.map_cons, List.map_nil]
      at hcontent hgrowth'
    have hsame : growth' = growth := Growth.ext_count fun kind => by
      have h := hgrowth kind
      rw [hgrowth' kind] at h
      omega
    rw [hcontent, hsame]
  let last : Context := .ofInserts [(.structs, "A"), (.functions, "f")]
  have hfirst := hasked [refused, removal] _ ∅ rfl (by decide +kernel)
  have hnew := hgranted [refused, removal, asked] _ ∅ last ⟨0, 1, 1⟩ rfl
    (by decide +kernel) (by decide +kernel) (fun kind => by cases kind <;> rfl)
  have hsecond := hasked [refused, removal, asked, analysis] _ last rfl (by decide +kernel)
  have hagain := hgranted [refused, removal, asked, analysis, asked] _ last last ⟨0, 0, 0⟩ rfl
    (by decide +kernel) (by decide +kernel) (fun kind => by cases kind <;> rfl)
  have hthird := hasked [refused, removal, asked, analysis, asked, analysis] _ last rfl
    (by decide +kernel)
  refine ⟨hcode, hstatus, hsources, ?_, ?_, ?_⟩
  · rw [hcontext, hsources]
    decide +kernel
  · simp only [serveAll_cons, serveAll_nil] at hfirst hnew hsecond hagain hthird
    simp only [exchanges, requests, exchanges_cons, List.drop_succ_cons, List.drop_zero,
      List.map_cons, hfirst, hnew, hsecond, hagain, hthird]
    rfl
  · have hrefused : ¬Exchange.IsAnalysis ⟨refused, (serve {} refused).2⟩ := by decide +kernel
    have hremoval : ¬Exchange.IsAnalysis ⟨removal, ((serve {} refused).1.serve removal).2⟩ := by
      decide +kernel
    have hall : (exchanges.drop 2).filter (·.IsAnalysis) = exchanges.filter (·.IsAnalysis) := by
      simp only [exchanges, requests, exchanges_cons]
      rw [List.filter_cons_of_neg (by simpa using hrefused),
        List.filter_cons_of_neg (by simpa using hremoval)]
      rfl
    have hrequests : (exchanges.drop 2).map (·.request) =
        [asked, analysis, asked, analysis, asked] := by
      rw [List.map_drop, map_request_exchanges]
      rfl
    have hleft := hfewer (exchanges.drop 2) (List.drop_sublist 2 exchanges) hall 60
    rw [hrequests] at hleft
    have hothers : ∀ request ∈ (exchanges.drop 2).map (·.request),
        request.path ≠ "/api/v1/health".toList := by
      rw [hrequests]
      decide +kernel
    exact hleft.trans (List.map_congr_left fun exchange hexchange =>
      if_neg (hothers _ (List.mem_map.mpr ⟨exchange, hexchange, rfl⟩)))

end Server

end MoveDesk.Http
