import Mathlib.Data.List.Forall2
import MoveDesk.CommandLine
import MoveDesk.Proofs.Archetypes.Placement
import MoveDesk.Proofs.Bodies
import MoveDesk.Proofs.Codecs
import MoveDesk.Proofs.Json.Roundtrip
import MoveDesk.Proofs.Script
import MoveDesk.Proofs.Service
import MoveDesk.Proofs.Writes

/-!
# One order, whatever way it is given

An order for code is given as a command, as a request to the server, or line by line in a session.
Each of them brings its parameters together in its own way, and all of them come to the same: the
parameters in order, with the name and the address on top (`Order.writes`), of which the last under
a key counts (`lookup_parameters`). A value that is empty in the end counts as none, even where an
earlier one was not (`code_builtins`).

Headline:
* **`surfaces_generate_alike`**: the command, the server and the session answer an order with the
  same code.
-/

namespace MoveDesk

/-! ## Orders -/

namespace Order

/-- What is set, in order: the parameters, and the name and the address on top. -/
def writes (order : Order) : List (String × String) :=
  order.params ++ order.name.toList.map ("name", ·) ++ order.address.toList.map ("address", ·)

/-- The code that the catalog has for the order. -/
def code (order : Order) (catalog : Catalog) : String :=
  ({ catalog } : Desk).generate order.instruction order.parameters

/-- The answer to the order as data. -/
def answer (order : Order) (catalog : Catalog) : Json :=
  .object [("intent", .text (Desk.classify order.instruction).label),
    ("code", .text (order.code catalog))]

/-- The order for an archetype that is given by the lines of a session. -/
def ofLines (archetype : Intent) (name address : String) : Order where
  words := [archetype.label]
  name := some (Session.word name)
  address := some (Session.word address)

theorem parameters_eq (order : Order) : order.parameters = Parameters.ofList order.writes := by
  obtain ⟨words, params, name, address⟩ := order
  cases name <;> cases address <;> simp only [parameters, writes, Option.elim, Option.toList,
    List.map_nil, List.map_cons, List.append_nil, Parameters.ofList_append, List.foldl_cons,
    List.foldl_nil] <;> rfl

/-- **The last write under a key counts.** -/
theorem lookup_parameters (order : Order) (key : String) :
    order.parameters.entries.lookup key = order.writes.reverse.lookup key := by
  rw [parameters_eq, Parameters.lookup_ofList]

end Order

/-! ## Empty values -/

/-- The code of a built-in template is decided by the values that are not empty. -/
theorem generate_builtins_congr (intent : Intent) {params params' : Parameters}
    (h : ∀ key, params.get? key = params'.get? key) :
    Catalog.builtins.generate intent params = Catalog.builtins.generate intent params' := by
  unfold Catalog.generate
  cases hfound : Catalog.builtins.forIntent? intent with
  | none => rfl
  | some template =>
    obtain ⟨patternId, _, description, slots, body, rfl⟩ :=
      Template.exists_ofBody_of_mem_builtins (List.mem_of_find?_eq_some hfound)
    exact Template.generate_ofBody_congr patternId _ description body fun key _ => h key

/-- The writes under keys that are not empty in the end. -/
def effective (writes : List (String × String)) : List (String × String) :=
  writes.filter fun write => writes.reverse.lookup write.1 ≠ some ""

/-- **A value that is empty in the end** counts as if its key had never been set. -/
theorem get?_effective (writes : List (String × String)) (key : String) :
    (Parameters.ofList (effective writes)).get? key = (Parameters.ofList writes).get? key := by
  rw [Parameters.get?, Parameters.get?, Parameters.lookup_ofList, Parameters.lookup_ofList,
    effective, ← List.filter_reverse,
    Parameters.lookup_filter fun key => writes.reverse.lookup key ≠ some ""]
  by_cases hempty : writes.reverse.lookup key = some ""
  · simp [hempty, Option.filter]
  · simp [hempty]

theorem Order.code_builtins (order : Order) :
    order.code .builtins =
      ({} : Desk).generate order.instruction (.ofList (effective order.writes)) := by
  rw [code, parameters_eq]
  exact generate_builtins_congr _ fun key => (get?_effective order.writes key).symm

/-! ## The command -/

namespace CommandLine

/-- The text stands for the parameter: a name that is not blank, with blanks around it, the first
equals sign, and the value. -/
def Spells (text : String) (param : String × String) : Prop :=
  ∃ before, text.toList = before ++ '=' :: param.2.toList ∧ '=' ∉ before ∧
    param.1 = String.ofList (Text.trim before) ∧ param.1 ≠ ""

theorem parameter?_eq_some_iff {text : String} {param : String × String} :
    parameter? text = some param ↔ Spells text param := by
  obtain ⟨name, value⟩ := param
  simp only [parameter?, Option.bind_eq_bind, Option.bind_eq_some_iff, Prod.exists,
    Text.cut?_eq_some_iff, Text.firstBehind_singleton_iff]
  constructor
  · rintro ⟨before, after, ⟨htext, hbefore⟩, hname⟩
    split at hname
    · cases hname
    · rename_i hne
      obtain ⟨rfl, rfl⟩ := Prod.mk.inj (Option.some.inj hname)
      refine ⟨before, ?_, hbefore, rfl, ?_⟩
      · rw [htext, String.toList_ofList, List.append_assoc]
        rfl
      · intro hempty
        have htrim := congrArg String.toList hempty
        rw [String.toList_ofList] at htrim
        exact hne (List.isEmpty_iff.mpr htrim)
  · rintro ⟨before, htext, hbefore, rfl, hne⟩
    refine ⟨before, value.toList, ⟨?_, hbefore⟩, ?_⟩
    · rw [htext, List.append_assoc]
      rfl
    · rw [if_neg, String.ofList_toList]
      · rfl
      · intro hempty
        exact hne (congrArg String.ofList (List.isEmpty_iff.mp hempty))

/-- Texts that are taken for parameters stand for these. -/
theorem forall₂_spells {texts : List String} {params : List (String × String)}
    (h : texts.mapM parameter? = some params) : List.Forall₂ Spells texts params := by
  induction texts generalizing params with
  | nil =>
    cases h
    exact .nil
  | cons text texts ih =>
    rw [List.mapM_cons] at h
    obtain ⟨param, hparam, h⟩ := Option.bind_eq_some_iff.mp h
    obtain ⟨others, hothers, h⟩ := Option.bind_eq_some_iff.mp h
    cases h
    exact .cons (parameter?_eq_some_iff.mp hparam) (ih hothers)

end CommandLine

theorem Command.run_generate_text (bench : Bench) (order : Order) :
    Command.run { bench with format := .text } (.generate order) =
      .single (order.code bench.desk.catalog ++ "\n") bench.desk.context := rfl

/-- The answer as JSON is read back. -/
theorem Command.run_generate_json (bench : Bench) (order : Order) :
    ∃ text, Command.run { bench with format := .json } (.generate order) =
        .single text bench.desk.context ∧
      Json.parse? (Text.encode text) = some (order.answer bench.desk.catalog) := by
  let report := Report.generation bench.desk order.instruction order.parameters
  have hexact : report.data.isExact = true := rfl
  exact ⟨report.write .json bench.colors, rfl, report.parse?_write_json hexact bench.colors⟩

/-! ## The server -/

namespace Http

/-- The request asks for the code of the order. Its body is any JSON object with the instruction and
what is set, in order; other fields do not matter. -/
structure Request.Orders (request : Request) (order : Order) : Prop where
  /-- It has the method. -/
  method_eq : request.method = "POST"
  /-- It has the path. -/
  path_eq : request.path = "/api/v1/generate".toList
  /-- The body is said to be JSON. -/
  isJson : request.isJson = true
  /-- The body is not too long. -/
  length_le : request.body.length ≤ 2097152
  /-- The body holds the instruction and what is set. -/
  body : ∃ fields, Json.parse? request.body = some (.object fields) ∧
    (fields.filter (·.1 ∈ ["intent", "params"])).Perm
      [("intent", .text order.instruction), ("params", textsJson order.writes)]

theorem decode?_textsJson (writes : List (String × String)) :
    (Codec.decode? (textsJson writes) : Option Parameters) = some (.ofList writes) := by
  have hentries : (writes.map fun write => (write.1, Json.text write.2)).mapM
      (fun entry => do return (entry.1, ← (Codec.decode? entry.2 : Option String))) =
        some writes :=
    mapM_map_of_forall writes fun _ _ => rfl
  exact congrArg (·.bind fun entries => some (Parameters.ofList entries)) hentries

/-- The instruction and the parameters are read. -/
theorem Server.readGenerate_of_orders {request : Request} {order : Order}
    (h : request.Orders order) :
    readGenerate request = .ok ⟨order.instruction, order.parameters⟩ := by
  obtain ⟨entries, hparse, hperm⟩ := h.body
  let expected := [("intent", .text order.instruction), ("params", textsJson order.writes)]
  have hkinds : ∀ entry ∈ expected, ∀ field ∈ generateFields, field.name = entry.1 →
      field.kind.Holds entry.2 := by
    simp [expected, generateFields, FieldKind.Holds]
  have hnodup : (expected.map (·.1)).Nodup := show ["intent", "params"].Nodup by decide
  have hrequired : ∀ field ∈ generateFields, field.isRequired = true →
      field.name ∈ ["intent", "params"] := by decide
  obtain ⟨found, hread, hfields⟩ :=
    readBody_of_perm hkinds hnodup hrequired h.isJson h.length_le hparse hperm
  have hinstruction : readField (·.bind Codec.decode?) "intent" (.object found) =
      .ok order.instruction := by
    rw [readField, hfields _ List.mem_cons_self]
    rfl
  have hset : readField (fun field => Codec.decode? (field.getD (.object []))) "params"
      (.object found) = .ok order.parameters := by
    rw [readField, hfields _ (List.mem_cons_of_mem _ List.mem_cons_self), Option.getD_some,
      decode?_textsJson, order.parameters_eq]
  rw [readGenerate, hread]
  change (readField _ _ _).bind _ = _
  rw [hinstruction]
  change (readField _ _ _).bind _ = _
  rw [hset]
  rfl

theorem Server.serve_generate (server : Server) {request : Request} {order : Order}
    (h : request.Orders order) :
    (server.serve request).1 = server ∧ (server.serve request).2.status = 200 ∧
      (server.serve request).2.content = .json (order.answer server.desk.catalog) := by
  have hserve := serve_of_route server request
    (show ∀ part, Route.generate ≠ .explain part from nofun) h.path_eq
    (List.mem_singleton.mpr h.method_eq) (h.method_eq ▸ by decide)
  rw [hserve, grant, readGenerate_of_orders h]
  exact ⟨rfl, rfl, rfl⟩

end Http

/-! ## All of them -/

/-- **An order is answered alike**, whatever way it is given and whatever templates there are:
* of the texts accepted as parameters the last under a name counts, and the name and the address of
  the order count more;
* a value that is empty in the end stands for the default, as if nothing had been set;
* the command prints the code, or as JSON the answer;
* the server answers the same to any JSON body with the instruction and what is set;
* a session prints the code of the order for the archetype with its two lines, and goes on. -/
theorem surfaces_generate_alike (catalog : Catalog) (words texts : List String)
    (params : List (String × String)) (name address : Option String)
    (haccepted : texts.mapM CommandLine.parameter? = some params) :
    let order : Order := { words, params, name, address }
    List.Forall₂ CommandLine.Spells texts params ∧
      (∀ key, order.parameters.entries.lookup key = order.writes.reverse.lookup key) ∧
      (∀ key default, order.parameters.getD key default =
        match order.writes.reverse.lookup key with
        | none => default
        | some value => if value = "" then default else value) ∧
      order.code .builtins =
        ({} : Desk).generate order.instruction (.ofList (effective order.writes)) ∧
      (∀ bench : Bench, bench.desk.catalog = catalog →
        Command.run { bench with format := .text } (.generate order) =
            .single (order.code catalog ++ "\n") bench.desk.context ∧
          ∃ text, Command.run { bench with format := .json } (.generate order) =
              .single text bench.desk.context ∧
            Json.parse? (Text.encode text) = some (order.answer catalog)) ∧
      (∀ (server : Http.Server) (request : Http.Request), server.desk.catalog = catalog →
        request.Orders order →
          (server.serve request).1 = server ∧ (server.serve request).2.status = 200 ∧
            (server.serve request).2.content = .json (order.answer catalog)) ∧
      ∀ session : Session, session.desk.catalog = catalog → session.stage = .choice →
        ∀ archetype ∈ Intent.archetypes, ∀ choice : String,
          Session.word choice = Entry.generation archetype → ∀ (first second : String) rest,
            (session.run
                (Text.encode choice :: Text.encode first :: Text.encode second :: rest)).delivered =
              (session.run rest).delivered.after
                (Session.namePrompt ++ Session.addressPrompt ++ "\n" ++
                  (Order.ofLines archetype first second).code catalog ++ "\n" ++
                  Session.menuText) := by
  intro order
  refine ⟨CommandLine.forall₂_spells haccepted, order.lookup_parameters, fun key default => ?_,
    order.code_builtins, ?_, ?_, ?_⟩
  · have hvalue := order.parameters.getD_eq key default
    rw [order.lookup_parameters] at hvalue
    exact hvalue
  · rintro bench rfl
    exact ⟨Command.run_generate_text bench order, Command.run_generate_json bench order⟩
  · rintro server request rfl hrequest
    exact server.serve_generate hrequest
  · rintro session rfl hstage archetype harchetype choice hchoice first second rest
    exact Session.run_generate hstage harchetype hchoice first second rest

/-- A name that is empty in the end, a value with an equals sign, a body whose fields stand in
another order among others, and lines with blanks and without a newline. -/
theorem surfaces_generate_alike_empty_name :
    let texts := ["name=Gold", " initial_balance =5=6", "name="]
    let params := [("name", "Gold"), ("initial_balance", "5=6"), ("name", "")]
    let order : Order := { words := ["a", "coin"], params, address := some "0xcafe" }
    let fields :=
      [("params", Http.textsJson order.writes), ("note", .null), ("intent", .text "a coin")]
    let request : Http.Request :=
      { method := "POST"
        path := "/api/v1/generate".toList
        headers := [("content-type", "application/json")]
        body := Text.encode (Json.object fields).pretty }
    texts.mapM CommandLine.parameter? = some params ∧ request.Orders order ∧
      Session.word "1\r\n" = Entry.generation .token ∧
      order.parameters.getD "name" "MyToken" = "MyToken" ∧
      (({} : Http.Server).serve request).2.content = .json (order.answer .builtins) ∧
      Command.run {} (.generate order) = .single (order.code .builtins ++ "\n") ∅ ∧
      (({} : Session).run (["1\r\n", " Gold \n", "0x2"].map Text.encode)).delivered.written =
        Text.encode (Session.namePrompt ++ Session.addressPrompt ++ "\n" ++
          (Order.ofLines .token "Gold" "0x2").code .builtins ++ "\n" ++ Session.menuText) := by
  intro texts params order fields request
  have haccepted : texts.mapM CommandLine.parameter? = some params := by decide +kernel
  have hparse : Json.parse? (request.body ++ []) = some (.object fields) :=
    Json.parse?_pretty rfl (List.forall_mem_nil _)
  rw [List.append_nil] at hparse
  have hrequest : request.Orders order :=
    ⟨rfl, rfl, by decide +kernel, by decide +kernel, fields, hparse, List.Perm.swap _ _ []⟩
  have hchoice : Session.word "1\r\n" = Entry.generation .token := by decide +kernel
  have hlines : Order.ofLines .token " Gold \n" "0x2" = Order.ofLines .token "Gold" "0x2" := by
    decide +kernel
  obtain ⟨-, -, hvalue, -, hcommand, hserver, hsession⟩ :=
    surfaces_generate_alike .builtins ["a", "coin"] texts params none (some "0xcafe") haccepted
  refine ⟨haccepted, hrequest, hchoice, ?_, (hserver {} request rfl hrequest).2.2,
    (hcommand {} rfl).1, ?_⟩
  · rw [hvalue]
    decide +kernel
  · have hsaid := hsession {} rfl rfl .token (by decide) "1\r\n" hchoice " Gold \n" "0x2" []
    rw [hlines] at hsaid
    exact (congrArg (·.written) hsaid).trans (List.append_nil _)

end MoveDesk
