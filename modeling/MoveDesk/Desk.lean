import MoveDesk.Catalog
import MoveDesk.Context
import MoveDesk.Glossary
import MoveDesk.Review

/-!
# The desk

The assistant behind all ways into the program. The commands, the menu and the server each work on
a desk, and answer what it answers.

* `generate` writes a contract for a free-form instruction, which `classify` reads; `explain`
  explains the concept in a query; `review` finds what is wrong with a source, and `reviewLines`
  says so in lines. None of them changes the desk.
* `analyze` takes a source into the context. Nothing else changes the context, and only
  `Catalog.register` the catalog.
* `Request` is all that a desk can be asked. `answer` answers one request and `answerAll` several in
  turn.
-/

namespace MoveDesk

/-- The templates at hand and what has been seen so far. -/
structure Desk where
  /-- The templates. -/
  catalog : Catalog := .builtins
  /-- The names seen so far. -/
  context : Context := ∅

namespace Desk

/-- What the instruction asks for. -/
def classify (instruction : String) : Intent := MoveDesk.classify intentRules instruction

/-- The code for an instruction. -/
def generate (desk : Desk) (instruction : String) (params : Parameters) : String :=
  desk.catalog.generate (classify instruction) params

/-- The explanation of the concept that the query names. -/
def explain (query : String) : String := Glossary.standard.explain query

/-- The findings about a source. -/
def review (source : String) : List Finding := MoveDesk.review reviewRules source

/-- The findings about a source, as lines. -/
def reviewLines (source : String) : List String := (review source).map (·.line)

/-- The desk that has seen the source, and how many of the declared names were new. -/
def analyze (desk : Desk) (source : String) : Desk × Growth :=
  let (context, growth) := desk.context.extract source
  ({ desk with context }, growth)

/-- A request to the desk. -/
inductive Request where
  /-- What does the instruction ask for? -/
  | classify (instruction : String)
  /-- Write the code for the instruction. -/
  | generate (instruction : String) (params : Parameters)
  /-- Explain a concept. -/
  | explain (query : String)
  /-- Review a source, answering in lines. -/
  | review (source : String)
  /-- Review a source, answering in findings. -/
  | findings (source : String)
  /-- Take a source into the context. -/
  | analyze (source : String)
  /-- What has been seen so far? -/
  | context
  /-- What concepts are explained? -/
  | concepts
  /-- Register a template. -/
  | register (template : Template)
  /-- What is listed of the template of that name? -/
  | find (patternId : String)
  /-- What is listed of the template that serves the intent? -/
  | findFor (intent : Intent)
  /-- Write the code for the intent. -/
  | generateFor (intent : Intent) (params : Parameters)
  /-- Write the code of the template of that name. -/
  | generatePattern (patternId : String) (params : Parameters)
  /-- What templates are there? -/
  | templates
  /-- How many templates are there? -/
  | templateCount

/-- An answer of the desk. -/
inductive Answer where
  /-- An intent. -/
  | intent (intent : Intent)
  /-- A text. -/
  | text (text : String)
  /-- Several texts. -/
  | texts (texts : List String)
  /-- Findings. -/
  | findings (findings : List Finding)
  /-- How many names were new. -/
  | growth (growth : Growth)
  /-- What has been seen. -/
  | snapshot (snapshot : Snapshot)
  /-- What is listed of a template, if there is one. -/
  | entry (entry : Option TemplateEntry)
  /-- What is listed of the templates. -/
  | entries (entries : List TemplateEntry)
  /-- A number of templates. -/
  | count (count : Nat)
  /-- The catalog refused. -/
  | refused (error : CatalogError)
deriving DecidableEq, Repr

/-- The answer to a request, and the desk behind it. -/
def answer (desk : Desk) : Request → Desk × Answer
  | .classify instruction => (desk, .intent (classify instruction))
  | .generate instruction params => (desk, .text (desk.generate instruction params))
  | .explain query => (desk, .text (explain query))
  | .review source => (desk, .texts (reviewLines source))
  | .findings source => (desk, .findings (review source))
  | .analyze source =>
    let (desk, growth) := desk.analyze source
    (desk, .growth growth)
  | .context => (desk, .snapshot desk.context.snapshot)
  | .concepts => (desk, .texts Glossary.standard.names)
  | .register template =>
    match desk.catalog.register template with
    | .ok catalog => ({ desk with catalog }, .count catalog.size)
    | .error error => (desk, .refused error)
  | .find patternId => (desk, .entry ((desk.catalog.find? patternId).map (·.entry)))
  | .findFor intent => (desk, .entry ((desk.catalog.forIntent? intent).map (·.entry)))
  | .generateFor intent params => (desk, .text (desk.catalog.generate intent params))
  | .generatePattern patternId params =>
    match desk.catalog.generatePattern patternId params with
    | .ok text => (desk, .text text)
    | .error error => (desk, .refused error)
  | .templates => (desk, .entries desk.catalog.list)
  | .templateCount => (desk, .count desk.catalog.size)

/-- The answers to requests made in turn, and the desk behind them. -/
def answerAll (desk : Desk) : List Request → Desk × List Answer
  | [] => (desk, [])
  | request :: rest =>
    let (desk, first) := desk.answer request
    let (desk, others) := desk.answerAll rest
    (desk, first :: others)

end Desk

end MoveDesk
