import MoveDesk.Template.Archetypes

/-!
# The template catalog

The templates that contracts are written from, and that the command `templates` and
`GET /api/v1/templates` list. They stand in order of registration, under names of which no two are
equal. The first template registered for an intent serves it.
-/

namespace MoveDesk

/-- Why the catalog refuses. -/
inductive CatalogError where
  /-- A template of that name is registered. -/
  | duplicatePattern (patternId : String)
  /-- No template of that name is registered. -/
  | unknownPattern (patternId : String)
deriving DecidableEq, Repr

/-- The text of the refusal. -/
def CatalogError.message : CatalogError → String
  | duplicatePattern patternId => "duplicate template pattern: " ++ patternId
  | unknownPattern patternId => "unknown template pattern: " ++ patternId

/-- Registered templates. -/
structure Catalog where
  /-- The templates, in order of registration. -/
  templates : List Template := []
  /-- No two have one name. -/
  nodup : (templates.map (·.entry.patternId)).Nodup := by decide

namespace Catalog

/-- The answer to an instruction that no template serves. -/
def fallbackMessage : String :=
  "I can help you generate Move contracts for: token, NFT, marketplace, or a generic module. " ++
  "Please describe what you want to build, e.g. \"create a token\"."

instance : EmptyCollection Catalog := ⟨{}⟩

/-- The catalog of the built-in templates. -/
def builtins : Catalog where
  templates := Template.builtins

/-- The template of the given name. -/
def find? (catalog : Catalog) (patternId : String) : Option Template :=
  catalog.templates.find? (·.entry.patternId = patternId)

/-- The first template registered for the intent. -/
def forIntent? (catalog : Catalog) (intent : Intent) : Option Template :=
  catalog.templates.find? (·.entry.intent = intent)

theorem find?_eq_none_iff {catalog : Catalog} {patternId : String} :
    catalog.find? patternId = none ↔
      patternId ∉ catalog.templates.map (·.entry.patternId) := by
  simp [find?]

/-- The catalog with the template at its end, unless its name is taken. -/
def register (catalog : Catalog) (template : Template) : Except CatalogError Catalog :=
  match h : catalog.find? template.entry.patternId with
  | some _ => .error (.duplicatePattern template.entry.patternId)
  | none => .ok {
      templates := catalog.templates ++ [template]
      nodup := by
        have hnew := find?_eq_none_iff.1 h
        simp only [List.map_append, List.map_cons, List.map_nil]
        refine List.nodup_append.2 ⟨catalog.nodup, by simp, fun a ha b hb hab => ?_⟩
        rw [List.mem_singleton] at hb
        exact hnew (hb ▸ hab ▸ ha) }

/-- The code for an intent; an intent that no template serves gets the fallback message. -/
def generate (catalog : Catalog) (intent : Intent) (params : Parameters) : String :=
  match catalog.forIntent? intent with
  | some template => template.generate params
  | none => fallbackMessage

/-- The code of the template of the given name. -/
def generatePattern (catalog : Catalog) (patternId : String) (params : Parameters) :
    Except CatalogError String :=
  match catalog.find? patternId with
  | some template => .ok (template.generate params)
  | none => .error (.unknownPattern patternId)

/-- The entries of all templates. -/
def list (catalog : Catalog) : List TemplateEntry := catalog.templates.map (·.entry)

/-- The number of templates. -/
def size (catalog : Catalog) : Nat := catalog.templates.length

end Catalog

end MoveDesk
