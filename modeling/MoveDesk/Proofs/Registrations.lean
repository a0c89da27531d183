import Mathlib.Data.List.Nodup
import MoveDesk.Desk
import MoveDesk.Proofs.Find

/-!
# What registrations leave in a catalog

A catalog is looked up by name and by intent, and registrations go on while it is in use.
`register_of_mem` and `register_of_notMem` say all that one registration does: a name that is taken
is refused, and any other template goes to the end. So a run of registrations only extends the
templates, and what a lookup has found it finds for ever.

Headlines:
* **`registerAll_extends`**: what any run of registrations leaves, for both lookups.
* **`generate_of_no_keyword`**: what an instruction is answered that asks for nothing known. A
  template registered for such instructions takes the place of the fallback message.
-/

namespace MoveDesk

namespace Catalog

variable {catalog : Catalog} {template : Template} {patternId : String}

/-- The names under which templates are registered. -/
def names (catalog : Catalog) : List String := catalog.templates.map (·.entry.patternId)

/-- The catalog behind the registration of a template. A refusal leaves it as it is. -/
def enroll (catalog : Catalog) (template : Template) : Catalog :=
  match catalog.register template with
  | .ok next => next
  | .error _ => catalog

/-- The catalog behind the registration of templates in turn. -/
def registerAll (catalog : Catalog) (templates : List Template) : Catalog :=
  templates.foldl enroll catalog

/-! ## Lookups -/

theorem mem_names : patternId ∈ catalog.names ↔
    ∃ template ∈ catalog.templates, template.entry.patternId = patternId :=
  List.mem_map

/-- One template at most is found under a name. -/
theorem find?_eq_some_iff : catalog.find? patternId = some template ↔
    template ∈ catalog.templates ∧ template.entry.patternId = patternId := by
  constructor
  · intro h
    exact ⟨List.mem_of_find?_eq_some h, by simpa using List.find?_some h⟩
  · rintro ⟨hmem, rfl⟩
    cases hfind : catalog.find? template.entry.patternId with
    | none => exact absurd (List.mem_map_of_mem hmem) (find?_eq_none_iff.mp hfind)
    | some found =>
      have hname : found.entry.patternId = template.entry.patternId := by
        simpa using List.find?_some hfind
      rw [List.inj_on_of_nodup_map catalog.nodup (List.mem_of_find?_eq_some hfind) hmem hname]

/-! ## One registration -/

/-- **A name that is taken** is refused. -/
theorem register_of_mem (h : template.entry.patternId ∈ catalog.names) :
    catalog.register template = .error (.duplicatePattern template.entry.patternId) := by
  unfold register
  split
  · rfl
  · rename_i hnone
    exact absurd h (find?_eq_none_iff.mp hnone)

/-- **A template of a new name** goes to the end. -/
theorem register_of_notMem (h : template.entry.patternId ∉ catalog.names) :
    ∃ next, catalog.register template = .ok next ∧
      next.templates = catalog.templates ++ [template] := by
  unfold register
  split
  · rename_i hsome
    exact absurd (find?_eq_none_iff.mpr h) (by rw [hsome]; exact Option.some_ne_none _)
  · exact ⟨_, rfl, rfl⟩

theorem enroll_of_mem (h : template.entry.patternId ∈ catalog.names) :
    catalog.enroll template = catalog := by
  rw [enroll, register_of_mem h]

theorem templates_enroll_of_notMem (h : template.entry.patternId ∉ catalog.names) :
    (catalog.enroll template).templates = catalog.templates ++ [template] := by
  obtain ⟨next, hnext, htemplates⟩ := register_of_notMem h
  rw [enroll, hnext]
  exact htemplates

/-! ## Runs of registrations -/

theorem registerAll_append (catalog : Catalog) (templates more : List Template) :
    catalog.registerAll (templates ++ more) = (catalog.registerAll templates).registerAll more :=
  List.foldl_append

/-- A run of registrations only extends the templates, by some of those registered. -/
theorem exists_templates_registerAll (catalog : Catalog) (templates : List Template) :
    ∃ accepted, accepted.Sublist templates ∧
      (catalog.registerAll templates).templates = catalog.templates ++ accepted := by
  induction templates generalizing catalog with
  | nil => exact ⟨[], .slnil, (List.append_nil _).symm⟩
  | cons template templates ih =>
    obtain ⟨accepted, haccepted, htemplates⟩ := ih (catalog.enroll template)
    by_cases h : template.entry.patternId ∈ catalog.names
    · rw [enroll_of_mem h] at htemplates
      refine ⟨accepted, haccepted.cons _, ?_⟩
      rw [← htemplates, registerAll, List.foldl_cons, enroll_of_mem h]
      rfl
    · rw [templates_enroll_of_notMem h, List.append_assoc] at htemplates
      exact ⟨template :: accepted, haccepted.cons_cons _, htemplates⟩

/-- **Lookup by name** behind a run finds the first template of the name, whether it was there
before or came in the run. -/
theorem find?_registerAll (catalog : Catalog) (templates : List Template) (patternId : String) :
    (catalog.registerAll templates).find? patternId =
      (catalog.templates ++ templates).find? (·.entry.patternId = patternId) := by
  induction templates generalizing catalog with
  | nil =>
    rw [List.append_nil]
    rfl
  | cons template templates ih =>
    refine (ih (catalog.enroll template)).trans ?_
    by_cases h : template.entry.patternId ∈ catalog.names
    · rw [enroll_of_mem h, List.find?_append, List.find?_append, List.find?_cons]
      by_cases hname : template.entry.patternId = patternId
      · -- the template that has the name stands before
        obtain ⟨found, hmem, hfound⟩ := mem_names.mp h
        have hfind : catalog.templates.find? (·.entry.patternId = patternId) = some found :=
          find?_eq_some_iff.mpr ⟨hmem, hfound.trans hname⟩
        rw [hfind]
        rfl
      · simp only [hname, decide_false]
    · rw [templates_enroll_of_notMem h, List.append_assoc]
      rfl

theorem mem_names_registerAll (catalog : Catalog) (templates : List Template) :
    patternId ∈ (catalog.registerAll templates).names ↔
      patternId ∈ catalog.names ∨ patternId ∈ templates.map (·.entry.patternId) := by
  have hnames : patternId ∉ (catalog.registerAll templates).names ↔
      patternId ∉ (catalog.templates ++ templates).map (·.entry.patternId) := by
    rw [names, ← find?_eq_none_iff, find?_registerAll]
    simp
  rw [not_iff_not.mp hnames, List.map_append, List.mem_append]
  rfl

/-- **Lookup by intent** finds for ever what it has found. -/
theorem forIntent?_registerAll {intent : Intent} (h : catalog.forIntent? intent = some template)
    (templates : List Template) :
    (catalog.registerAll templates).forIntent? intent = some template := by
  obtain ⟨accepted, -, htemplates⟩ := exists_templates_registerAll catalog templates
  rw [forIntent?] at h ⊢
  rw [htemplates, List.find?_append, h]
  rfl

theorem find?_registerAll_of_some (h : catalog.find? patternId = some template)
    (templates : List Template) :
    (catalog.registerAll templates).find? patternId = some template := by
  rw [find?] at h
  rw [find?_registerAll, List.find?_append, h]
  rfl

/-- The built-in template of an archetype is the one found for it and under its name. -/
theorem exists_builtin {archetype : Intent} (h : archetype ∈ Intent.archetypes) :
    ∃ template ∈ Template.builtins, builtins.forIntent? archetype = some template ∧
      builtins.find? ("move." ++ archetype.label) = some template := by
  simp only [Intent.archetypes, List.mem_cons, List.not_mem_nil, or_false] at h
  rcases h with rfl | rfl | rfl | rfl
  · exact ⟨Template.token, by simp [Template.builtins], rfl, rfl⟩
  · exact ⟨Template.nft, by simp [Template.builtins], rfl, rfl⟩
  · exact ⟨Template.marketplace, by simp [Template.builtins], rfl, rfl⟩
  · exact ⟨Template.module, by simp [Template.builtins], rfl, rfl⟩

/-- **Registrations extend a catalog.** Behind any run of registrations, whatever was registered and
whichever of them were refused:
* the names are those of before and of the run, and no two templates have one name;
* one more template is refused where its name is taken, which changes nothing, and goes to the end
  otherwise;
* a name that is registered leads to the one template of that name, which is the first that came
  with it, and any other name is refused;
* the template found for an intent stays the same;
* the built-in templates serve the archetypes, and their names lead to them. -/
theorem registerAll_extends (start : Catalog) (templates : List Template) :
    let catalog := start.registerAll templates
    catalog.names.Nodup ∧
      (∀ patternId, patternId ∈ catalog.names ↔
        patternId ∈ start.names ∨ patternId ∈ templates.map (·.entry.patternId)) ∧
      (∀ template, template.entry.patternId ∈ catalog.names →
        catalog.register template = .error (.duplicatePattern template.entry.patternId) ∧
          start.registerAll (templates ++ [template]) = catalog) ∧
      (∀ template, template.entry.patternId ∉ catalog.names →
        ∃ next, catalog.register template = .ok next ∧
          next.templates = catalog.templates ++ [template] ∧
          start.registerAll (templates ++ [template]) = next) ∧
      (∀ patternId, patternId ∈ catalog.names →
        ∃ template, (∀ other, other ∈ catalog.templates ∧ other.entry.patternId = patternId ↔
            other = template) ∧
          (start.templates ++ templates).find? (·.entry.patternId = patternId) = some template ∧
          catalog.find? patternId = some template ∧
          ∀ params, catalog.generatePattern patternId params = .ok (template.generate params)) ∧
      (∀ patternId, patternId ∉ catalog.names →
        catalog.find? patternId = none ∧
          ∀ params, catalog.generatePattern patternId params =
            .error (.unknownPattern patternId)) ∧
      (∀ intent template, catalog.forIntent? intent = some template →
        ∀ more, (start.registerAll (templates ++ more)).forIntent? intent = some template) ∧
      ∀ archetype ∈ Intent.archetypes, ∃ template ∈ Template.builtins,
        template.entry.intent = archetype ∧
          template.entry.patternId = "move." ++ archetype.label ∧
          ∀ params,
            (builtins.registerAll templates).generate archetype params =
                template.generate params ∧
              (builtins.registerAll templates).generatePattern ("move." ++ archetype.label) params =
                .ok (template.generate params) := by
  intro catalog
  refine ⟨catalog.nodup, fun patternId => mem_names_registerAll start templates,
    fun template h => ⟨register_of_mem h, ?_⟩, fun template h => ?_, fun patternId h => ?_,
    fun patternId h => ?_, fun intent template h more => ?_, fun archetype h => ?_⟩
  · rw [registerAll_append]
    exact enroll_of_mem h
  · obtain ⟨next, hnext, htemplates⟩ := register_of_notMem h
    refine ⟨next, hnext, htemplates, ?_⟩
    rw [registerAll_append]
    change catalog.enroll template = next
    rw [enroll, hnext]
  · obtain ⟨template, hmem, hname⟩ := mem_names.mp h
    have hfind : catalog.find? patternId = some template := find?_eq_some_iff.mpr ⟨hmem, hname⟩
    refine ⟨template, fun other => ?_, ?_, hfind, fun params => ?_⟩
    · rw [← find?_eq_some_iff, hfind, Option.some.injEq]
      exact eq_comm
    · rw [← find?_registerAll]
      exact hfind
    · rw [generatePattern, hfind]
  · have hfind : catalog.find? patternId = none := find?_eq_none_iff.mpr h
    refine ⟨hfind, fun params => ?_⟩
    rw [generatePattern, hfind]
  · rw [registerAll_append]
    exact forIntent?_registerAll h more
  · obtain ⟨template, hmem, hintent, hname⟩ := exists_builtin h
    refine ⟨template, hmem, ?_, (find?_eq_some_iff.mp hname).2, fun params => ⟨?_, ?_⟩⟩
    · simpa using List.find?_some hintent
    · rw [generate, forIntent?_registerAll hintent]
    · rw [generatePattern, find?_registerAll_of_some hname]

end Catalog

/-! ## The catalog of a desk -/

namespace Desk

/-- The template that a request registers. -/
def Request.template? : Request → Option Template
  | .register template => some template
  | _ => none

theorem catalog_answer (desk : Desk) (request : Request) :
    (desk.answer request).1.catalog = desk.catalog.registerAll request.template?.toList := by
  cases request with
  | register template =>
    change _ = desk.catalog.enroll template
    simp only [answer, Catalog.enroll]
    cases desk.catalog.register template <;> rfl
  | generatePattern patternId params =>
    simp only [answer]
    cases desk.catalog.generatePattern patternId params <;> rfl
  | _ => rfl

/-- **Only registrations change the catalog** of a desk, whatever is requested of it. -/
theorem catalog_answerAll (desk : Desk) (requests : List Request) :
    (desk.answerAll requests).1.catalog =
      desk.catalog.registerAll (requests.filterMap (·.template?)) := by
  induction requests generalizing desk with
  | nil => rfl
  | cons request rest ih =>
    refine (ih (desk.answer request).1).trans ?_
    rw [catalog_answer, ← Catalog.registerAll_append, List.filterMap_cons]
    cases request.template? <;> rfl

/-! ## Instructions that ask for nothing known -/

variable {instruction : String}

/-- An instruction without any of the keywords asks for nothing known. -/
theorem classify_of_no_keyword
    (h : ∀ keyword ∈ intentRules.flatMap (·.keywords),
      ¬keyword.toList <:+: Text.lower instruction.toList) :
    classify instruction = .unrecognized := by
  have hnone : intentRules.find? (·.appliesTo (Text.lower instruction.toList)) = none := by
    rw [List.find?_eq_none]
    intro rule hrule happlies
    obtain ⟨keyword, hkeyword, hoccurs⟩ := List.any_eq_true.mp happlies
    exact h keyword (List.mem_flatMap.mpr ⟨rule, hrule, hkeyword⟩) (Text.occursIn_iff.mp hoccurs)
  rw [classify, MoveDesk.classify, hnone]

/-- No built-in template serves instructions that ask for nothing known. -/
theorem mem_of_forIntent?_unrecognized {templates : List Template} {template : Template}
    (h : (Catalog.builtins.registerAll templates).forIntent? .unrecognized = some template) :
    template ∈ templates := by
  obtain ⟨accepted, haccepted, htemplates⟩ :=
    Catalog.exists_templates_registerAll Catalog.builtins templates
  have hbuiltins : Catalog.builtins.templates.find? (·.entry.intent = .unrecognized) = none := rfl
  rw [Catalog.forIntent?, htemplates, List.find?_append, hbuiltins] at h
  exact haccepted.subset (List.mem_of_find?_eq_some h)

/-- **An instruction that asks for nothing known** is answered by the template that serves such
instructions, which is one of those registered in addition to the built-in ones. If none of them
does, the answer is the fallback message, whatever the parameters. -/
theorem generate_of_no_keyword (templates : List Template) (context : Context)
    (instruction : String) (params : Parameters)
    (h : ∀ keyword ∈ ["token", "coin", "nft", "marketplace", "module"],
      ¬keyword.toList <:+: Text.lower instruction.toList) :
    let desk : Desk := { catalog := Catalog.builtins.registerAll templates, context }
    (∀ template, desk.catalog.forIntent? .unrecognized = some template →
        template ∈ templates ∧ desk.generate instruction params = template.generate params) ∧
      ((∀ template ∈ desk.catalog.templates, template.entry.intent ≠ .unrecognized) →
        desk.generate instruction params = Catalog.fallbackMessage) := by
  intro desk
  have hclassify : classify instruction = .unrecognized := classify_of_no_keyword h
  refine ⟨fun template htemplate => ⟨mem_of_forIntent?_unrecognized htemplate, ?_⟩, fun hnone => ?_⟩
  · rw [generate, hclassify, Catalog.generate, htemplate]
  · have hfor : desk.catalog.forIntent? .unrecognized = none :=
      List.find?_eq_none.mpr fun template hmem => by simpa using hnone template hmem
    rw [generate, hclassify, Catalog.generate, hfor]

/-- A template for one more kind of module does not stand in for the fallback message. -/
theorem generate_of_no_keyword_escrow :
    let escrow := Template.ofBody "move.escrow" .module "Escrow" [] "module 0x1::Escrow \x7b\x7d"
    let desk : Desk := { catalog := Catalog.builtins.registerAll [escrow], context := ∅ }
    desk.generate "create a dao" ∅ = Catalog.fallbackMessage := by
  intro escrow desk
  obtain ⟨-, hfallback⟩ := generate_of_no_keyword [escrow] ∅ "create a dao" ∅ (by decide +kernel)
  exact hfallback (by decide +kernel)

/-- **Not every instruction that asks for nothing known gets the fallback message**: a template that
is registered for such instructions answers in its place. -/
theorem generate_of_no_keyword_own_fallback :
    ¬∀ (templates : List Template) (context : Context) (instruction : String) (params : Parameters),
      (∀ keyword ∈ ["token", "coin", "nft", "marketplace", "module"],
        ¬keyword.toList <:+: Text.lower instruction.toList) →
      ({ catalog := Catalog.builtins.registerAll templates, context } : Desk).generate
        instruction params = Catalog.fallbackMessage := by
  intro h
  have hown := h [Template.ofBody "fallback" .unrecognized "d" [] "own fallback"] ∅ "hello" ∅
    (by decide +kernel)
  revert hown
  decide +kernel

end Desk

end MoveDesk
