import MoveDesk.Desk
import MoveDesk.Proofs.FirstSeen

/-!
# What runs of analyses leave in a context

The three lists of a context are handled alike, so the laws are stated for a `Kind` of names.
`names_extract` and `count_extract` say all that one extraction does to a list and to its count:
the fresh names go to its end. The law of a whole run follows.

Headlines:
* **`names_extractAll`**: behind any run of extractions, a list holds the first appearances in what
  it held and all that the sources declare.
* **`analyzeEach_first_seen`**: the same for a desk, with what follows for every state that a run
  reaches.
-/

namespace MoveDesk

/-! ## Kinds of names -/

/-- A kind of names that a context holds. -/
inductive Kind where
  /-- Modules, under their addresses. -/
  | modules
  /-- Structs. -/
  | structs
  /-- Functions. -/
  | functions
deriving DecidableEq, Repr

namespace Kind

/-- What declares names of the kind. -/
def declarator : Kind → Declarator
  | modules => .module
  | structs => .struct
  | functions => .function

/-- The names of the kind that a source declares, in order of appearance and with repeats. -/
def scan (kind : Kind) (source : String) : List String := kind.declarator.scan source

end Kind

/-- The names of a kind in a snapshot. -/
def Snapshot.names (snapshot : Snapshot) : Kind → List String
  | .modules => snapshot.modules
  | .structs => snapshot.structs
  | .functions => snapshot.functions

/-- How many names of a kind were new. -/
def Growth.count (growth : Growth) : Kind → Nat
  | .modules => growth.modules
  | .structs => growth.structs
  | .functions => growth.functions

theorem Growth.ext_count {a b : Growth} (h : ∀ kind, a.count kind = b.count kind) : a = b := by
  obtain ⟨_, _, _⟩ := a
  obtain ⟨_, _, _⟩ := b
  have hm := h .modules
  have hs := h .structs
  have hf := h .functions
  simp only [count] at hm hs hf
  rw [hm, hs, hf]

@[simp] theorem Growth.count_add (a b : Growth) (kind : Kind) :
    (a + b).count kind = a.count kind + b.count kind := by
  cases kind <;> rfl

namespace Context

variable {ctx : Context}

/-- The names of a kind in a context, as a list that can be inserted into. -/
def list (ctx : Context) : Kind → NameList
  | .modules => ctx.modules
  | .structs => ctx.structs
  | .functions => ctx.functions

/-- The names of a kind in a context. -/
def names (ctx : Context) (kind : Kind) : List String := (ctx.list kind).names

@[simp] theorem names_snapshot (ctx : Context) (kind : Kind) :
    ctx.snapshot.names kind = ctx.names kind := by
  cases kind <;> rfl

theorem ext_names {a b : Context} (h : ∀ kind, a.names kind = b.names kind) : a = b := by
  obtain ⟨⟨_⟩, ⟨_⟩, ⟨_⟩⟩ := a
  obtain ⟨⟨_⟩, ⟨_⟩, ⟨_⟩⟩ := b
  have hm := h .modules
  have hs := h .structs
  have hf := h .functions
  simp only [names, list] at hm hs hf
  rw [hm, hs, hf]

/-! ## Contexts built by inserts -/

/-- No list holds a name twice. -/
def Distinct (ctx : Context) : Prop := ∀ kind, (ctx.names kind).Nodup

/-- The context with a name of a kind inserted. -/
def insert (ctx : Context) (kind : Kind) (name : String) : Context :=
  match kind with
  | .modules => { ctx with modules := ctx.modules.insert name }
  | .structs => { ctx with structs := ctx.structs.insert name }
  | .functions => { ctx with functions := ctx.functions.insert name }

/-- The context that inserts in turn leave, from the empty one on. -/
def ofInserts (inserts : List (Kind × String)) : Context :=
  inserts.foldl (fun ctx entry => ctx.insert entry.1 entry.2) ∅

/-- An insertion changes the list of its kind only. -/
theorem list_insert (ctx : Context) (kind other : Kind) (name : String) :
    (ctx.insert kind name).list other =
      if other = kind then (ctx.list other).insert name else ctx.list other := by
  cases kind <;> cases other <;> rfl

theorem distinct_empty : (∅ : Context).Distinct := by
  intro kind
  cases kind <;> exact List.nodup_nil

theorem distinct_insert (h : ctx.Distinct) (kind : Kind) (name : String) :
    (ctx.insert kind name).Distinct := by
  intro other
  unfold names
  rw [list_insert]
  split
  · exact NameList.nodup_insert (h other) name
  · exact h other

theorem distinct_ofInserts (inserts : List (Kind × String)) : (ofInserts inserts).Distinct := by
  suffices hfold : ∀ ctx : Context, ctx.Distinct →
      (inserts.foldl (fun ctx entry => ctx.insert entry.1 entry.2) ctx).Distinct from
    hfold ∅ distinct_empty
  induction inserts with
  | nil => exact fun _ h => h
  | cons entry inserts ih => exact fun ctx h => ih _ (distinct_insert h entry.1 entry.2)

/-! ## One extraction -/

/-- The names of a kind that a source would add to the context. -/
def fresh (ctx : Context) (kind : Kind) (source : String) : List String :=
  (ctx.list kind).fresh (kind.scan source)

theorem mem_fresh {kind : Kind} {source name : String} :
    name ∈ ctx.fresh kind source ↔ name ∈ kind.scan source ∧ name ∉ ctx.names kind :=
  NameList.mem_fresh

theorem names_extract (ctx : Context) (source : String) (kind : Kind) :
    (ctx.extract source).1.names kind = ctx.names kind ++ ctx.fresh kind source := by
  cases kind <;> simp only [names, list, extract, NameList.insertAll_eq] <;> rfl

theorem list_extract (ctx : Context) (source : String) (kind : Kind) :
    (ctx.extract source).1.list kind =
      { names := (ctx.list kind).names ++ (ctx.list kind).fresh (kind.scan source) } :=
  congrArg NameList.mk (names_extract ctx source kind)

theorem count_extract (ctx : Context) (source : String) (kind : Kind) :
    (ctx.extract source).2.count kind = (ctx.fresh kind source).length := by
  cases kind <;> simp only [Growth.count, extract, NameList.insertAll_eq] <;> rfl

/-- An extraction takes first appearances: what the list held, then what the source declares. -/
theorem names_extract_eq_eraseDups (h : ctx.Distinct) (source : String) (kind : Kind) :
    (ctx.extract source).1.names kind = (ctx.names kind ++ kind.scan source).eraseDups := by
  rw [names_extract]
  exact NameList.append_fresh_eq_eraseDups (h kind) _

theorem distinct_extract (h : ctx.Distinct) (source : String) :
    (ctx.extract source).1.Distinct := by
  intro kind
  rw [names_extract_eq_eraseDups h]
  exact nodup_eraseDups _

theorem prefix_extract (ctx : Context) (source : String) (kind : Kind) :
    ctx.names kind <+: (ctx.extract source).1.names kind := by
  rw [names_extract]
  exact List.prefix_append _ _

theorem length_extract (ctx : Context) (source : String) (kind : Kind) :
    ((ctx.extract source).1.names kind).length =
      (ctx.names kind).length + (ctx.extract source).2.count kind := by
  rw [names_extract, count_extract, List.length_append]

/-- Behind an extraction the list holds what it held and what the source declares. -/
theorem mem_extract {source name : String} {kind : Kind} :
    name ∈ (ctx.extract source).1.names kind ↔ name ∈ ctx.names kind ∨ name ∈ kind.scan source := by
  rw [names_extract, List.mem_append, mem_fresh]
  by_cases hname : name ∈ ctx.names kind <;> simp [hname]

/-- A source whose names are all there changes nothing, and nothing is counted. -/
theorem extract_eq_self {source : String}
    (h : ∀ kind, ∀ name ∈ kind.scan source, name ∈ ctx.names kind) :
    ctx.extract source = (ctx, {}) := by
  have hfresh : ∀ kind, ctx.fresh kind source = [] := fun kind =>
    List.eq_nil_iff_forall_not_mem.mpr fun name hname =>
      (mem_fresh.mp hname).2 (h kind name (mem_fresh.mp hname).1)
  refine Prod.ext (ext_names fun kind => ?_) (Growth.ext_count fun kind => ?_)
  · rw [names_extract, hfresh, List.append_nil]
  · rw [count_extract, hfresh]
    cases kind <;> rfl

/-! ## Runs of extractions -/

/-- The context behind the extraction of sources in turn. -/
def extractAll (ctx : Context) (sources : List String) : Context :=
  sources.foldl (fun ctx source => (ctx.extract source).1) ctx

theorem extractAll_cons (ctx : Context) (source : String) (sources : List String) :
    ctx.extractAll (source :: sources) = (ctx.extract source).1.extractAll sources := rfl

theorem distinct_extractAll : ∀ (sources : List String) {ctx : Context}, ctx.Distinct →
    (ctx.extractAll sources).Distinct
  | [], _, h => h
  | source :: sources, _, h => distinct_extractAll sources (distinct_extract h source)

/-- **The law of a run**: the names that the sources declare and that the list did not hold go to
its end, in their order. -/
theorem names_extractAll_eq_append (ctx : Context) (sources : List String) (kind : Kind) :
    (ctx.extractAll sources).names kind =
      ctx.names kind ++ (ctx.list kind).fresh (sources.flatMap kind.scan) := by
  induction sources generalizing ctx with
  | nil => exact (List.append_nil _).symm
  | cons source sources ih =>
    rw [extractAll_cons, ih, names_extract, list_extract, List.flatMap_cons, NameList.fresh_append,
      List.append_assoc]
    rfl

/-- Behind a run a list without repeats holds the first appearances in what it held and all that
the sources declare. -/
theorem names_extractAll (kind : Kind) (sources : List String) (h : ctx.Distinct) :
    (ctx.extractAll sources).names kind =
      (ctx.names kind ++ sources.flatMap kind.scan).eraseDups := by
  rw [names_extractAll_eq_append]
  exact NameList.append_fresh_eq_eraseDups (h kind) _

/-- Behind a run the list holds what it held and what any of the sources declares. -/
theorem mem_extractAll (h : ctx.Distinct) {sources : List String} {name : String} {kind : Kind} :
    name ∈ (ctx.extractAll sources).names kind ↔
      name ∈ ctx.names kind ∨ ∃ source ∈ sources, name ∈ kind.scan source := by
  rw [names_extractAll kind sources h, List.mem_eraseDups, List.mem_append, List.mem_flatMap]

end Context

/-! ## Runs of analyses -/

namespace Desk

/-- The desk behind the analysis of sources in turn. -/
def analyzeEach (desk : Desk) (sources : List String) : Desk :=
  sources.foldl (fun desk source => (desk.analyze source).1) desk

/-- A run of analyses is a run of extractions; the catalog stays as it is. -/
theorem analyzeEach_eq (desk : Desk) (sources : List String) :
    desk.analyzeEach sources = { desk with context := desk.context.extractAll sources } := by
  induction sources generalizing desk with
  | nil => rfl
  | cons source sources ih => exact ih _

/-- **What a run of analyses leaves.** From any context that inserts built, behind any run of
analyses:
* each list holds the first appearances in what it held and all that the sources declare;
* no list holds a name twice;
* one more analysis extends each list at its end, by as many names as it counts;
* analyzing once more any source of the run changes nothing and counts nothing. -/
theorem analyzeEach_first_seen (catalog : Catalog) (inserts : List (Kind × String))
    (sources : List String) :
    let start : Desk := { catalog, context := .ofInserts inserts }
    let desk := start.analyzeEach sources
    (∀ kind, desk.context.names kind =
        (start.context.names kind ++ sources.flatMap kind.scan).eraseDups) ∧
      (∀ kind, (desk.context.names kind).Nodup) ∧
      (∀ source kind,
        desk.context.names kind <+: (desk.analyze source).1.context.names kind ∧
          ((desk.analyze source).1.context.names kind).length =
            (desk.context.names kind).length + (desk.analyze source).2.count kind) ∧
      ∀ source ∈ sources, desk.analyze source = (desk, {}) := by
  intro start desk
  have hstart : start.context.Distinct := Context.distinct_ofInserts inserts
  have hdesk : desk.context = start.context.extractAll sources := by
    simp only [desk, analyzeEach_eq]
  refine ⟨fun kind => ?_, fun kind => ?_, fun source kind => ⟨?_, ?_⟩, fun source hsource => ?_⟩
  · rw [hdesk]
    exact Context.names_extractAll kind sources hstart
  · rw [hdesk]
    exact Context.distinct_extractAll sources hstart kind
  · exact Context.prefix_extract desk.context source kind
  · exact Context.length_extract desk.context source kind
  · have hknown : ∀ kind, ∀ name ∈ kind.scan source, name ∈ desk.context.names kind := by
      intro kind name hname
      rw [hdesk, Context.mem_extractAll hstart]
      exact Or.inr ⟨source, hsource, hname⟩
    unfold analyze
    rw [Context.extract_eq_self hknown]

/-- A struct that is known, declared among others and analyzed again, is held once and first. -/
theorem analyzeEach_first_seen_structs :
    let start : Desk := { catalog := .builtins, context := .ofInserts [(.structs, "A")] }
    let sources := ["struct B {} struct A {}", "struct C {} struct B {}"]
    let desk := start.analyzeEach sources
    "struct B {} struct A {}" ∈ sources ∧ desk.context.names .structs = ["A", "B", "C"] ∧
      desk.analyze "struct B {} struct A {}" = (desk, {}) := by
  intro start sources desk
  have hmem : "struct B {} struct A {}" ∈ sources := List.mem_cons_self
  obtain ⟨hnames, -, -, hagain⟩ := analyzeEach_first_seen .builtins [(.structs, "A")] sources
  refine ⟨hmem, (hnames .structs).trans ?_, hagain _ hmem⟩
  decide +kernel

end Desk

end MoveDesk
