import Mathlib.Algebra.GroupWithZero.Nat
import Mathlib.Data.List.Perm.Basic
import MoveDesk.Command
import MoveDesk.Proofs.Displays
import MoveDesk.Proofs.Json.Roundtrip

/-!
# Files that are taken into one context

A command takes files into the context of its desk, one after the other, and stops at the first that
cannot be read. What a file adds depends on the files before it: a name counts for the file that
declares it first. What all of them add together does not, and neither do the names that the context
holds in the end.

`analyzeAll_append` says what files that can be read do to the desk and to the answer, whatever
paths stand behind them. The answer for a whole list of paths, and the failure at one of them, are
its two ends.

Headlines:
* **`names_extractAll_perm`**: the order of the sources shows in the order of the names only.
* **`Report.isWritten_analysis`**: what is written for files, in each format.
* **`analyze_files`**: what the command answers, what it leaves, and what the order of the paths
  changes.
-/

namespace MoveDesk

/-! ## What sources add -/

/-- All growths together. -/
def Growth.sum (growths : List Growth) : Growth := growths.foldl (· + ·) {}

theorem Growth.count_foldl_add (kind : Kind) (growths : List Growth) (start : Growth) :
    (growths.foldl (· + ·) start).count kind =
      start.count kind + (growths.map (·.count kind)).sum := by
  induction growths generalizing start with
  | nil => rfl
  | cons growth growths ih =>
    rw [List.foldl_cons, ih, count_add, List.map_cons, List.sum_cons, Nat.add_assoc]

theorem Growth.count_sum (growths : List Growth) (kind : Kind) :
    (sum growths).count kind = (growths.map (·.count kind)).sum := by
  have hempty : ({} : Growth).count kind = 0 := by cases kind <;> rfl
  rw [sum, count_foldl_add, hempty, Nat.zero_add]

namespace Context

/-- How many names each of the sources adds, if they are extracted in turn. -/
def growths (ctx : Context) : List String → List Growth
  | [] => []
  | source :: sources => (ctx.extract source).2 :: (ctx.extract source).1.growths sources

theorem length_growths (ctx : Context) (sources : List String) :
    (ctx.growths sources).length = sources.length := by
  induction sources generalizing ctx with
  | nil => rfl
  | cons source sources ih => rw [growths, List.length_cons, ih, List.length_cons]

/-- **What the sources add together is what the lists grow by.** -/
theorem length_extractAll (ctx : Context) (sources : List String) (kind : Kind) :
    ((ctx.extractAll sources).names kind).length =
      (ctx.names kind).length + (Growth.sum (ctx.growths sources)).count kind := by
  rw [Growth.count_sum]
  induction sources generalizing ctx with
  | nil => rfl
  | cons source sources ih =>
    rw [extractAll_cons, ih, length_extract, growths, List.map_cons, List.sum_cons, Nat.add_assoc]

variable {sources others : List String}

/-- **Other orders of the sources** leave the same names. -/
theorem names_extractAll_perm (h : others.Perm sources) (ctx : Context) (kind : Kind) :
    ((ctx.extractAll others).names kind).Perm ((ctx.extractAll sources).names kind) := by
  have hscan := h.flatMap_right kind.scan
  rw [names_extractAll_eq_append, names_extractAll_eq_append]
  refine List.Perm.append_left _ ?_
  refine (List.perm_ext_iff_of_nodup (nodup_eraseDups _) (nodup_eraseDups _)).mpr fun name => ?_
  rw [← NameList.fresh, ← NameList.fresh, NameList.mem_fresh, NameList.mem_fresh, hscan.mem_iff]

/-- Other orders of the sources add the same together. -/
theorem sum_growths_perm (h : others.Perm sources) (ctx : Context) :
    Growth.sum (ctx.growths others) = Growth.sum (ctx.growths sources) := by
  refine Growth.ext_count fun kind => ?_
  have hlength := (names_extractAll_perm h ctx kind).length_eq
  rw [length_extractAll, length_extractAll] at hlength
  omega

end Context

/-! ## Reading files in turn -/

/-- A path that does not stand for the input is read as a file, and what can be read stays. -/
theorem Sources.read_of_not_isInput {path : String} (h : isInput path = false)
    (sources : Sources) : sources.read path = (sources, sources.access.readText path) := by
  rw [read, h, if_neg Bool.false_ne_true]

/-- Reading the path gives the text, and what can be read stays. -/
def Sources.Offers (sources : Sources) (path text : String) : Prop :=
  sources.read path = (sources, .ok text)

theorem Sources.forall₂_offers {sources : Sources} {paths texts : List String}
    (hpaths : ∀ path ∈ paths, isInput path = false)
    (h : List.Forall₂ (fun path text => sources.access.readText path = .ok text) paths texts) :
    List.Forall₂ sources.Offers paths texts := by
  refine ((List.forall₂_and_left paths texts).mpr ⟨hpaths, h⟩).imp ?_
  rintro path text ⟨hpath, htext⟩
  rw [Offers, read_of_not_isInput hpath, htext]

namespace Desk

variable {sources : Sources} {paths texts : List String} {desk last : Desk}

/-- **Files that can be read** are taken in, whatever paths stand behind them. -/
theorem analyzeAll_append (h : List.Forall₂ sources.Offers paths texts) {rest : List String}
    {answer : Except FileError (List (String × Growth))}
    (hrest : (desk.analyzeEach texts).analyzeAll sources rest = (last, answer)) :
    desk.analyzeAll sources (paths ++ rest) =
      (last, answer.map (paths.zip (desk.context.growths texts) ++ ·)) := by
  induction h generalizing desk with
  | nil =>
    have hsame : answer.map ([] ++ ·) = answer := by cases answer <;> rfl
    rw [List.zip_nil_left, hsame]
    exact hrest
  | @cons path text paths texts hfirst _ ih =>
    rw [List.cons_append, analyzeAll, hfirst]
    simp only [ih hrest]
    cases answer <;> rfl

theorem analyzeAll_of_offers (h : List.Forall₂ sources.Offers paths texts) (desk : Desk) :
    desk.analyzeAll sources paths =
      (desk.analyzeEach texts, .ok (paths.zip (desk.context.growths texts))) := by
  have hend : (desk.analyzeEach texts).analyzeAll sources [] = (desk.analyzeEach texts, .ok []) :=
    rfl
  have hall := analyzeAll_append h hend
  rw [List.append_nil] at hall
  rw [hall, Except.map, List.append_nil]

/-- The first file that cannot be read ends it. -/
theorem analyzeAll_of_error (h : List.Forall₂ sources.Offers paths texts) (desk : Desk)
    {path : String} {error : FileError} {next : Sources}
    (hpath : sources.read path = (next, .error error)) (rest : List String) :
    desk.analyzeAll sources (paths ++ path :: rest) = (desk.analyzeEach texts, .error error) := by
  have hend : (desk.analyzeEach texts).analyzeAll sources (path :: rest) =
      (desk.analyzeEach texts, .error error) := by
    rw [analyzeAll, hpath]
  exact analyzeAll_append h hend

end Desk

/-! ## The command -/

/-- What is told about files. -/
structure Tally where
  /-- What each path added, in order. -/
  added : List (String × Growth)
  /-- What all of them added. -/
  total : Growth
  /-- The context behind them. -/
  context : Context

namespace Tally

/-- The tally as text: a line for each path, one for the total, and the context. -/
def shown (tally : Tally) (colors : Bool) : String :=
  String.join (tally.added.map fun (path, growth) => path ++ ": " ++ growth.shown ++ "\n") ++
    "total: " ++ tally.total.shown ++ "\n\n" ++ tally.context.shown colors

/-- The tally as data. -/
def told (tally : Tally) : Json :=
  .object
    [("files", .array (tally.added.map fun (path, growth) =>
        .object [("path", .text path), ("added", growth.told)])),
      ("total", tally.total.told), ("context", tally.context.told)]

/-- The counts of the tally have the width that counts are kept with. -/
def Fits (tally : Tally) : Prop :=
  ∀ growth ∈ tally.total :: tally.added.map (·.2), ∀ kind, growth.count kind < UInt64.size

/-- The text tells the tally in the format. The two data formats write the same data, and the JSON
is read back as them. -/
def IsWritten (tally : Tally) (colors : Bool) (text : String) : Format → Prop
  | .text => text = tally.shown colors
  | .json => text = tally.told.pretty ++ "\n" ∧
      (tally.Fits → Json.parse? (Text.encode text) = some tally.told)
  | .yaml => text = Yaml.document tally.told

end Tally

theorem Growth.isExact_told {growth : Growth} (h : ∀ kind, growth.count kind < UInt64.size) :
    growth.told.isExact = true := by
  have hcount : ∀ kind, Json.isExact (.int (growth.count kind)) = true := fun kind =>
    Json.isExact_nat (h kind)
  rw [told, Json.isExact]
  simp only [Json.haveExact, hcount, Bool.and_self]

theorem Context.isExact_told (ctx : Context) : ctx.told.isExact = true := by
  simp [told, Json.isExact, Json.haveExact, Json.areExact_texts]

theorem Tally.isExact_told {tally : Tally} (h : tally.Fits) : tally.told.isExact = true := by
  have hfiles : ∀ added : List (String × Growth),
      (∀ growth ∈ added.map (·.2), ∀ kind, growth.count kind < UInt64.size) →
        Json.areExact (added.map fun (path, growth) =>
          .object [("path", .text path), ("added", growth.told)]) = true := by
    intro added hadded
    induction added with
    | nil => rfl
    | cons first added ih =>
      obtain ⟨hfirst, hadded⟩ := List.forall_mem_cons.mp hadded
      simp [Json.areExact, Json.isExact, Json.haveExact, Growth.isExact_told hfirst, ih hadded]
  obtain ⟨htotal, hadded⟩ := List.forall_mem_cons.mp h
  simp [told, Json.isExact, Json.haveExact, hfiles tally.added hadded,
    Growth.isExact_told htotal, tally.context.isExact_told]

/-- **What is written** for files tells what each of them added, and the sum of it. -/
theorem Report.isWritten_analysis (added : List (String × Growth)) (context : Context)
    (format : Format) (colors : Bool) :
    (⟨added, Growth.sum (added.map (·.2)), context⟩ : Tally).IsWritten colors
      ((analysis added context).write format colors) format := by
  cases format with
  | text =>
    change asLines (added.map fun (path, growth) => path ++ ": " ++ growth.text) ++
      "total: " ++ (Growth.sum (added.map (·.2))).text ++ "\n\n" ++
        context.snapshot.describe colors = _
    rw [Growth.text_eq_shown, Context.describe_snapshot, asLines, List.map_map]
    simp only [Growth.text_eq_shown]
    rfl
  | json => exact ⟨rfl, fun h => parse?_write_json (Tally.isExact_told h) colors⟩
  | yaml => rfl

namespace Transcript

theorem delivered_single (text : String) (context : Context) :
    (single text context).delivered = ⟨Text.encode text, context, none⟩ := by
  simp [single, delivered, Transcript.text]

theorem delivered_broken (error : CommandError) (context : Context) :
    (broken error context).delivered = ⟨[], context, some error⟩ := rfl

end Transcript

namespace Bench

variable {bench : Bench} {paths texts : List String}

/-- What is delivered for files that can be read. -/
theorem exists_delivered_analyze (h : List.Forall₂ bench.sources.Offers paths texts) :
    ∃ text, (bench.analyze paths).delivered =
        ⟨Text.encode text, bench.desk.context.extractAll texts, none⟩ ∧
      (⟨paths.zip (bench.desk.context.growths texts), Growth.sum (bench.desk.context.growths texts),
        bench.desk.context.extractAll texts⟩ : Tally).IsWritten bench.colors text bench.format := by
  have hlength : (bench.desk.context.growths texts).length ≤ paths.length := by
    rw [Context.length_growths]
    exact Nat.le_of_eq h.length_eq.symm
  have hwritten := Report.isWritten_analysis (paths.zip (bench.desk.context.growths texts))
    (bench.desk.context.extractAll texts) bench.format bench.colors
  rw [List.map_snd_zip hlength] at hwritten
  refine ⟨_, ?_, hwritten⟩
  rw [analyze, Desk.analyzeAll_of_offers h]
  simp only [present, Transcript.delivered_single, Desk.analyzeEach_eq]

/-- What is delivered where the first path behind them cannot be read. -/
theorem delivered_analyze_of_error (h : List.Forall₂ bench.sources.Offers paths texts)
    {path : String} {error : FileError} {next : Sources}
    (hpath : bench.sources.read path = (next, .error error)) (rest : List String) :
    (bench.analyze (paths ++ path :: rest)).delivered =
      ⟨[], bench.desk.context.extractAll texts, some (.system error.message)⟩ := by
  rw [analyze, Desk.analyzeAll_of_error h bench.desk hpath rest]
  simp only [Transcript.delivered_broken, Desk.analyzeEach_eq]

end Bench

/-- **Files in one context.** Let none of the paths stand for the input. Then:
* if all of them can be read, the command succeeds. It writes, in its format, what each path added,
  in order, a total, and the context, and it leaves what extracting the texts in turn leaves. The
  total is the sum of what the paths added, and what the lists grew by. Any other order of the paths
  has the same total, and the names in the end are the same in another order;
* at the first path that cannot be read, the command fails for this reason. Nothing is written, and
  the context is the one that the texts before it left. -/
theorem analyze_files (bench : Bench) (paths : List String)
    (hpaths : ∀ path ∈ paths, Sources.isInput path = false) :
    let reads := List.Forall₂ fun path text => bench.sources.access.readText path = .ok text
    let start := bench.desk.context
    let delivered := fun paths => (Command.run bench (.analyze paths)).delivered
    let answers := fun paths texts total => ∃ text,
      delivered paths = ⟨Text.encode text, start.extractAll texts, none⟩ ∧
        (⟨paths.zip (start.growths texts), total, start.extractAll texts⟩ : Tally).IsWritten
          bench.colors text bench.format
    (∀ texts, reads paths texts → ∃ total,
      answers paths texts total ∧
        (start.growths texts).length = paths.length ∧
        (∀ kind, total.count kind = ((start.growths texts).map (·.count kind)).sum) ∧
        (∀ kind, ((start.extractAll texts).names kind).length =
          (start.names kind).length + total.count kind) ∧
        ∀ others, others.Perm paths → ∃ contents, contents.Perm texts ∧ reads others contents ∧
          answers others contents total ∧
          ∀ kind, ((start.extractAll contents).names kind).Perm
            ((start.extractAll texts).names kind)) ∧
      ∀ before path after texts error, paths = before ++ path :: after → reads before texts →
        bench.sources.access.readText path = .error error →
        delivered paths = ⟨[], start.extractAll texts, some (.system error.message)⟩ := by
  intro reads start delivered answers
  -- What is delivered in another order is what is delivered in that order.
  have hread : ∀ others texts, others.Perm paths → reads others texts →
      answers others texts (Growth.sum (start.growths texts)) := by
    intro others texts hperm htexts
    have hothers : ∀ path ∈ others, Sources.isInput path = false := fun path hpath =>
      hpaths path (hperm.mem_iff.mp hpath)
    exact Bench.exists_delivered_analyze (Sources.forall₂_offers hothers htexts)
  constructor
  · intro texts htexts
    refine ⟨Growth.sum (start.growths texts), hread paths texts (List.Perm.refl _) htexts, ?_,
      Growth.count_sum _, Context.length_extractAll start texts, ?_⟩
    · rw [Context.length_growths, htexts.length_eq]
    · intro others hperm
      obtain ⟨contents, hcontents, hsame⟩ := List.perm_comp_forall₂ hperm htexts
      refine ⟨contents, hsame, hcontents, ?_, Context.names_extractAll_perm hsame start⟩
      rw [← Context.sum_growths_perm hsame]
      exact hread others contents hperm hcontents
  · rintro before path after texts error rfl htexts herror
    have hbefore : ∀ path ∈ before, Sources.isInput path = false := fun path hpath =>
      hpaths path (List.mem_append_left _ hpath)
    have hpath : Sources.isInput path = false :=
      hpaths path (List.mem_append_right _ List.mem_cons_self)
    have hnext : bench.sources.read path = (bench.sources, .error error) := by
      rw [Sources.read_of_not_isInput hpath, herror]
    exact Bench.delivered_analyze_of_error (Sources.forall₂_offers hbefore htexts) hnext after

/-- A struct that two files declare is held once and counts for the first of them, and a missing
file between them ends the command behind the first. -/
theorem analyze_files_shared_struct :
    let access : FileAccess := fun path =>
      if path = "a.move" then .ok (Text.encode "struct P {}")
      else if path = "b.move" then .ok (Text.encode "struct Q {} struct P {}")
      else .error .notFound
    let delivered (format : Format) (paths : List String) :=
      (Command.run { sources := { access }, format } (.analyze paths)).delivered
    let added (structs : Int) := Json.object [("modules_added", .int 0),
      ("structs_added", .int structs), ("functions_added", .int 0)]
    (∀ path ∈ ["a.move", "c.move", "b.move"], Sources.isInput path = false) ∧
      delivered .text ["a.move", "b.move"] =
        { written := Text.encode ("a.move: +0 modules, +1 structs, +0 functions\n" ++
            "b.move: +0 modules, +1 structs, +0 functions\n" ++
            "total: +0 modules, +2 structs, +0 functions\n\n" ++
            "Modules (0)\nStructs (2)\n  P\n  Q\nFunctions (0)\n")
          context := .ofInserts [(.structs, "P"), (.structs, "Q")]
          failure := none } ∧
      Json.parse? (delivered .json ["b.move", "a.move"]).written = some (.object
        [("files", .array [.object [("path", .text "b.move"), ("added", added 2)],
            .object [("path", .text "a.move"), ("added", added 0)]]),
          ("total", added 2),
          ("context", .object [("modules", .array []),
            ("structs", .array [.text "Q", .text "P"]), ("functions", .array [])])]) ∧
      (delivered .yaml ["b.move"]).written = Text.encode (
        "files:\n- path: b.move\n  added:\n" ++
          "    modules_added: 0\n    structs_added: 2\n    functions_added: 0\n" ++
        "total:\n  modules_added: 0\n  structs_added: 2\n  functions_added: 0\n" ++
        "context:\n  modules: []\n  structs:\n  - Q\n  - P\n  functions: []\n") ∧
      delivered .text ["a.move", "c.move", "b.move"] =
        { written := []
          context := .ofInserts [(.structs, "P")]
          failure := some (.system "No such file or directory (os error 2)") } := by
  intro access delivered added
  have hpaths : ∀ path ∈ ["a.move", "c.move", "b.move"], Sources.isInput path = false := by
    decide +kernel
  have hfirst : access.readText "a.move" = .ok "struct P {}" :=
    Text.asText_encode "struct P {}"
  have hlast : access.readText "b.move" = .ok "struct Q {} struct P {}" :=
    Text.asText_encode "struct Q {} struct P {}"
  have hmissing : access.readText "c.move" = .error .notFound := rfl
  have htotal : ∀ {texts : List String} {total : Growth},
      (∀ kind, total.count kind = ((Context.growths ∅ texts).map (·.count kind)).sum) →
        total = Growth.sum (Context.growths ∅ texts) := fun h =>
    Growth.ext_count fun kind => (h kind).trans (Growth.count_sum _ kind).symm
  refine ⟨hpaths, ?_, ?_, ?_, ?_⟩
  · obtain ⟨total, ⟨text, hdelivered, htext⟩, -, hsum, -, -⟩ :=
      (analyze_files { sources := { access } } ["a.move", "b.move"] (by decide +kernel)).1 _
        (.cons hfirst (.cons hlast .nil))
    obtain rfl := htotal hsum
    refine hdelivered.trans ?_
    rw [show text = _ from htext]
    decide +kernel
  · obtain ⟨total, ⟨text, hdelivered, -, hread⟩, -, hsum, -, -⟩ :=
      (analyze_files { sources := { access }, format := .json } ["b.move", "a.move"]
        (by decide +kernel)).1 _ (.cons hlast (.cons hfirst .nil))
    obtain rfl := htotal hsum
    have hgrowths : Context.growths ∅ ["struct Q {} struct P {}", "struct P {}"] =
        [⟨0, 2, 0⟩, ⟨0, 0, 0⟩] := by
      decide +kernel
    have hcontext : Context.extractAll ∅ ["struct Q {} struct P {}", "struct P {}"] =
        .ofInserts [(.structs, "Q"), (.structs, "P")] := by
      decide +kernel
    simp only [hgrowths, hcontext] at hread
    have hcounts : ∀ growth ∈ [Growth.sum [⟨0, 2, 0⟩, ⟨0, 0, 0⟩], ⟨0, 2, 0⟩, ⟨0, 0, 0⟩],
        ∀ kind ∈ Kind.all, growth.count kind < UInt64.size := by
      decide
    refine (congrArg (Json.parse? ·.written) hdelivered).trans
      (hread fun growth hgrowth kind => hcounts growth hgrowth kind ?_)
    cases kind <;> decide
  · obtain ⟨total, ⟨text, hdelivered, htext⟩, -, hsum, -, -⟩ :=
      (analyze_files { sources := { access }, format := .yaml } ["b.move"]
        (by decide +kernel)).1 _ (.cons hlast .nil)
    obtain rfl := htotal hsum
    refine (congrArg (·.written) hdelivered).trans ?_
    rw [show text = _ from htext]
    decide +kernel
  · refine ((analyze_files { sources := { access } } _ hpaths).2 ["a.move"] "c.move" ["b.move"] _ _
      rfl (.cons hfirst .nil) hmissing).trans ?_
    decide +kernel

end MoveDesk
