import Mathlib.Data.List.TakeWhile
import MoveDesk.Proofs.Leaves
import MoveDesk.Proofs.Lines

/-!
# Loading settings one by one

The defaults, a file and the environment are written one over the other, and only what is left is
read. So each single setting is loaded as if it were the only one: the last of the layers that says
anything of it counts, and a value that another took the place of does no harm.

What the path of a file says is told by what there is to read (`FileSays`): a path that leads
nowhere, also not with the extension behind its last name, says nothing.

Headlines:
* **`FileSays.elim_fileLayer`**: what a path says is the layer of its file.
* **`at?_combine`**: what the three layers leave of a setting.
* **`load_one_by_one`**: settings are loaded one by one.
* **`load_of_other_variables`**: a variable that goes on below a setting, or has an index behind a
  group, makes a difference.
-/

namespace MoveDesk

open Setting (at? steps writeAt)

/-! ## Names in paths -/

theorem FileAccess.readText_eq_ok_iff {access : FileAccess} {path text : String} :
    access.readText path = .ok text ↔
      ∃ content, access path = .ok content ∧ asText content = .ok text := by
  rw [readText]
  cases access path with
  | error error => exact iff_of_false nofun nofun
  | ok content => simp [Except.bind]

namespace Files

theorem namesOf_append (front rest : String) :
    namesOf (front ++ "/" ++ rest) = namesOf front ++ namesOf rest := by
  have hslash : (front ++ "/" ++ rest).toList = front.toList ++ '/' :: rest.toList := by simp
  rw [namesOf, hslash, Text.split_append_cons, List.map_append]
  rfl

theorem namesOf_of_notMem {name : String} (h : '/' ∉ name.toList) : namesOf name = [name] := by
  rw [namesOf, Text.split_of_notMem h, List.map_singleton, String.ofList_toList]

theorem namesOf_intercalate {names : List String} (h : names ≠ []) :
    namesOf ("/".intercalate names) = names.flatMap namesOf := by
  induction names with
  | nil => exact absurd rfl h
  | cons name names ih =>
    rw [List.flatMap_cons]
    cases names with
    | nil => rw [String.intercalate_singleton, List.flatMap_nil, List.append_nil]
    | cons next names =>
      rw [String.intercalate_cons_cons, namesOf_append, ih (List.cons_ne_nil _ _)]

theorem namesOf_ne_nil (path : String) : namesOf path ≠ [] :=
  mt List.map_eq_nil_iff.mp (Text.split_ne_nil '/' path.toList)

theorem intercalate_namesOf (path : String) : "/".intercalate (namesOf path) = path :=
  Text.intercalate_pieces rfl path

/-- Cutting the names in front of a path into their own does not change it. -/
theorem intercalate_flatMap_namesOf (above : List String) {rest : List String} (h : rest ≠ []) :
    "/".intercalate (above.flatMap namesOf ++ rest) = "/".intercalate (above ++ rest) := by
  induction above with
  | nil => rfl
  | cons name above ih =>
    have hbelow : above.flatMap namesOf ++ rest ≠ [] := List.append_ne_nil_of_right_ne_nil _ h
    rw [List.flatMap_cons, List.append_assoc,
      String.intercalate_append_of_ne_nil (namesOf_ne_nil name) hbelow, intercalate_namesOf, ih,
      List.cons_append,
      String.intercalate_cons_of_ne_nil (List.append_ne_nil_of_right_ne_nil above h)]

/-- A path and the one with an extension behind one of its names start alike. -/
theorem exists_stem (above : List String) (name : String) (here : List String) :
    ∃ stem rest, "/".intercalate (above ++ name :: here) = stem ++ rest ∧
      ∀ extension, "/".intercalate (above ++ [name ++ extension]) = stem ++ extension := by
  induction above with
  | nil =>
    refine ⟨name, "/".intercalate ("" :: here), ?_, fun extension => String.intercalate_singleton⟩
    rw [← String.intercalate_cons_append, String.append_empty, List.nil_append]
  | cons first above ih =>
    obtain ⟨stem, rest, hpath, hextension⟩ := ih
    refine ⟨first ++ "/" ++ stem, rest, ?_, fun extension => ?_⟩
    · rw [List.cons_append, String.intercalate_cons_of_ne_nil (by simp), hpath]
      simp only [String.append_assoc]
    · rw [List.cons_append, String.intercalate_cons_of_ne_nil (by simp), hextension]
      simp only [String.append_assoc]

theorem isHere_iff {name : String} : isHere name = true ↔ name = "" ∨ name = "." := by
  simp [isHere]

variable {above here : List String} {name : String}

theorem namesOf_path (hname : '/' ∉ name.toList) (hhere : ∀ other ∈ here, other = "" ∨ other = ".") :
    namesOf ("/".intercalate (above ++ name :: here)) = above.flatMap namesOf ++ name :: here := by
  have hsame : here.flatMap namesOf = here := by
    induction here with
    | nil => rfl
    | cons other here ih =>
      obtain ⟨hother, hrest⟩ := List.forall_mem_cons.mp hhere
      have hplain : '/' ∉ other.toList := by
        rcases hother with rfl | rfl <;> decide
      rw [List.flatMap_cons, namesOf_of_notMem hplain, ih hrest, List.singleton_append]
  rw [namesOf_intercalate (by simp), List.flatMap_append, List.flatMap_cons,
    namesOf_of_notMem hname, hsame, List.singleton_append]

/-- The last name of a path. -/
theorem dropWhile_isHere (hname : isHere name = false)
    (hhere : ∀ other ∈ here, other = "" ∨ other = ".") :
    (above ++ name :: here).reverse.dropWhile isHere = name :: above.reverse := by
  have hdropped : ∀ other ∈ here.reverse, isHere other = true := fun other hother =>
    isHere_iff.mpr (hhere other (List.mem_reverse.mp hother))
  rw [List.reverse_append, List.reverse_cons, List.append_assoc,
    List.dropWhile_append_of_pos hdropped, List.singleton_append,
    List.dropWhile_cons_of_neg (by simp [hname])]

end Files

namespace Settings

open Files

variable {above here : List String} {name : String}

theorem withExtension?_path (hname : '/' ∉ name.toList) (hproper : name ∉ ["", ".", ".."])
    (hhere : ∀ other ∈ here, other = "" ∨ other = ".") :
    withExtension? ("/".intercalate (above ++ name :: here)) =
      some ("/".intercalate (above ++ [name ++ ".toml"])) := by
  simp only [List.mem_cons, List.not_mem_nil, or_false, not_or] at hproper
  have hhereName : isHere name = false :=
    Bool.eq_false_iff.mpr fun h => (isHere_iff.mp h).elim hproper.1 hproper.2.1
  rw [withExtension?, namesOf_path hname hhere, dropWhile_isHere hhereName hhere]
  simp only [hproper.2.2, if_false, List.reverse_cons, List.reverse_reverse]
  exact congrArg some (intercalate_flatMap_namesOf above (List.cons_ne_nil _ _))

theorem exists_of_withExtension? {path named : String} (h : withExtension? path = some named) :
    ∃ above name here, path = "/".intercalate (above ++ name :: here) ∧
      (∀ other ∈ here, other = "" ∨ other = ".") ∧
        named = "/".intercalate (above ++ [name ++ ".toml"]) := by
  unfold withExtension? at h
  cases hnames : (namesOf path).reverse.dropWhile isHere with
  | nil =>
    rw [hnames] at h
    cases h
  | cons name above =>
    rw [hnames] at h
    have hpath : namesOf path =
        above.reverse ++ name :: ((namesOf path).reverse.takeWhile isHere).reverse := by
      rw [← List.reverse_inj, List.reverse_append, List.reverse_cons, List.reverse_reverse,
        List.reverse_reverse, List.append_assoc, List.singleton_append, ← hnames,
        List.takeWhile_append_dropWhile]
    refine ⟨above.reverse, name, _, hpath ▸ (intercalate_namesOf path).symm,
      fun other hother => ?_, ?_⟩
    · exact isHere_iff.mp (List.mem_takeWhile_imp (List.mem_reverse.mp hother))
    · dsimp only at h
      split at h
      · cases h
      · rw [← Option.some.inj h, List.reverse_cons]
        rfl

theorem isSettingsName_append (h : name ≠ "") : isSettingsName (name ++ ".toml") = true := by
  have hlength : 0 < name.length := Nat.pos_of_ne_zero fun h0 => h (String.length_eq_zero_iff.mp h0)
  have hsuffix : ".toml".toList <:+ (name ++ ".toml").toList :=
    String.toList_append ▸ List.suffix_append name.toList ".toml".toList
  rw [isSettingsName, Bool.and_eq_true, decide_eq_true_eq]
  refine ⟨?_, List.isSuffixOf_iff_suffix.mpr hsuffix⟩
  have hextension : extension.length = ".toml".length := rfl
  rw [String.length_append]
  omega

/-- What a path of a settings file says, by the files that there are. -/
inductive FileSays (access : FileAccess) : Option String → Setting.Fields → Prop where
  /-- No path says nothing. -/
  | unasked : FileSays access none []
  /-- A path whose last name has the extension says what is written in its file. -/
  | file {path : String} {above : List String} {name text : String} {fields : Setting.Fields}
      (hpath : path = "/".intercalate (above ++ [name ++ ".toml"]))
      (hname : name ≠ "" ∧ '/' ∉ name.toList) (htext : access.readText path = .ok text)
      (hfields : Toml.parse? text = some fields) : FileSays access (some path) fields
  /-- A path that leads to no file says what is written in the one with the extension behind the
  last name. Empty names and points that stand behind that name do not count. -/
  | extended {path named : String} {above here : List String} {name text : String}
      {fields : Setting.Fields} {error : FileError}
      (hpath : path = "/".intercalate (above ++ name :: here))
      (hnamed : named = "/".intercalate (above ++ [name ++ ".toml"]))
      (hname : '/' ∉ name.toList ∧ name ∉ ["", ".", ".."])
      (hhere : ∀ other ∈ here, other = "" ∨ other = ".") (hmissing : access path = .error error)
      (htext : access.readText named = .ok text) (hfields : Toml.parse? text = some fields) :
      FileSays access (some path) fields
  /-- A path that leads to no file, also not with the extension, says nothing. -/
  | missing {path : String} {error : FileError} (hmissing : access path = .error error)
      (hextended : ∀ above name here, path = "/".intercalate (above ++ name :: here) →
        (∀ other ∈ here, other = "" ∨ other = ".") →
          ∃ error, access.readText ("/".intercalate (above ++ [name ++ ".toml"])) = .error error) :
      FileSays access (some path) []

variable {access : FileAccess} {path text : String}

theorem fileLayer_of_fileText? {fields : Setting.Fields}
    (h : fileText? access path = some text) (hfields : Toml.parse? text = some fields) :
    fileLayer access path = .ok fields := by
  rw [fileLayer, h]
  dsimp only
  rw [hfields]

theorem fileText?_file (hname : name ≠ "" ∧ '/' ∉ name.toList)
    (htext : access.readText ("/".intercalate (above ++ [name ++ ".toml"])) = .ok text) :
    fileText? access ("/".intercalate (above ++ [name ++ ".toml"])) = some text := by
  have hplain : '/' ∉ (name ++ ".toml").toList := by
    rw [String.toList_append, List.mem_append]
    exact not_or.mpr ⟨hname.2, by decide⟩
  have hhere : isHere (name ++ ".toml") = false := by
    have hlong : 1 < (name ++ ".toml").length := by
      rw [String.length_append]
      exact Nat.lt_add_left _ (by decide)
    refine Bool.eq_false_iff.mpr fun h => ?_
    rcases isHere_iff.mp h with h | h <;> rw [h] at hlong <;> exact absurd hlong (by decide)
  obtain ⟨content, hcontent, hread⟩ := FileAccess.readText_eq_ok_iff.mp htext
  have hnone : ∀ other ∈ ([] : List String), other = "" ∨ other = "." := List.forall_mem_nil _
  rw [fileText?, hcontent]
  dsimp only
  rw [namesOf_path hplain hnone, dropWhile_isHere hhere hnone, List.head?_cons, Option.getD_some,
    if_pos (isSettingsName_append hname.1), hread]
  rfl

/-- What the path says is the layer of its file. -/
theorem FileSays.elim_fileLayer {path : Option String} {file : Setting.Fields}
    (h : FileSays access path file) : path.elim (.ok []) (fileLayer access) = .ok file := by
  cases h with
  | unasked => rfl
  | file hpath hname htext hfields =>
    subst hpath
    exact fileLayer_of_fileText? (fileText?_file hname htext) hfields
  | extended hpath hnamed hname hhere hmissing htext hfields =>
    subst hpath hnamed
    refine fileLayer_of_fileText? ?_ hfields
    rw [fileText?, hmissing]
    dsimp only
    rw [withExtension?_path hname.1 hname.2 hhere, Option.bind_some, htext]
    rfl
  | @missing path error hmissing hextended =>
    have htext : fileText? access path = none := by
      rw [fileText?, hmissing]
      dsimp only
      rw [Option.bind_eq_none_iff]
      intro named hnamed
      obtain ⟨above, name, here, hpath, hhere, rfl⟩ := exists_of_withExtension? hnamed
      obtain ⟨error, herror⟩ := hextended above name here hpath hhere
      rw [herror]
      rfl
    rw [Option.elim_some, fileLayer, htext]

/-! ## The layers together -/

/-- The defaults written over nothing are themselves. -/
theorem withLayer_default :
    (Setting.table []).withLayer ({} : Settings).layer = some (.table ({} : Settings).layer) := by
  have hsteps : ∀ key ∈ ["output", "server", "logging"], steps key = [.field key] := by
    decide +kernel
  have hlower : ∀ key ∈ ["output", "server", "logging", "listen_addr", "enable_cors", "level",
      "json"], Text.lowercase key = key := by
    decide +kernel
  simp only [List.forall_mem_cons] at hsteps hlower
  simp only [layer, Setting.withLayer_cons, hsteps, writeAt, Option.bind_some, Setting.write,
    Setting.overlay, hlower]
  rfl

theorem grouped_default : (Setting.table ({} : Settings).layer).Grouped := by
  refine ⟨rfl, fun name hname => ?_⟩
  have hcases : name = "server" ∨ name = "logging" := by simpa [Leaf.groups] using hname
  rcases hcases with rfl | rfl
  · exact ⟨_, rfl, rfl⟩
  · exact ⟨_, rfl, rfl⟩

/-- The defaults are read as themselves. -/
theorem read?_default (leaf : Leaf) :
    leaf.read? (at? leaf.path (.table ({} : Settings).layer)) = some (leaf.get {}) := by
  have hall : ∀ leaf ∈ Leaf.all,
      leaf.read? (at? leaf.path (.table ({} : Settings).layer)) = some (leaf.get {}) := by
    decide +kernel
  exact hall leaf leaf.mem_all

/-- What is read of the defaults and what is said over them. -/
theorem read?_or_default (leaf : Leaf) (value : Option Setting) :
    leaf.read? (value.or (at? leaf.path (.table ({} : Settings).layer))) = leaf.read? value := by
  cases value with
  | none => exact read?_default leaf
  | some value => rfl

/-- What a file and the environment say of a setting. -/
def chosen? (file : Setting.Fields) (environment : Environment) (leaf : Leaf) : Option Setting :=
  (environment.leaf? leaf).or (Setting.layerAt? leaf.path file)

variable {file : Setting.Fields} {environment : Environment}

theorem combine_eq (file environment : Setting.Fields) :
    combine file environment =
      ((Setting.table ({} : Settings).layer).withLayer file).bind (·.withLayer environment) := by
  rw [combine, List.foldlM_cons, withLayer_default]
  simp [List.foldlM_cons]

/-- **The three layers together**: each setting is what the environment says of it, or else the
file, or else the defaults. -/
theorem at?_combine (hfile : ∀ entry ∈ file, Setting.Plain entry)
    (henvironment : environment.IsPlain) {setting : Setting}
    (h : combine file environment.layer = some setting) :
    setting.Grouped ∧ ∀ leaf : Leaf, at? leaf.path setting =
      (chosen? file environment leaf).or (at? leaf.path (.table ({} : Settings).layer)) := by
  have hlayer := Environment.plain_of_isPlain henvironment
  rw [combine_eq] at h
  obtain ⟨target, htarget, h⟩ := Option.bind_eq_some_iff.mp h
  refine ⟨Setting.grouped_withLayer hlayer
    (Setting.grouped_withLayer hfile grouped_default htarget) h, fun leaf => ?_⟩
  rw [Setting.at?_withLayer hlayer h, Setting.at?_withLayer hfile htarget,
    Environment.layerAt?_layer henvironment, chosen?, Option.or_assoc]

/-- What can be read one by one can be read together. -/
theorem exists_settings_iff (value : Leaf → Option Setting) :
    (∃ settings, ∀ leaf : Leaf, leaf.read? (value leaf) = some (leaf.get settings)) ↔
      ¬ ∃ leaf : Leaf, ∃ found, value leaf = some found ∧ leaf.decode? found = none := by
  constructor
  · rintro ⟨settings, hread⟩ ⟨leaf, found, hfound, hnone⟩
    have hleaf := hread leaf
    rw [hfound, Leaf.read?, Option.elim_some, hnone] at hleaf
    cases hleaf
  · intro h
    have hread : ∀ leaf : Leaf, ∃ result, leaf.read? (value leaf) = some result := by
      intro leaf
      refine Option.ne_none_iff_exists'.mp fun hnone => h ⟨leaf, ?_⟩
      cases hvalue : value leaf with
      | none =>
        rw [hvalue] at hnone
        cases hnone
      | some found =>
        rw [hvalue] at hnone
        exact ⟨found, rfl, hnone⟩
    obtain ⟨output, houtput⟩ := hread .output
    obtain ⟨address, haddress⟩ := hread .listenAddress
    obtain ⟨cors, hcors⟩ := hread .enableCors
    obtain ⟨level, hlevel⟩ := hread .level
    obtain ⟨json, hjson⟩ := hread .json
    refine ⟨⟨output, ⟨address, cors⟩, ⟨level, json⟩⟩, fun leaf => ?_⟩
    cases leaf with
    | output => exact houtput
    | listenAddress => exact haddress
    | enableCors => exact hcors
    | level => exact hlevel
    | json => exact hjson

theorem load_eq {access : FileAccess} {path : Option String}
    (hfile : path.elim (.ok []) (fileLayer access) = .ok file) (environment : Environment) :
    load access path environment =
      match combine file environment.layer with
      | none => .error .noPlace
      | some setting =>
        match setting.settings? with
        | some settings => .ok settings
        | none => .error .invalidValue := by
  rw [load, hfile]
  simp only [bind, Except.bind]
  cases combine file environment.layer <;> rfl

theorem load_eq_ok_iff {access : FileAccess} {path : Option String}
    (hpath : path.elim (.ok []) (fileLayer access) = .ok file)
    (hfile : ∀ entry ∈ file, Setting.Plain entry) (henvironment : environment.IsPlain)
    {settings : Settings} :
    load access path environment = .ok settings ↔
      (combine file environment.layer).isSome = true ∧ ∀ leaf : Leaf,
        leaf.read? (chosen? file environment leaf) = some (leaf.get settings) := by
  rw [load_eq hpath]
  cases hcombine : combine file environment.layer with
  | none => exact iff_of_false nofun fun h => nomatch h.1
  | some setting =>
    obtain ⟨hgrouped, hat⟩ := at?_combine hfile henvironment hcombine
    have hsettings : setting.settings? = some settings ↔ ∀ leaf : Leaf,
        leaf.read? (chosen? file environment leaf) = some (leaf.get settings) := by
      rw [Setting.settings?_eq_some_iff hgrouped]
      refine forall_congr' fun leaf => ?_
      rw [hat, read?_or_default]
    rw [← hsettings]
    dsimp only
    cases setting.settings? <;> simp

/-- The layers can be written where the indices in their keys have a place in any list. -/
theorem isSome_combine {environment : Setting.Fields}
    (hfile : ∀ entry ∈ file, Setting.HasPlaces entry.1)
    (henvironment : ∀ entry ∈ environment, Setting.HasPlaces entry.1) :
    (combine file environment).isSome = true := by
  obtain ⟨target, htarget⟩ := Option.isSome_iff_exists.mp
    (Setting.isSome_withLayer hfile (.table ({} : Settings).layer))
  rw [combine_eq, htarget]
  exact Setting.isSome_withLayer henvironment target

end Settings

end MoveDesk
