import MoveDesk.Proofs.Layers
import MoveDesk.Settings.Load

/-!
# Settings, one by one

There are five single settings, some of them in a group. A layer says of each what it says, over
what was said before, whatever it says of the others; and of what is left in the end each is read by
itself.

A variable can also have a key that is none of theirs. It does no harm if the key parts with each of
them at a name (`Environment.IsPlain`).

Headlines:
* **`Setting.Plain.at?_writeAt`**, **`Setting.at?_withLayer`**: what one entry and one layer leave of
  a setting.
* **`Setting.settings?_eq_some_iff`**: settings are read one by one.
* **`Environment.layerAt?_layer`**: what the variables say of a setting.
-/

namespace MoveDesk

open Setting (Fields at? leads parts apart named? steps writeAt)

/-! ## Single settings -/

/-- A single setting. -/
inductive Leaf where
  /-- The format of answers. -/
  | output
  /-- Where the server listens. -/
  | listenAddress
  /-- Pages of any origin may call the server. -/
  | enableCors
  /-- What is logged. -/
  | level
  /-- Log lines are JSON. -/
  | json
deriving DecidableEq, Repr

namespace Leaf

/-- All single settings. -/
def all : List Leaf := [output, listenAddress, enableCors, level, json]

theorem mem_all (leaf : Leaf) : leaf ∈ all := by
  cases leaf <;> decide

/-- The groups of settings. -/
def groups : List String := ["server", "logging"]

/-- The names that lead to the setting. -/
def path : Leaf → List String
  | output => ["output"]
  | listenAddress => ["server", "listen_addr"]
  | enableCors => ["server", "enable_cors"]
  | level => ["logging", "level"]
  | json => ["logging", "json"]

/-- The names with points between them. -/
def key (leaf : Leaf) : String := ".".intercalate leaf.path

/-- The type of what is set. -/
def Value : Leaf → Type
  | output => Format
  | listenAddress => SocketAddress
  | enableCors | json => Bool
  | level => String

instance : (leaf : Leaf) → DecidableEq leaf.Value
  | output => inferInstanceAs (DecidableEq Format)
  | listenAddress => inferInstanceAs (DecidableEq SocketAddress)
  | enableCors | json => inferInstanceAs (DecidableEq Bool)
  | level => inferInstanceAs (DecidableEq String)

/-- What is set, as it is read in the end. -/
def decode? : (leaf : Leaf) → Setting → Option leaf.Value
  | output => Setting.format?
  | listenAddress => Setting.address?
  | enableCors | json => Setting.bool?
  | level => Setting.text?

/-- What is set, in all settings. -/
def get : (leaf : Leaf) → Settings → leaf.Value
  | output => Settings.output
  | listenAddress => fun settings => settings.server.listenAddress
  | enableCors => fun settings => settings.server.enableCors
  | level => fun settings => settings.logging.level
  | json => fun settings => settings.logging.json

/-- What is set by a value, or else by default. -/
def read? (leaf : Leaf) (value : Option Setting) : Option leaf.Value :=
  value.elim (some (leaf.get {})) leaf.decode?

theorem apart_path {leaf other : Leaf} (h : leaf ≠ other) : apart leaf.path other.path = true := by
  have hall : ∀ leaf ∈ all, ∀ other ∈ all, leaf ≠ other → apart leaf.path other.path = true := by
    decide
  exact hall leaf leaf.mem_all other other.mem_all h

/-- A setting is in a group, or its names part with that of the group. -/
theorem path_cases {name : String} (h : name ∈ groups) (leaf : Leaf) :
    (∃ below, leaf.path = [name, below]) ∨ apart [name] leaf.path = true := by
  have hall : ∀ leaf ∈ all, ∀ name ∈ groups,
      leaf.path = [name, leaf.path.getLastD ""] ∨ apart [name] leaf.path = true := by
    decide
  exact (hall leaf leaf.mem_all name h).imp (fun heq => ⟨_, heq⟩) id

theorem exists_path_eq_cons (leaf : Leaf) : ∃ name path, leaf.path = name :: path := by
  cases leaf <;> exact ⟨_, _, rfl⟩

/-- A group leads to settings by one more name. -/
theorem exists_eq_singleton {leaf : Leaf} {name : String} {path : List String}
    (h : leaf.path = name :: path) (hname : name ∈ groups) : ∃ below, path = [below] := by
  rcases path_cases hname leaf with ⟨below, hpath⟩ | hapart
  · exact ⟨below, (List.cons.inj (h.symm.trans hpath)).2⟩
  · rw [h, apart, Bool.or_eq_true, decide_eq_true_eq] at hapart
    exact absurd rfl (hapart.resolve_right Bool.false_ne_true)

theorem exists_path_of_mem_groups {name : String} (h : name ∈ groups) :
    ∃ leaf : Leaf, ∃ below, leaf.path = [name, below] := by
  have hall : ∀ name ∈ groups, ∃ leaf ∈ all, leaf.path = [name, leaf.path.getLastD ""] := by
    decide
  obtain ⟨leaf, -, heq⟩ := hall name h
  exact ⟨leaf, _, heq⟩

theorem leads_steps_key (leaf : Leaf) : leads (steps leaf.key) leaf.path = true := by
  have hall : ∀ leaf ∈ all, leads (steps leaf.key) leaf.path = true := by decide +kernel
  exact hall leaf leaf.mem_all

end Leaf

/-! ## What layers say -/

namespace Setting

/-- What an entry of a layer says of what stands at the end of the path. -/
def entryAt? (path : List String) : String × Setting → Option Setting
  | (key, .table fields) =>
    if leads (steps key) path.dropLast then named? (path.getLast?.getD "") fields else none
  | (key, value) => if leads (steps key) path then some value else none

/-- What a layer says of what stands at the end of the path. A later entry counts more. -/
def layerAt? (path : List String) (layer : Fields) : Option Setting :=
  layer.reverse.findSome? (entryAt? path)

theorem layerAt?_cons (path : List String) (entry : String × Setting) (rest : Fields) :
    layerAt? path (entry :: rest) = (layerAt? path rest).or (entryAt? path entry) := by
  rw [layerAt?, List.reverse_cons, List.findSome?_append]
  simp [layerAt?]

/-- The entry is for one of the single settings, for a group of them, or for nothing that has to do
with any. -/
inductive Plain : String × Setting → Prop where
  /-- The key is that of a setting. -/
  | leaf {key : String} {value : Setting} (leaf : Leaf) (hvalue : value.isTable = false)
      (h : leads (steps key) leaf.path = true) : Plain (key, value)
  /-- The key is that of a group, and the value has settings in it. -/
  | group {key : String} {fields : Fields} {name : String} (hname : name ∈ Leaf.groups)
      (hfields : ∀ field ∈ fields, field.2.isTable = false)
      (h : leads (steps key) [name] = true) : Plain (key, .table fields)
  /-- The key parts with that of each setting at a name. -/
  | foreign {key : String} {value : Setting}
      (h : ∀ leaf : Leaf, parts (steps key) leaf.path = true) : Plain (key, value)

variable {entry : String × Setting} {layer : Fields} {target result : Setting}

theorem plain_iff :
    Plain entry ↔
      (entry.2.isTable = false ∧ ∃ leaf ∈ Leaf.all, leads (steps entry.1) leaf.path = true) ∨
      (entry.2.isTable = true ∧ (∀ field ∈ entry.2.fields, field.2.isTable = false) ∧
        ∃ name ∈ Leaf.groups, leads (steps entry.1) [name] = true) ∨
      ∀ leaf ∈ Leaf.all, parts (steps entry.1) leaf.path = true := by
  constructor
  · rintro (⟨leaf, hvalue, h⟩ | ⟨hname, hfields, h⟩ | h)
    · exact .inl ⟨hvalue, leaf, leaf.mem_all, h⟩
    · exact .inr (.inl ⟨rfl, hfields, _, hname, h⟩)
    · exact .inr (.inr fun leaf _ => h leaf)
  · obtain ⟨key, value⟩ := entry
    rintro (⟨hvalue, leaf, -, h⟩ | ⟨hvalue, hfields, name, hname, h⟩ | h)
    · exact .leaf leaf hvalue h
    · obtain ⟨fields, rfl⟩ := isTable_iff.mp hvalue
      exact .group hname hfields h
    · exact .foreign fun leaf => h leaf leaf.mem_all

instance (entry : String × Setting) : Decidable (Plain entry) := decidable_of_iff' _ plain_iff

theorem entryAt?_of_not_isTable {value : Setting} (h : value.isTable = false) (path : List String)
    (key : String) :
    entryAt? path (key, value) = if leads (steps key) path then some value else none := by
  cases value with
  | table fields => cases h
  | _ => rfl

theorem entryAt?_of_parts {path : List String} (h : parts (steps entry.1) path = true) :
    entryAt? path entry = none := by
  obtain ⟨key, value⟩ := entry
  cases value with
  | table fields => exact if_neg (not_leads_of_parts h (List.dropLast_prefix path))
  | _ => exact if_neg (not_leads_of_parts h (List.prefix_refl path))

/-! ## One entry -/

/-- An entry that leaves the path of a setting says nothing of it, and does nothing to it. -/
theorem at?_writeAt_of_entry_parts {path : List String} (h : parts (steps entry.1) path = true)
    (hresult : writeAt entry.2 (steps entry.1) target = some result) :
    at? path result = (entryAt? path entry).or (at? path target) := by
  rw [entryAt?_of_parts h, Option.none_or, at?_writeAt_of_parts h hresult]

/-- **One entry**: what it says of a setting takes the place of what was there, and nothing else
changes. -/
theorem Plain.at?_writeAt (h : Plain entry)
    (hresult : writeAt entry.2 (steps entry.1) target = some result) (leaf : Leaf) :
    at? leaf.path result = (entryAt? leaf.path entry).or (at? leaf.path target) := by
  cases h with
  | @leaf key value other hvalue h =>
    by_cases heq : other = leaf
    · subst heq
      obtain ⟨written, hwritten, hat⟩ := at?_writeAt_of_leads hvalue h target
      obtain rfl := Option.some.inj (hwritten.symm.trans hresult)
      rw [hat, entryAt?_of_not_isTable hvalue, if_pos h, Option.some_or]
    · refine at?_writeAt_of_entry_parts ?_ hresult
      rw [parts_of_leads h, Leaf.apart_path heq]
  | @group key fields name hname hfields h =>
    rcases Leaf.path_cases hname leaf with ⟨below, hpath⟩ | hapart
    · obtain ⟨written, hwritten, hat⟩ := at?_writeAt_table hfields h target below
      obtain rfl := Option.some.inj (hwritten.symm.trans hresult)
      have hentry : entryAt? [name, below] (key, .table fields) = named? below fields := if_pos h
      rw [hpath, hat, hentry]
    · refine at?_writeAt_of_entry_parts ?_ hresult
      rw [parts_of_leads h, hapart]
  | foreign h => exact at?_writeAt_of_entry_parts (h leaf) hresult

/-- The setting is a table, and so is what stands there under the name of a group. -/
structure Grouped (setting : Setting) : Prop where
  /-- It is a table. -/
  isTable : setting.isTable = true
  /-- The groups are tables. -/
  group : ∀ name ∈ Leaf.groups, ∃ inner, at? [name] setting = some inner ∧ inner.isTable = true

/-- Every entry starts with a name. -/
theorem Plain.exists_steps (h : Plain entry) : ∃ key rest, steps entry.1 = .field key :: rest := by
  cases h with
  | leaf leaf hvalue h =>
    obtain ⟨name, path, hpath⟩ := leaf.exists_path_eq_cons
    rw [hpath] at h
    obtain ⟨key, rest, hsteps, -⟩ := leads_cons_iff.mp h
    exact ⟨key, rest, hsteps⟩
  | group hname hfields h =>
    obtain ⟨key, rest, hsteps, -⟩ := leads_cons_iff.mp h
    exact ⟨key, rest, hsteps⟩
  | foreign h =>
    obtain ⟨key, rest, hsteps, -⟩ := parts_cons_iff.mp (h .output)
    exact ⟨key, rest, hsteps⟩

/-- **One entry** leaves groups where there are groups. -/
theorem Plain.grouped_writeAt (h : Plain entry) (htarget : Grouped target)
    (hresult : writeAt entry.2 (steps entry.1) target = some result) : Grouped result := by
  obtain ⟨key, rest, hsteps⟩ := h.exists_steps
  refine ⟨isTable_writeAt (hsteps ▸ hresult), fun name hname => ?_⟩
  by_cases hkey : Text.lowercase key = name
  · -- the entry is in the group, or it is the group
    subst hkey
    have hbelow : ∀ below more, rest = .field below :: more →
        ∃ inner, at? [Text.lowercase key] result = some inner ∧ inner.isTable = true := by
      rintro below more rfl
      exact exists_table_of_writeAt (hsteps ▸ hresult)
    cases h with
    | leaf leaf hvalue h =>
      obtain ⟨name, path, hpath⟩ := leaf.exists_path_eq_cons
      rw [hpath] at h
      obtain ⟨_, _, hfirst, rfl, hrest⟩ := leads_cons_iff.mp h
      cases hsteps.symm.trans hfirst
      obtain ⟨below, rfl⟩ := Leaf.exists_eq_singleton hpath hname
      obtain ⟨below, more, hrest, -⟩ := leads_cons_iff.mp hrest
      exact hbelow below more hrest
    | group hgroup hfields h =>
      obtain ⟨_, _, hfirst, rfl, -⟩ := leads_cons_iff.mp h
      cases hsteps.symm.trans hfirst
      refine exists_table_of_writeAt_table h (fun inner hinner => ?_) hresult
      obtain ⟨table, htable, hisTable⟩ := htarget.group _ hname
      exact Option.some.inj (htable.symm.trans hinner) ▸ hisTable
    | foreign h =>
      obtain ⟨leaf, below, hpath⟩ := Leaf.exists_path_of_mem_groups hname
      have hparts := h leaf
      rw [hpath] at hparts
      obtain ⟨_, _, hfirst, hor⟩ := parts_cons_iff.mp hparts
      cases hsteps.symm.trans hfirst
      obtain ⟨below, more, hrest, -⟩ := parts_cons_iff.mp (hor.resolve_left fun hne => hne rfl)
      exact hbelow below more hrest
  · have hparts : parts (steps entry.1) [name] = true :=
      parts_cons_iff.mpr ⟨key, rest, hsteps, Or.inl hkey⟩
    rw [at?_writeAt_of_parts hparts hresult]
    exact htarget.group name hname

/-! ## Layers -/

theorem withLayer_cons (target : Setting) (entry : String × Setting) (rest : Fields) :
    target.withLayer (entry :: rest) =
      (writeAt entry.2 (steps entry.1) target).bind fun written => written.withLayer rest :=
  List.foldlM_cons

/-- **A layer**: what it says of a setting counts more than what was there. -/
theorem at?_withLayer (h : ∀ entry ∈ layer, Plain entry)
    (hresult : target.withLayer layer = some result) (leaf : Leaf) :
    at? leaf.path result = (layerAt? leaf.path layer).or (at? leaf.path target) := by
  induction layer generalizing target with
  | nil =>
    obtain rfl := Option.some.inj hresult
    rfl
  | cons entry rest ih =>
    obtain ⟨hentry, hrest⟩ := List.forall_mem_cons.mp h
    rw [withLayer_cons] at hresult
    obtain ⟨written, hwritten, hresult⟩ := Option.bind_eq_some_iff.mp hresult
    rw [ih hrest hresult, hentry.at?_writeAt hwritten, layerAt?_cons, Option.or_assoc]

theorem grouped_withLayer (h : ∀ entry ∈ layer, Plain entry) (htarget : Grouped target)
    (hresult : target.withLayer layer = some result) : Grouped result := by
  induction layer generalizing target with
  | nil =>
    obtain rfl := Option.some.inj hresult
    exact htarget
  | cons entry rest ih =>
    obtain ⟨hentry, hrest⟩ := List.forall_mem_cons.mp h
    rw [withLayer_cons] at hresult
    obtain ⟨written, hwritten, hresult⟩ := Option.bind_eq_some_iff.mp hresult
    exact ih hrest (hentry.grouped_writeAt htarget hwritten) hresult

/-- Each index in the key has a place in any list. -/
def HasPlaces (key : String) : Prop :=
  ∀ index, Step.item index ∈ steps key → 0 ≤ index ∧ index < 4194304

instance (key : String) : Decidable (HasPlaces key) :=
  decidable_of_iff
    ((steps key).all fun
      | .item index => 0 ≤ index ∧ index < 4194304
      | .field _ => true) <| by
    rw [List.all_eq_true]
    refine ⟨fun h index hindex => of_decide_eq_true (h _ hindex), fun h step hstep => ?_⟩
    cases step with
    | field key => rfl
    | item index => exact decide_eq_true (h index hstep)

/-- A layer can be written where the indices in its keys have a place in any list. -/
theorem isSome_withLayer (h : ∀ entry ∈ layer, HasPlaces entry.1) (target : Setting) :
    (target.withLayer layer).isSome = true := by
  induction layer generalizing target with
  | nil => rfl
  | cons entry rest ih =>
    obtain ⟨hentry, hrest⟩ := List.forall_mem_cons.mp h
    obtain ⟨written, hwritten⟩ := Option.isSome_iff_exists.mp
      (isSome_writeAt hentry entry.2 target)
    rw [withLayer_cons, hwritten]
    exact ih hrest written

/-! ## Reading what is left -/

theorem readOr_eq {α : Type} (default : α) (read : Setting → Option α) (key : String)
    (fields : Fields) :
    readOr default read key fields = (get? key fields).elim (some default) read := by
  unfold readOr
  cases get? key fields <;> rfl

theorem server?_table_iff {fields : Fields} {server : ServerSettings} :
    (table fields).server? = some server ↔
      (get? "listen_addr" fields).elim (some .standard) address? = some server.listenAddress ∧
        (get? "enable_cors" fields).elim (some true) bool? = some server.enableCors := by
  rw [server?]
  simp only [group?, readOr_eq, Option.bind_eq_bind, Option.bind_some, Option.bind_eq_some_iff]
  constructor
  · rintro ⟨address, haddress, cors, hcors, ⟨⟩⟩
    exact ⟨haddress, hcors⟩
  · rintro ⟨haddress, hcors⟩
    exact ⟨_, haddress, _, hcors, rfl⟩

theorem logging?_table_iff {fields : Fields} {logging : LogSettings} :
    (table fields).logging? = some logging ↔
      (get? "level" fields).elim (some "info") text? = some logging.level ∧
        (get? "json" fields).elim (some false) bool? = some logging.json := by
  rw [logging?]
  simp only [group?, readOr_eq, Option.bind_eq_bind, Option.bind_some, Option.bind_eq_some_iff]
  constructor
  · rintro ⟨level, hlevel, json, hjson, ⟨⟩⟩
    exact ⟨hlevel, hjson⟩
  · rintro ⟨hlevel, hjson⟩
    exact ⟨_, hlevel, _, hjson, rfl⟩

/-- The fields of a group are what stands behind its name. -/
theorem Grouped.exists_fields (h : Grouped target) {name : String} (hname : name ∈ Leaf.groups) :
    ∃ inner, get? name target.fields = some (.table inner) ∧
      ∀ below, at? [name, below] target = get? below inner := by
  obtain ⟨setting, hsetting, htable⟩ := h.group name hname
  obtain ⟨inner, rfl⟩ := isTable_iff.mp htable
  rw [at?_singleton] at hsetting
  refine ⟨inner, hsetting, fun below => ?_⟩
  rw [at?, hsetting, Option.bind_some, at?_singleton, fields]

/-- **Settings are read one by one** where groups are tables. -/
theorem settings?_eq_some_iff (h : Grouped target) {settings : Settings} :
    target.settings? = some settings ↔
      ∀ leaf : Leaf, leaf.read? (at? leaf.path target) = some (leaf.get settings) := by
  obtain ⟨server, hserver, hserverAt⟩ := h.exists_fields (show "server" ∈ Leaf.groups by decide)
  obtain ⟨logging, hlogging, hloggingAt⟩ :=
    h.exists_fields (show "logging" ∈ Leaf.groups by decide)
  obtain ⟨fields, rfl⟩ := isTable_iff.mp h.isTable
  have houtputAt : at? ["output"] (table fields) = get? "output" fields := at?_singleton _ _
  rw [Setting.fields] at hserver hlogging
  rw [settings?]
  simp only [group?, readOr_eq, Option.bind_eq_bind, Option.bind_some, Option.bind_eq_some_iff,
    hserver, hlogging, Option.elim_some, server?_table_iff, logging?_table_iff]
  rw [← hserverAt, ← hserverAt, ← hloggingAt, ← hloggingAt, ← houtputAt]
  constructor
  · rintro ⟨output, houtput, _, ⟨haddress, hcors⟩, _, ⟨hlevel, hjson⟩, ⟨⟩⟩ leaf
    cases leaf with
    | output => exact houtput
    | listenAddress => exact haddress
    | enableCors => exact hcors
    | level => exact hlevel
    | json => exact hjson
  · intro hleaf
    exact ⟨_, hleaf .output, _, ⟨hleaf .listenAddress, hleaf .enableCors⟩, _,
      ⟨hleaf .level, hleaf .json⟩, rfl⟩

end Setting

/-! ## The environment -/

namespace Environment

variable {environment : Environment}

/-- What the variables set a single setting to. A later one counts more. -/
def leaf? (environment : Environment) (leaf : Leaf) : Option Setting :=
  environment.reverse.findSome? fun (name, value) =>
    if key? name = some leaf.key then some (setting value) else none

/-- The variables that are settings have the key of a single one, or one that parts with all of them
at a name. -/
def IsPlain (environment : Environment) : Prop :=
  ∀ entry ∈ environment, ∀ key, key? entry.1 = some key →
    (∃ leaf : Leaf, key = leaf.key) ∨ ∀ leaf : Leaf, parts (steps key) leaf.path = true

instance (environment : Environment) : Decidable environment.IsPlain :=
  decidable_of_iff
    (∀ entry ∈ environment, ∀ key ∈ key? entry.1,
      (∃ leaf ∈ Leaf.all, key = leaf.key) ∨ ∀ leaf ∈ Leaf.all, parts (steps key) leaf.path = true)
    (by simp [IsPlain, Leaf.mem_all])

/-- No variable is a table. -/
theorem isTable_setting (value : String) : (setting value).isTable = false := by
  unfold setting
  split
  · rfl
  · rfl
  · dsimp only
    cases integer? value.toList with
    | some n => rfl
    | none => cases number? value.toList <;> rfl

/-- The variable of that name and value as an entry of the layer. -/
theorem exists_of_mem_layer {entry : String × Setting} (h : entry ∈ environment.layer) :
    ∃ name value, (name, value) ∈ environment ∧ key? name = some entry.1 ∧
      setting value = entry.2 := by
  obtain ⟨⟨name, value⟩, hmem, hentry⟩ := List.mem_filterMap.mp h
  obtain ⟨key, hkey, rfl⟩ := Option.map_eq_some_iff.mp hentry
  exact ⟨name, value, hmem, hkey, rfl⟩

theorem plain_of_isPlain (h : environment.IsPlain) :
    ∀ entry ∈ environment.layer, Setting.Plain entry := by
  rintro ⟨key, _⟩ hentry
  obtain ⟨name, value, hmem, hkey, rfl⟩ := exists_of_mem_layer hentry
  rcases h _ hmem key hkey with ⟨leaf, rfl⟩ | hparts
  · exact .leaf leaf (isTable_setting value) leaf.leads_steps_key
  · exact .foreign hparts

/-- A variable is about the setting whose key it has. -/
theorem leads_iff_of_isPlain (h : environment.IsPlain) {entry : String × String}
    (hentry : entry ∈ environment) {key : String} (hkey : key? entry.1 = some key) (leaf : Leaf) :
    leads (steps key) leaf.path = true ↔ key = leaf.key := by
  constructor
  · intro hleads
    have hnot : ¬ parts (steps key) leaf.path = true := fun hparts =>
      Setting.not_leads_of_parts hparts (List.prefix_refl _) hleads
    rcases h entry hentry key hkey with ⟨other, rfl⟩ | hparts
    · refine Decidable.byContradiction fun hne => hnot ?_
      have hother : other ≠ leaf := fun heq => hne (congrArg Leaf.key heq)
      rw [Setting.parts_of_leads other.leads_steps_key, Leaf.apart_path hother]
    · exact absurd (hparts leaf) hnot
  · rintro rfl
    exact leaf.leads_steps_key

theorem leaf?_cons (entry : String × String) (rest : Environment) (leaf : Leaf) :
    leaf? (entry :: rest) leaf =
      (leaf? rest leaf).or
        (if key? entry.1 = some leaf.key then some (setting entry.2) else none) := by
  rw [leaf?, List.reverse_cons, List.findSome?_append, List.findSome?_singleton]
  rfl

/-- The layer of the environment says of a setting what the variables do. -/
theorem layerAt?_layer (h : environment.IsPlain) (leaf : Leaf) :
    Setting.layerAt? leaf.path environment.layer = environment.leaf? leaf := by
  induction environment with
  | nil => rfl
  | cons entry rest ih =>
    obtain ⟨name, value⟩ := entry
    have hrest : IsPlain rest := fun other hother => h other (List.mem_cons_of_mem _ hother)
    rw [leaf?_cons, ← ih hrest]
    cases hkey : key? name with
    | none =>
      have hlayer : layer ((name, value) :: rest) = layer rest :=
        List.filterMap_cons_none (congrArg (Option.map (·, setting value)) hkey)
      rw [hlayer, if_neg nofun, Option.or_none]
    | some key =>
      have hlayer : layer ((name, value) :: rest) = (key, setting value) :: layer rest :=
        List.filterMap_cons_some (congrArg (Option.map (·, setting value)) hkey)
      rw [hlayer, Setting.layerAt?_cons, Setting.entryAt?_of_not_isTable (isTable_setting _)]
      simp only [leads_iff_of_isPlain h List.mem_cons_self hkey, Option.some.injEq]

end Environment

end MoveDesk
