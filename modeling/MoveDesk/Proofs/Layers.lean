import MoveDesk.Settings.Layer

/-!
# What layers leave where names lead

A path of names leads down into a setting (`at?`), and so do the steps of a key that something is
written at. Where the steps part from the path at a name, nothing at the end of the path changes;
where they lead along all of it, what is written is found there. A table that is written one name
above the end goes to its place field by field.

Headlines:
* **`at?_writeAt_of_parts`**, **`at?_writeAt_of_leads`**, **`at?_writeAt_table`**: what one entry of
  a layer leaves.
-/

namespace MoveDesk.Setting

variable {steps : List Step} {name : String} {path : List String} {value target result : Setting}

/-! ## Paths and steps -/

/-- What stands where the names lead. -/
def at? : List String → Setting → Option Setting
  | [], setting => some setting
  | name :: path, setting => (get? name setting.fields).bind (at? path)

theorem at?_singleton (name : String) (setting : Setting) :
    at? [name] setting = get? name setting.fields := by
  rw [at?]
  cases get? name setting.fields <;> rfl

/-- The steps go along the path to its end, in any case. -/
def leads : List Step → List String → Bool
  | [], [] => true
  | .field key :: steps, name :: path => Text.lowercase key = name && leads steps path
  | _, _ => false

/-- The steps leave the path at a name: where both have a name, they have another one. -/
def parts : List Step → List String → Bool
  | .field key :: steps, name :: path => Text.lowercase key ≠ name || parts steps path
  | _, _ => false

/-- The paths part at a name. -/
def apart : List String → List String → Bool
  | name :: path, other :: more => name ≠ other || apart path more
  | _, _ => false

theorem leads_nil_iff : leads steps [] = true ↔ steps = [] := by
  cases steps with
  | nil => exact iff_of_true rfl rfl
  | cons step steps => cases step <;> exact iff_of_false nofun nofun

theorem leads_cons_iff :
    leads steps (name :: path) = true ↔
      ∃ key rest, steps = .field key :: rest ∧ Text.lowercase key = name ∧
        leads rest path = true := by
  constructor
  · intro h
    match steps, h with
    | .field key :: rest, h =>
      rw [leads, Bool.and_eq_true, decide_eq_true_eq] at h
      exact ⟨key, rest, rfl, h⟩
  · rintro ⟨key, rest, rfl, h⟩
    rwa [leads, Bool.and_eq_true, decide_eq_true_eq]

theorem parts_nil (steps : List Step) : parts steps [] = false := by
  cases steps with
  | nil => rfl
  | cons step steps => cases step <;> rfl

theorem parts_cons_iff :
    parts steps (name :: path) = true ↔
      ∃ key rest, steps = .field key :: rest ∧
        (Text.lowercase key ≠ name ∨ parts rest path = true) := by
  constructor
  · intro h
    match steps, h with
    | .field key :: rest, h =>
      rw [parts, Bool.or_eq_true, decide_eq_true_eq] at h
      exact ⟨key, rest, rfl, h⟩
  · rintro ⟨key, rest, rfl, h⟩
    rwa [parts, Bool.or_eq_true, decide_eq_true_eq]

/-- Steps that leave a path lead neither along it nor to any place on the way. -/
theorem not_leads_of_parts {front : List String} (h : parts steps path = true)
    (hfront : front <+: path) : ¬ leads steps front = true := by
  induction front generalizing steps path with
  | nil =>
    intro hleads
    rw [leads_nil_iff.mp hleads, parts] at h
    · cases h
    · exact nofun
  | cons name front ih =>
    obtain ⟨rest, rfl⟩ := hfront
    obtain ⟨key, steps, rfl, hor⟩ := parts_cons_iff.mp h
    intro hleads
    obtain ⟨_, _, hsteps, hkey, hfollow⟩ := leads_cons_iff.mp hleads
    cases hsteps
    exact ih (hor.resolve_left fun hne => hne hkey) (List.prefix_append front rest) hfollow

/-- Steps that lead along a path leave another where the path does. -/
theorem parts_of_leads (h : leads steps path = true) (other : List String) :
    parts steps other = apart path other := by
  induction path generalizing steps other with
  | nil =>
    rw [leads_nil_iff.mp h]
    rfl
  | cons name path ih =>
    obtain ⟨key, rest, rfl, rfl, hrest⟩ := leads_cons_iff.mp h
    cases other with
    | nil => rfl
    | cons next other => rw [parts, apart, ih hrest]

/-! ## Writing under a key -/

/-- The setting is a table. -/
def isTable : Setting → Bool
  | table _ => true
  | _ => false

theorem write_of_not_isTable (h : value.isTable = false) (fields : Fields) (key : String) :
    write fields key value = put (Text.lowercase key) value fields := by
  rw [write]
  rintro new rfl
  cases h

theorem write_table (fields : Fields) (key : String) (new : Fields) :
    write fields key (.table new) =
      put (Text.lowercase key)
        (overlay ((get? (Text.lowercase key) fields).getD (.table [])) new) fields := by
  rw [write]

theorem get?_write_of_ne {key : String} (h : name ≠ Text.lowercase key) (fields : Fields)
    (value : Setting) : get? name (write fields key value) = get? name fields := by
  cases value with
  | table new => rw [write_table, get?_put, if_neg h]
  | _ => rw [write_of_not_isTable rfl, get?_put, if_neg h]

/-! ## Writing where steps lead -/

/-- The place that the first step leads to is changed by the others. -/
theorem writeAt_cons_cons (value target : Setting) (key : String) (step : Step)
    (steps : List Step) :
    writeAt value (.field key :: step :: steps) target =
      (writeAt value (step :: steps)
          ((get? (Text.lowercase key) target.fields).getD unset)).map
        fun inner => .table (put (Text.lowercase key) inner target.fields) := by
  rw [writeAt]
  · cases writeAt value (step :: steps) _ <;> rfl
  · exact nofun

theorem at?_table_put (key : String) (inner target : Setting) :
    at? (name :: path) (.table (put key inner target.fields)) =
      if name = key then at? path inner else at? (name :: path) target := by
  rw [at?, fields, get?_put]
  split <;> rfl

/-- **What is written elsewhere changes nothing**: the steps leave the path at a name. -/
theorem at?_writeAt_of_parts (h : parts steps path = true)
    (hresult : writeAt value steps target = some result) : at? path result = at? path target := by
  induction path generalizing steps target result with
  | nil => rw [parts_nil] at h; cases h
  | cons name path ih =>
    obtain ⟨key, rest, rfl, hor⟩ := parts_cons_iff.mp h
    cases rest with
    | nil =>
      have hne : Text.lowercase key ≠ name := hor.resolve_right nofun
      rw [writeAt] at hresult
      obtain rfl := Option.some.inj hresult
      exact congrArg (·.bind (at? path)) (get?_write_of_ne hne.symm target.fields value)
    | cons next rest =>
      rw [writeAt_cons_cons] at hresult
      obtain ⟨inner, hinner, rfl⟩ := Option.map_eq_some_iff.mp hresult
      rw [at?_table_put]
      split
      · rename_i hkey
        have hparts : parts (next :: rest) path = true := hor.resolve_left fun hne => hne hkey.symm
        rw [ih hparts hinner, at?, hkey]
        cases path with
        | nil => rw [parts_nil] at hparts; cases hparts
        | cons below path => cases get? (Text.lowercase key) target.fields <;> rfl
      · rfl

/-- **What is written is there**, where the steps lead. A table would be merged with what is there
already. -/
theorem at?_writeAt_of_leads (hvalue : value.isTable = false) (h : leads steps path = true)
    (target : Setting) :
    ∃ result, writeAt value steps target = some result ∧ at? path result = some value := by
  induction path generalizing steps target with
  | nil =>
    rw [leads_nil_iff.mp h]
    exact ⟨value, rfl, rfl⟩
  | cons name path ih =>
    obtain ⟨key, rest, rfl, rfl, hrest⟩ := leads_cons_iff.mp h
    cases rest with
    | nil =>
      refine ⟨_, rfl, ?_⟩
      rw [write_of_not_isTable hvalue, at?_table_put, if_pos rfl]
      cases path with
      | nil => rfl
      | cons below path => cases hrest
    | cons next rest =>
      obtain ⟨inner, hinner, hat⟩ := ih hrest ((get? (Text.lowercase key) target.fields).getD unset)
      refine ⟨.table (put (Text.lowercase key) inner target.fields), ?_, ?_⟩
      · rw [writeAt_cons_cons, hinner, Option.map_some]
      · rwa [at?_table_put, if_pos rfl]

/-- An index that is not negative and below the largest number of items has a place in any list. -/
theorem exists_place {index : Int} (h : 0 ≤ index ∧ index < 4194304) (length : Nat) :
    ∃ place, place? index length = some place := by
  have hmax : (maxItems : Int) = 4194304 := by decide +kernel
  refine ⟨index.toNat, ?_⟩
  simp [place?, h.1, hmax, h.2]

/-- Something is written wherever names lead, and indices that have a place in any list. -/
theorem isSome_writeAt (h : ∀ index, .item index ∈ steps → 0 ≤ index ∧ index < 4194304)
    (value target : Setting) : (writeAt value steps target).isSome = true := by
  induction steps generalizing target with
  | nil => rfl
  | cons step rest ih =>
    have hrest := fun target => ih (fun index hindex => h index (List.mem_cons_of_mem _ hindex))
      target
    cases step with
    | item index =>
      obtain ⟨place, hplace⟩ := exists_place (h index List.mem_cons_self) target.items.length
      obtain ⟨inner, hinner⟩ := Option.isSome_iff_exists.mp
        (hrest (target.items[place]?.getD unset))
      rw [writeAt, hplace, Option.bind_eq_bind, Option.bind_some, hinner]
      rfl
    | field key =>
      cases rest with
      | nil => rfl
      | cons next rest => rw [writeAt_cons_cons, Option.isSome_map, hrest]

/-! ## Writing a table -/

/-- The value under the name, whatever the case of its key. A later one counts more. -/
def named? (name : String) (fields : Fields) : Option Setting :=
  (fields.map fun field => (Text.lowercase field.1, field.2)).reverse.lookup name

theorem named?_cons (name : String) (field : String × Setting) (rest : Fields) :
    named? name (field :: rest) =
      (named? name rest).or (if name = Text.lowercase field.1 then some field.2 else none) := by
  rw [named?, List.map_cons, List.reverse_cons, List.lookup_append, List.lookup_cons]
  congr 1
  by_cases hname : name = Text.lowercase field.1
  · rw [if_pos hname, beq_iff_eq.mpr hname]
  · rw [if_neg hname, beq_eq_false_iff_ne.mpr hname]
    rfl

/-- Fields that are written over a value take the place of those of their names. -/
theorem get?_overlay {new : Fields} (h : ∀ field ∈ new, field.2.isTable = false)
    (target : Setting) (name : String) :
    get? name (overlay target new).fields = (named? name new).or (get? name target.fields) := by
  induction new generalizing target with
  | nil => rw [overlay]; rfl
  | cons field rest ih =>
    obtain ⟨hfield, hrest⟩ := List.forall_mem_cons.mp h
    rw [overlay, ih hrest, named?_cons, Option.or_assoc]
    congr 1
    by_cases hname : name = Text.lowercase field.1
    · rw [if_pos hname, fields, write_of_not_isTable hfield, get?_put, if_pos hname]
      rfl
    · rw [if_neg hname, fields, get?_write_of_ne hname]
      rfl

/-- **A table that is written goes to its place field by field**, over what is there. -/
theorem at?_writeAt_table {new : Fields} (hnew : ∀ field ∈ new, field.2.isTable = false)
    (h : leads steps [name] = true) (target : Setting) (below : String) :
    ∃ result, writeAt (.table new) steps target = some result ∧
      at? [name, below] result = (named? below new).or (at? [name, below] target) := by
  obtain ⟨key, rest, rfl, rfl, hrest⟩ := leads_cons_iff.mp h
  obtain rfl := leads_nil_iff.mp hrest
  refine ⟨_, rfl, ?_⟩
  rw [write_table, at?_table_put, if_pos rfl, at?, get?_overlay hnew, at?]
  cases get? (Text.lowercase key) target.fields with
  | none => cases named? below new <;> rfl
  | some inner => cases named? below new <;> cases get? below inner.fields <;> rfl

/-! ## What stays a table -/

theorem isTable_iff : target.isTable = true ↔ ∃ fields, target = .table fields := by
  cases target <;> simp [isTable]

theorem isTable_overlay (h : target.isTable = true) (new : Fields) :
    (overlay target new).isTable = true := by
  induction new generalizing target with
  | nil => rwa [overlay]
  | cons field rest ih => exact ih rfl

/-- What a name leads into is a table then. -/
theorem isTable_writeAt {key : String} {rest : List Step}
    (h : writeAt value (.field key :: rest) target = some result) : result.isTable = true := by
  cases rest with
  | nil =>
    obtain rfl := Option.some.inj h
    rfl
  | cons next rest =>
    rw [writeAt_cons_cons] at h
    obtain ⟨inner, -, rfl⟩ := Option.map_eq_some_iff.mp h
    rfl

/-- So is what the name before the last leads to. -/
theorem exists_table_of_writeAt {key below : String} {rest : List Step}
    (h : writeAt value (.field key :: .field below :: rest) target = some result) :
    ∃ inner, at? [Text.lowercase key] result = some inner ∧ inner.isTable = true := by
  rw [writeAt_cons_cons] at h
  obtain ⟨inner, hinner, rfl⟩ := Option.map_eq_some_iff.mp h
  exact ⟨inner, by rw [at?_table_put, if_pos rfl]; rfl, isTable_writeAt hinner⟩

/-- A table that is written over a table leaves a table. -/
theorem exists_table_of_writeAt_table {new : Fields} (h : leads steps [name] = true)
    (htarget : ∀ inner, at? [name] target = some inner → inner.isTable = true)
    (hresult : writeAt (.table new) steps target = some result) :
    ∃ inner, at? [name] result = some inner ∧ inner.isTable = true := by
  obtain ⟨key, rest, rfl, rfl, hrest⟩ := leads_cons_iff.mp h
  obtain rfl := leads_nil_iff.mp hrest
  obtain rfl := Option.some.inj hresult
  refine ⟨_, by rw [write_table, at?_table_put, if_pos rfl]; rfl, isTable_overlay ?_ new⟩
  cases hinner : get? (Text.lowercase key) target.fields with
  | none => rfl
  | some inner => exact htarget inner (by rw [at?, hinner]; rfl)

end MoveDesk.Setting
