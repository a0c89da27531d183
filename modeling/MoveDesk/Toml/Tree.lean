import MoveDesk.Settings.Layer

/-!
# TOML documents as trees

A document is built statement by statement. What may still be added to a table depends on how it
came to be: a header names a table only once, and neither headers nor dotted keys reach into what
the other has made whole.
-/

namespace MoveDesk.Toml

/-- How a table came to be. -/
inductive Origin where
  /-- It was named on the way to another table. -/
  | passed
  /-- It was named in a dotted key. -/
  | dotted
  /-- It has a header, or is the document itself. -/
  | header
deriving DecidableEq, Repr

/-- What stands under a key. -/
inductive Node where
  /-- A value, which nothing can be added to. -/
  | value (value : Setting)
  /-- A table. -/
  | table (origin : Origin) (fields : List (String × Node))
  /-- A list of tables, each with a header, the last one first. -/
  | tables (items : List (List (String × Node)))
deriving Inhabited

/-- A table that is being built. -/
structure Table where
  /-- How it came to be. -/
  origin : Origin := .header
  /-- What stands in it. -/
  fields : List (String × Node) := []
deriving Inhabited

namespace Table

/-- The table with the node in the place of what stands under the key. -/
def put (table : Table) (key : String) (node : Node) : Table :=
  { table with fields := go table.fields }
where
  /-- The same for the fields. -/
  go : List (String × Node) → List (String × Node)
    | [] => [(key, node)]
    | field :: rest => if field.1 = key then (key, node) :: rest else field :: go rest

/-- The table with a change made where the keys lead. `dotted` says that they are part of a dotted
key, which reaches into no table that has a header. In a list of tables the last one is meant. -/
def change (dotted : Bool) (edit : Table → Option Table) : List String → Table → Option Table
  | [], table => edit table
  | key :: path, table =>
    match table.fields.lookup key with
    | none => do
      let inner ← change dotted edit path { origin := if dotted then .dotted else .passed }
      return table.put key (.table inner.origin inner.fields)
    | some (.table origin fields) => do
      if dotted && origin = .header then none
      let inner ← change dotted edit path ⟨origin, fields⟩
      return table.put key (.table inner.origin inner.fields)
    | some (.tables (last :: others)) => do
      let inner ← change dotted edit path { fields := last }
      return table.put key (.tables (inner.fields :: others))
    | _ => none

/-- The table with a value under a dotted key that nothing stands under yet. -/
def assign (path : List String) (key : String) (value : Setting) (table : Table) : Option Table :=
  table.change true (fun inner =>
    if path.isEmpty = decide (inner.origin = .dotted) then none
    else if (inner.fields.lookup key).isSome then none
    else some (inner.put key (.value value))) path

/-- The table with a header in it: nothing stood there, or only what was passed on the way. -/
def openTable (path : List String) (key : String) (table : Table) : Option Table :=
  table.change false (fun inner =>
    match inner.fields.lookup key with
    | none => some (inner.put key (.table .header []))
    | some (.table .passed fields) => some (inner.put key (.table .header fields))
    | _ => none) path

/-- The table with a further table in a list of tables. -/
def openItem (path : List String) (key : String) (table : Table) : Option Table :=
  table.change false (fun inner =>
    match inner.fields.lookup key with
    | none => some (inner.put key (.tables [[]]))
    | some (.tables items) => some (inner.put key (.tables ([] :: items)))
    | _ => none) path

end Table

/-! ## Trees as settings -/

mutual

/-- The node as a setting. -/
def Node.setting : Node → Setting
  | .value value => value
  | .table _ fields => .table (settingFields fields)
  | .tables items => .list (settingItems items).reverse

/-- The fields as settings. -/
def settingFields : List (String × Node) → List (String × Setting)
  | [] => []
  | (key, node) :: rest => (key, node.setting) :: settingFields rest

/-- The tables as settings. -/
def settingItems : List (List (String × Node)) → List Setting
  | [] => []
  | fields :: rest => .table (settingFields fields) :: settingItems rest

end

/-- The fields of the table as settings. -/
def Table.settings (table : Table) : Setting.Fields := settingFields table.fields

end MoveDesk.Toml
