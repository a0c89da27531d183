import MoveDesk.Declarator

/-!
# Contexts

What the program has seen of the sources so far. The command `analyze`, `GET /api/v1/context` and
choice 8 of the menu show it, and every analysis adds to it.

* A `NameList` holds names in order of first appearance, none of them twice (`insert`, `add`).
* A `Context` has one such list for modules, for structs and for functions. A `Snapshot` is a copy
  of it as plain lists, the form in which it is handed out.
* `extract` is the analysis of a source: it adds what the source declares (`Declarator.scan`), and
  `Growth` counts what was new of each kind.
-/

namespace MoveDesk

/-- Names in the order in which they were first seen. -/
structure NameList where
  /-- The names. -/
  names : List String := []
deriving DecidableEq, Repr

namespace NameList

instance : EmptyCollection NameList := ⟨{}⟩

/-- The name is in the list. -/
def contains (l : NameList) (name : String) : Bool := l.names.contains name

/-- The list with the name at its end, unless it is there already. -/
def insert (l : NameList) (name : String) : NameList :=
  if l.contains name then l else { names := l.names ++ [name] }

/-- The list with the name inserted, and whether it was new. -/
def add (l : NameList) (name : String) : NameList × Bool := (l.insert name, !l.contains name)

/-- The number of names. -/
def size (l : NameList) : Nat := l.names.length

/-- No name is in the list. -/
def isEmpty (l : NameList) : Bool := l.names.isEmpty

/-- The list with the names inserted in turn, and how many of them were new. -/
def insertAll (l : NameList) (names : List String) : NameList × Nat :=
  names.foldl
    (fun (l, new) name => (l.insert name, if l.contains name then new else new + 1)) (l, 0)

end NameList

/-- The names declared in the sources seen so far. -/
structure Context where
  /-- Modules, under their addresses. -/
  modules : NameList := ∅
  /-- Structs. -/
  structs : NameList := ∅
  /-- Functions. -/
  functions : NameList := ∅
deriving DecidableEq, Repr

/-- A copy of a context as three plain lists. -/
structure Snapshot where
  /-- Modules, under their addresses. -/
  modules : List String := []
  /-- Structs. -/
  structs : List String := []
  /-- Functions. -/
  functions : List String := []
deriving DecidableEq, Repr

/-- How many names of each kind were new. -/
structure Growth where
  /-- New modules. -/
  modules : Nat := 0
  /-- New structs. -/
  structs : Nat := 0
  /-- New functions. -/
  functions : Nat := 0
deriving DecidableEq, Repr

namespace Snapshot

/-- The number of names. -/
def total (s : Snapshot) : Nat := s.modules.length + s.structs.length + s.functions.length

/-- There is no name. -/
def isEmpty (s : Snapshot) : Bool := s.total == 0

end Snapshot

namespace Growth

instance : Add Growth where
  add a b := ⟨a.modules + b.modules, a.structs + b.structs, a.functions + b.functions⟩

/-- The number of new names. -/
def total (g : Growth) : Nat := g.modules + g.structs + g.functions

/-- Nothing was new. -/
def isEmpty (g : Growth) : Bool := g.total == 0

/-- The growth in one line. -/
def text (g : Growth) : String :=
  "+" ++ toString g.modules ++ " modules, +" ++ toString g.structs ++ " structs, +" ++
    toString g.functions ++ " functions"

end Growth

namespace Context

instance : EmptyCollection Context := ⟨{}⟩

/-- Nothing has been seen. -/
def isEmpty (ctx : Context) : Bool :=
  ctx.modules.isEmpty && ctx.structs.isEmpty && ctx.functions.isEmpty

/-- The names as plain lists. -/
def snapshot (ctx : Context) : Snapshot where
  modules := ctx.modules.names
  structs := ctx.structs.names
  functions := ctx.functions.names

/-- The context with the declarations of the source added, and how many of them were new. -/
def extract (ctx : Context) (source : String) : Context × Growth :=
  let modules := ctx.modules.insertAll (Declarator.module.scan source)
  let structs := ctx.structs.insertAll (Declarator.struct.scan source)
  let functions := ctx.functions.insertAll (Declarator.function.scan source)
  (⟨modules.1, structs.1, functions.1⟩, ⟨modules.2, structs.2, functions.2⟩)

end Context

end MoveDesk
