/-!
# Parameters

The parameters of a generation: a finite map from names to values, kept in strictly increasing
order of names. An empty value counts as unset.
-/

namespace MoveDesk

/-- A map from parameter names to values. -/
structure Parameters where
  /-- The names with their values. -/
  entries : List (String × String) := []
  /-- The names are strictly increasing. -/
  increasing : entries.Pairwise (·.1 < ·.1) := by exact .nil
deriving DecidableEq, Repr

namespace Parameters

/-- The address a contract is published under when none is given. -/
def defaultAddress : String := "0x1"

instance : EmptyCollection Parameters := ⟨{}⟩

/-- Writes a value under a name in an increasing list of entries. -/
def write (name value : String) : List (String × String) → List (String × String)
  | [] => [(name, value)]
  | entry :: rest =>
    if name < entry.1 then (name, value) :: entry :: rest
    else if name = entry.1 then (name, value) :: rest
    else entry :: write name value rest

theorem mem_write {name value : String} {entries : List (String × String)}
    {entry : String × String} (h : entry ∈ write name value entries) :
    entry = (name, value) ∨ entry ∈ entries := by
  induction entries with
  | nil => simpa [write] using h
  | cons first rest ih =>
    simp only [write] at h
    split at h
    · simpa using h
    · split at h
      · simp only [List.mem_cons] at h ⊢
        rcases h with h | h
        · exact Or.inl h
        · exact Or.inr (Or.inr h)
      · simp only [List.mem_cons] at h ⊢
        rcases h with h | h
        · exact Or.inr (Or.inl h)
        · rcases ih h with h | h
          · exact Or.inl h
          · exact Or.inr (Or.inr h)

theorem pairwise_write {name value : String} {entries : List (String × String)}
    (h : entries.Pairwise (·.1 < ·.1)) : (write name value entries).Pairwise (·.1 < ·.1) := by
  induction entries with
  | nil => simp [write]
  | cons first rest ih =>
    obtain ⟨hfirst, hrest⟩ := List.pairwise_cons.1 h
    simp only [write]
    split
    case isTrue hlt =>
      refine List.pairwise_cons.2 ⟨fun entry hentry => ?_, h⟩
      rcases List.mem_cons.1 hentry with rfl | hmem
      · exact hlt
      · exact String.lt_trans hlt (hfirst entry hmem)
    case isFalse hnlt =>
      split
      case isTrue heq =>
        exact List.pairwise_cons.2 ⟨fun entry hmem => heq ▸ hfirst entry hmem, hrest⟩
      case isFalse hne =>
        have hgt : first.1 < name := by
          by_cases h : first.1 < name
          · exact h
          · exact absurd (String.le_antisymm (String.not_lt.1 h) (String.not_lt.1 hnlt)) hne
        refine List.pairwise_cons.2 ⟨fun entry hmem => ?_, ih hrest⟩
        rcases mem_write hmem with rfl | hmem
        · exact hgt
        · exact hfirst entry hmem

/-- The map with a value written under a name; an earlier value of the name is replaced. -/
def insert (params : Parameters) (name value : String) : Parameters where
  entries := write name value params.entries
  increasing := pairwise_write params.increasing

/-- The map that the writes leave, in their order. -/
def ofList (writes : List (String × String)) : Parameters :=
  writes.foldl (fun params write => params.insert write.1 write.2) ∅

/-- The map with the contract name set. -/
def withName (params : Parameters) (name : String) : Parameters := params.insert "name" name

/-- The map with the publishing address set. -/
def withAddress (params : Parameters) (address : String) : Parameters :=
  params.insert "address" address

/-- The value under a name, if it is set and not empty. -/
def get? (params : Parameters) (name : String) : Option String :=
  (params.entries.lookup name).filter (· ≠ "")

/-- The value under a name, or `default` if it is unset or empty. -/
def getD (params : Parameters) (name default : String) : String :=
  (params.get? name).getD default

/-- The address the contract is published under. -/
def address (params : Parameters) : String := params.getD "address" defaultAddress

/-- The number of entries, the empty values included. -/
def size (params : Parameters) : Nat := params.entries.length

/-- Nothing was written at all. -/
def isEmpty (params : Parameters) : Bool := params.entries.isEmpty

end Parameters

end MoveDesk
