import MoveDesk.Data
import MoveDesk.Proofs.FirstSeen
import MoveDesk.Proofs.Writes

/-!
# Runs of operations on parameters

Whatever operations made it, a map of parameters is made of writes, of which the last under each
name counts. So it is the map of its last values (`ext_lookup`): how it came to be does not show in
its entries, in their order, or in anything that is made of them.

Two views differ on purpose. An empty value is an entry as any other, and hides the value that was
written before it; but it is not given out as a value.

Headlines:
* **`run_eq_ofList`**: a run of operations is a list of writes.
* **`run_lastWritten`**: what a run leaves.
-/

namespace MoveDesk.Parameters

/-! ## Maps and their entries -/

theorem nodup_names (params : Parameters) : (params.entries.map (·.1)).Nodup := by
  refine List.pairwise_map.mpr (params.increasing.imp fun h heq => ?_)
  rw [heq] at h
  exact String.lt_irrefl _ h

/-- An entry is there exactly if its value is found under its name. -/
theorem lookup_eq_some_iff_mem {params : Parameters} {name value : String} :
    params.entries.lookup name = some value ↔ (name, value) ∈ params.entries :=
  lookup_eq_some_iff_of_nodup params.nodup_names

theorem nodup_entries (params : Parameters) : params.entries.Nodup := by
  refine params.increasing.imp fun h heq => ?_
  rw [heq] at h
  exact String.lt_irrefl _ h

/-- **A map is made of its values**: what is found under each name. -/
theorem ext_lookup {a b : Parameters}
    (h : ∀ name, a.entries.lookup name = b.entries.lookup name) : a = b := by
  have hperm : a.entries.Perm b.entries :=
    (List.perm_ext_iff_of_nodup a.nodup_entries b.nodup_entries).mpr fun entry => by
      rw [← lookup_eq_some_iff_mem, h, lookup_eq_some_iff_mem]
  have hentries : a.entries = b.entries :=
    hperm.eq_of_pairwise (fun x y _ _ hxy hyx => absurd hyx (String.lt_asymm hxy))
      a.increasing b.increasing
  cases a
  cases b
  cases hentries
  rfl

/-! ## Order by code points -/

/-- The numbers of the characters. -/
def codePoints (text : String) : List Nat := text.toList.map Char.toNat

/-- Texts are ordered by the numbers of their characters. -/
theorem codePoints_lt {a b : String} (h : a < b) : codePoints a < codePoints b :=
  List.map_lt (fun _ _ hlt => hlt) h

/-! ## Operations -/

/-- An operation that makes parameters, of those before or anew. -/
inductive Operation where
  /-- A value is written under a name. -/
  | insert (name value : String)
  /-- The contract name is set. -/
  | withName (name : String)
  /-- The publishing address is set. -/
  | withAddress (address : String)
  /-- A map is made of writes, in the place of what was there. -/
  | ofList (writes : List (String × String))
deriving DecidableEq, Repr

namespace Operation

/-- What the operation makes of parameters. -/
def apply (params : Parameters) : Operation → Parameters
  | insert name value => params.insert name value
  | withName name => params.withName name
  | withAddress address => params.withAddress address
  | ofList writes => .ofList writes

/-- The writes behind the operation, where `before` were there. -/
def written (before : List (String × String)) : Operation → List (String × String)
  | insert name value => before ++ [(name, value)]
  | withName name => before ++ [("name", name)]
  | withAddress address => before ++ [("address", address)]
  | ofList writes => writes

/-- One operation goes from the map of writes to the map of writes. -/
theorem apply_ofList (before : List (String × String)) (operation : Operation) :
    operation.apply (.ofList before) = .ofList (operation.written before) := by
  cases operation with
  | insert name value => exact (ofList_append before [(name, value)]).symm
  | withName name => exact (ofList_append before [("name", name)]).symm
  | withAddress address => exact (ofList_append before [("address", address)]).symm
  | ofList writes => rfl

end Operation

/-- The parameters behind operations in turn, from none at all on. -/
def run (operations : List Operation) : Parameters := operations.foldl Operation.apply ∅

/-- All that was written into the parameters behind operations in turn. -/
def written (operations : List Operation) : List (String × String) :=
  operations.foldl Operation.written []

/-- The value that was written last under a name, if any was. -/
def lastWritten (operations : List Operation) (name : String) : Option String :=
  (written operations).reverse.lookup name

/-- **A run of operations is a list of writes.** -/
theorem run_eq_ofList (operations : List Operation) :
    run operations = ofList (written operations) := by
  suffices hrun : ∀ before, operations.foldl Operation.apply (ofList before) =
      ofList (operations.foldl Operation.written before) from hrun []
  induction operations with
  | nil => exact fun _ => rfl
  | cons operation operations ih =>
    intro before
    rw [List.foldl_cons, List.foldl_cons, Operation.apply_ofList, ih]

theorem lookup_run (operations : List Operation) (name : String) :
    (run operations).entries.lookup name = lastWritten operations name := by
  rw [run_eq_ofList, lookup_ofList, lastWritten]

/-! ## What a run leaves -/

theorem lookup_ne_none_iff {entries : List (String × String)} {name : String} :
    entries.lookup name ≠ none ↔ name ∈ entries.map (·.1) := by
  induction entries with
  | nil => simp
  | cons entry rest ih =>
    rw [lookup_cons_eq_ite, List.map_cons, List.mem_cons]
    by_cases hname : name = entry.1
    · rw [if_pos hname]
      exact iff_of_true nofun (Or.inl hname)
    · rw [if_neg hname, ih, or_iff_right hname]

/-- As many entries are left as names were written, each counted once. -/
theorem size_run (operations : List Operation) :
    (run operations).size = ((written operations).map (·.1)).eraseDups.length := by
  have hperm : ((run operations).entries.map (·.1)).Perm
      ((written operations).map (·.1)).eraseDups :=
    (List.perm_ext_iff_of_nodup (run operations).nodup_names (nodup_eraseDups _)).mpr fun name => by
      rw [← lookup_ne_none_iff, lookup_run, lastWritten, lookup_ne_none_iff, List.map_reverse,
        List.mem_reverse, List.mem_eraseDups]
  rw [size, ← hperm.length_eq, List.length_map]

theorem get?_run (operations : List Operation) (name : String) :
    (run operations).get? name = (lastWritten operations name).filter (· ≠ "") := by
  rw [get?, lookup_run]

/-- **What a run of operations leaves** is decided by what was written last under each name:
* the value of a name is the last one, unless it is empty, and then there is none, or the default;
* there are as many entries as names that were ever written, the empty values included;
* the entries stand in the order of the code points of their names, each with the last value;
* runs that come to the same last values come to the same map, so to the same entries, the same data
  and the same code from any template. -/
theorem run_lastWritten (operations : List Operation) :
    (∀ name,
      (run operations).get? name = (lastWritten operations name).filter (· ≠ "") ∧
        ∀ default, (run operations).getD name default =
          ((lastWritten operations name).filter (· ≠ "")).getD default) ∧
      (run operations).address =
        ((lastWritten operations "address").filter (· ≠ "")).getD "0x1" ∧
      (run operations).size = ((written operations).map (·.1)).eraseDups.length ∧
      (run operations).entries.Pairwise (fun a b => codePoints a.1 < codePoints b.1) ∧
      (∀ name value,
        (name, value) ∈ (run operations).entries ↔ lastWritten operations name = some value) ∧
      ∀ others, (∀ name, lastWritten operations name = lastWritten others name) →
        run operations = run others ∧ (run operations).entries = (run others).entries ∧
          encode (run operations) = encode (run others) ∧
          ∀ template : Template,
            template.generate (run operations) = template.generate (run others) := by
  refine ⟨fun name => ⟨get?_run operations name, fun default => ?_⟩, ?_, size_run operations,
    (run operations).increasing.imp codePoints_lt, fun name value => ?_, fun others h => ?_⟩
  · rw [getD, get?_run]
  · rw [address, getD, get?_run, defaultAddress]
  · rw [← lookup_eq_some_iff_mem, lookup_run]
  · have hrun : run operations = run others := ext_lookup fun name => by
      rw [lookup_run, lookup_run, h]
    rw [hrun]
    exact ⟨rfl, rfl, rfl, fun _ => rfl⟩

/-- A value that was set and then emptied, and one that was empty from the start, leave the same
map, whatever order the names were written in. -/
theorem run_lastWritten_emptied :
    let operations : List Operation := [.insert "k" "a", .withName "Coin", .insert "k" ""]
    let others : List Operation := [.withAddress "0x2", .ofList [("k", ""), ("name", "Coin")]]
    (∀ name, lastWritten operations name = lastWritten others name) ∧
      run operations = run others ∧ (run operations).get? "k" = none ∧
      (run operations).size = 2 := by
  intro operations others
  have hlast : ∀ name, lastWritten operations name = lastWritten others name := by
    intro name
    have hoperations : lastWritten operations name =
        [("k", ""), ("name", "Coin"), ("k", "a")].lookup name := rfl
    have hothers : lastWritten others name = [("name", "Coin"), ("k", "")].lookup name := rfl
    rw [hoperations, hothers]
    simp only [lookup_cons_eq_ite, List.lookup_nil]
    by_cases hk : name = "k"
    · subst hk
      decide
    · simp only [if_neg hk]
  obtain ⟨hget, -, hsize, -, -, hrun⟩ := run_lastWritten operations
  exact ⟨hlast, (hrun others hlast).1, (hget "k").1, hsize⟩

end MoveDesk.Parameters
