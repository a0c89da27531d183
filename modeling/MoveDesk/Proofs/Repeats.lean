import MoveDesk.Data
import MoveDesk.Proofs.Codecs
import MoveDesk.Proofs.FirstSeen

/-!
# Name lists with repeats

An insertion looks for the name before it puts it at the end, so it repeats none. Data is not looked
through: a list is read from an array of texts as it stands there. Repeats can come in this way, and
in no other, and no insertion takes them out again.

Headlines:
* **`decode?_nameList_iff`**: what a list is read from.
* **`nodup_insertEach_iff`**: behind insertions a list has repeats exactly if it had some before.
* **`insertEach_of_decode`**: what holds of every list that is empty or read, and then inserted
  into.
-/

namespace MoveDesk

open Codec

/-- **A name list is read from an array of texts** as they stand there, and from nothing else. -/
theorem decode?_nameList_iff {json : Json} {l : NameList} :
    decode? json = some l ↔ json = .texts l.names := by
  rw [← decode?_texts_iff]
  constructor
  · intro h
    obtain ⟨names, hnames, h⟩ := Option.bind_eq_some_iff.mp h
    obtain rfl := Option.some.inj h
    exact hnames
  · intro h
    exact congrArg (·.bind fun names => some (NameList.mk names)) h

namespace NameList

variable {l : NameList} {name : String}

/-! ## One insertion -/

/-- An insertion says whether the name is new. -/
theorem add_snd_iff : (l.add name).2 = true ↔ name ∉ l.names := by
  rw [add, Bool.not_eq_true', ← Bool.not_eq_true, contains_iff]

/-- A new name goes to the end. -/
theorem names_add (l : NameList) (name : String) :
    (l.add name).1.names = if name ∈ l.names then l.names else l.names ++ [name] := by
  rw [add]
  split
  · rename_i hname
    rw [insert_of_mem hname]
  · rename_i hname
    exact names_insert_of_notMem hname

/-- An insertion leaves repeats as they are. -/
theorem nodup_insert_iff : (l.insert name).names.Nodup ↔ l.names.Nodup := by
  refine ⟨fun h => ?_, fun h => nodup_insert h name⟩
  by_cases hname : name ∈ l.names
  · rwa [insert_of_mem hname] at h
  · rw [names_insert_of_notMem hname] at h
    exact (List.nodup_append.mp h).1

/-! ## Runs of insertions -/

/-- The list behind insertions in turn. -/
def insertEach (l : NameList) (names : List String) : NameList := names.foldl insert l

/-- **Behind insertions a list has repeats exactly if it had some before.** -/
theorem nodup_insertEach_iff (names : List String) :
    (l.insertEach names).names.Nodup ↔ l.names.Nodup := by
  induction names generalizing l with
  | nil => exact Iff.rfl
  | cons name names ih => exact ih.trans nodup_insert_iff

/-- **Lists from data, and insertions.** A list that can be read holds the texts of an array, as
they stand there. Behind any insertions:
* a list that was empty at first has no repeats;
* one that was read has repeats exactly if it was read with some;
* for either of them one more insertion says that a name is new exactly if it is not there, and then
  puts it at the end, and otherwise leaves the names as they are. -/
theorem insertEach_of_decode {json : Json} {start : NameList} (h : decode? json = some start)
    (names : List String) :
    json = .texts start.names ∧
      ((∅ : NameList).insertEach names).names.Nodup ∧
      ((start.insertEach names).names.Nodup ↔ start.names.Nodup) ∧
      ∀ l ∈ [(∅ : NameList).insertEach names, start.insertEach names], ∀ name,
        ((l.add name).2 = true ↔ name ∉ l.names) ∧
          (l.add name).1.names = if name ∈ l.names then l.names else l.names ++ [name] :=
  ⟨decode?_nameList_iff.mp h, (nodup_insertEach_iff names).mpr List.nodup_nil,
    nodup_insertEach_iff names, fun l _ name => ⟨add_snd_iff, names_add l name⟩⟩

/-- A name that is read twice and inserted once more stands there twice. -/
theorem insertEach_of_decode_repeated :
    let start : NameList := { names := ["a", "b", "a"] }
    let l := start.insertEach ["a", "c"]
    decode? (.texts ["a", "b", "a"]) = some start ∧ l.names = ["a", "b", "a", "c"] ∧
      (l.names.Nodup ↔ start.names.Nodup) ∧ (l.add "a").2 = false ∧ (l.add "d").2 = true := by
  intro start l
  have hread : decode? (.texts ["a", "b", "a"]) = some start := decode?_nameList_iff.mpr rfl
  obtain ⟨-, -, hnodup, hadd⟩ := insertEach_of_decode hread ["a", "c"]
  have hl : l ∈ [(∅ : NameList).insertEach ["a", "c"], start.insertEach ["a", "c"]] :=
    List.mem_cons_of_mem _ List.mem_cons_self
  have hknown : ¬ (l.add "a").2 = true := fun hnew => (hadd l hl "a").1.mp hnew (by decide)
  exact ⟨hread, by decide, hnodup, Bool.eq_false_iff.mpr hknown, (hadd l hl "d").1.mpr (by decide)⟩

/-- **Repeats are read**: a list that is accepted from data can hold a name twice, and does so
behind insertions as well. -/
theorem exists_repeats_of_decode :
    ∃ start : NameList, decode? (.texts ["a", "b", "a"]) = some start ∧
      ¬ (start.insertEach ["a", "c"]).names.Nodup :=
  ⟨{ names := ["a", "b", "a"] }, decode?_nameList_iff.mpr rfl, by decide⟩

end NameList

end MoveDesk
