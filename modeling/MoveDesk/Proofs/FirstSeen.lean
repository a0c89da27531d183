import MoveDesk.Context

/-!
# Names in order of first appearance

`List.eraseDups` keeps the first of equal entries. It is the reference here: a name list into which
names were inserted holds what it held before, and behind it the names that it did not hold, each
once, in the order of their first appearance (`insertAll_eq`). The number that `insertAll` returns
is the number of these names.
-/

namespace MoveDesk

/-! ## First appearances -/

section FirstAppearance

variable {α : Type} [BEq α] [LawfulBEq α]

theorem nodup_eraseDups : ∀ l : List α, l.eraseDups.Nodup
  | [] => by simp
  | a :: l => by
    have hlt := List.length_filter_le (fun b => !b == a) l
    rw [List.eraseDups_cons, List.nodup_cons]
    refine ⟨?_, nodup_eraseDups _⟩
    rw [List.mem_eraseDups, List.mem_filter]
    simp
termination_by l => l.length
decreasing_by simp only [List.length_cons]; omega

/-- A list without repeats is its own list of first appearances. -/
theorem eraseDups_eq_self {l : List α} (h : l.Nodup) : l.eraseDups = l := by
  induction l with
  | nil => rfl
  | cons a l ih =>
    obtain ⟨ha, hl⟩ := List.nodup_cons.mp h
    have hfilter : (l.filter fun b => !b == a) = l := by
      refine List.filter_eq_self.mpr fun b hb => ?_
      have hne : b ≠ a := fun heq => ha (heq ▸ hb)
      simpa using hne
    rw [List.eraseDups_cons, hfilter, ih hl]

theorem mem_removeAll {a : α} {xs ys : List α} : a ∈ xs.removeAll ys ↔ a ∈ xs ∧ a ∉ ys := by
  simp [List.removeAll]

/-- What is not in `ys` and not `a`, is what is not in `ys` with `a` behind it. -/
theorem removeAll_concat (xs ys : List α) (a : α) :
    xs.removeAll (ys ++ [a]) = (xs.removeAll ys).filter fun b => !b == a := by
  simp only [List.removeAll, List.filter_filter]
  refine List.filter_congr fun b _ => ?_
  by_cases hb : b = a <;> simp [hb]

end FirstAppearance

/-! ## Inserting names -/

namespace NameList

theorem contains_iff {l : NameList} {name : String} : l.contains name = true ↔ name ∈ l.names := by
  simp [contains]

theorem insert_of_mem {l : NameList} {name : String} (h : name ∈ l.names) : l.insert name = l :=
  if_pos (contains_iff.mpr h)

theorem names_insert_of_notMem {l : NameList} {name : String} (h : name ∉ l.names) :
    (l.insert name).names = l.names ++ [name] := by
  unfold insert
  rw [if_neg (mt contains_iff.mp h)]

theorem nodup_insert {l : NameList} (h : l.names.Nodup) (name : String) :
    (l.insert name).names.Nodup := by
  by_cases hname : name ∈ l.names
  · rwa [insert_of_mem hname]
  · rw [names_insert_of_notMem hname]
    exact List.nodup_append.mpr ⟨h, by simp, fun a ha b hb heq => by
      rw [List.mem_singleton] at hb
      exact hname (hb ▸ heq ▸ ha)⟩

/-- The names that are not in the list, each once, in order of first appearance. -/
def fresh (l : NameList) (names : List String) : List String :=
  (names.removeAll l.names).eraseDups

theorem mem_fresh {l : NameList} {names : List String} {name : String} :
    name ∈ l.fresh names ↔ name ∈ names ∧ name ∉ l.names := by
  rw [fresh, List.mem_eraseDups, mem_removeAll]

theorem fresh_cons_of_mem {l : NameList} {name : String} (h : name ∈ l.names)
    (names : List String) : l.fresh (name :: names) = l.fresh names := by
  unfold fresh
  rw [List.cons_removeAll, if_neg (by simp [h])]

theorem fresh_cons_of_notMem {l : NameList} {name : String} (h : name ∉ l.names)
    (names : List String) :
    l.fresh (name :: names) = name :: (l.insert name).fresh names := by
  unfold fresh
  rw [List.cons_removeAll, if_pos (by simp [h]), List.eraseDups_cons, names_insert_of_notMem h,
    removeAll_concat]

/-- The fresh names among two lists are those of the first, and then those of the second that are
fresh behind the first. -/
theorem fresh_append (l : NameList) (xs ys : List String) :
    l.fresh (xs ++ ys) = l.fresh xs ++ fresh { names := l.names ++ l.fresh xs } ys := by
  induction xs generalizing l with
  | nil => simp [fresh]
  | cons x xs ih =>
    rw [List.cons_append]
    by_cases hx : x ∈ l.names
    · rw [fresh_cons_of_mem hx, fresh_cons_of_mem hx, ih]
    · rw [fresh_cons_of_notMem hx, fresh_cons_of_notMem hx, ih, names_insert_of_notMem hx]
      simp only [List.cons_append, List.append_assoc, List.nil_append]

/-- The step of `insertAll`: one name is inserted, and counted if it is new. -/
def insertCounting (state : NameList × Nat) (name : String) : NameList × Nat :=
  (state.1.insert name, if state.1.contains name then state.2 else state.2 + 1)

theorem foldl_insertCounting (names : List String) : ∀ (l : NameList) (new : Nat),
    names.foldl insertCounting (l, new) =
      ({ names := l.names ++ l.fresh names }, new + (l.fresh names).length) := by
  induction names with
  | nil => intro l new; simp [fresh]
  | cons name names ih =>
    intro l new
    rw [List.foldl_cons, insertCounting, ih]
    by_cases hname : name ∈ l.names
    · rw [insert_of_mem hname, fresh_cons_of_mem hname, if_pos (contains_iff.mpr hname)]
    · rw [fresh_cons_of_notMem hname, names_insert_of_notMem hname,
        if_neg (mt contains_iff.mp hname)]
      simp only [List.append_assoc, List.singleton_append, List.length_cons, Prod.mk.injEq,
        true_and]
      omega

/-- **Inserting names in turn appends the fresh ones**, and counts them. -/
theorem insertAll_eq (l : NameList) (names : List String) :
    l.insertAll names = ({ names := l.names ++ l.fresh names }, (l.fresh names).length) := by
  have h := foldl_insertCounting names l 0
  rwa [Nat.zero_add] at h

/-- What a list without repeats holds behind the insertion of names are the first appearances in
the list and the names together. -/
theorem append_fresh_eq_eraseDups {l : NameList} (h : l.names.Nodup) (names : List String) :
    l.names ++ l.fresh names = (l.names ++ names).eraseDups := by
  rw [List.eraseDups_append, eraseDups_eq_self h, fresh]

end NameList

end MoveDesk
