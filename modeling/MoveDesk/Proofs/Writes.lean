import Mathlib.Data.List.Nodup
import MoveDesk.Parameters

/-!
# What is set after writes

Parameters are a map, and the last value written under a name is the one that is there
(`lookup_ofList`). An empty value is there as well, and hides what was written before it; it is only
where a value is asked for that it counts as none (`getD_eq`).
-/

namespace MoveDesk

/-! ## Lookups -/

theorem lookup_cons_eq_ite {β : Type} (entry : String × β) (rest : List (String × β))
    (key : String) :
    (entry :: rest).lookup key = if key = entry.1 then some entry.2 else rest.lookup key := by
  rw [List.lookup_cons]
  by_cases hkey : key = entry.1
  · rw [if_pos hkey, beq_iff_eq.mpr hkey]
  · rw [if_neg hkey, beq_eq_false_iff_ne.mpr hkey]

/-- Where no name stands twice, the entries of a name are what is found under it. -/
theorem lookup_eq_some_iff_of_nodup {β : Type} {entries : List (String × β)}
    (h : (entries.map (·.1)).Nodup) {name : String} {value : β} :
    entries.lookup name = some value ↔ (name, value) ∈ entries := by
  induction entries with
  | nil => simp
  | cons entry rest ih =>
    obtain ⟨hentry, hrest⟩ := List.nodup_cons.mp h
    rw [lookup_cons_eq_ite, List.mem_cons]
    by_cases hname : name = entry.1
    · subst hname
      have hnot : (entry.1, value) ∉ rest := fun hmem =>
        hentry (List.mem_map.mpr ⟨_, hmem, rfl⟩)
      rw [if_pos rfl, or_iff_left hnot]
      constructor
      · rintro ⟨⟩
        rfl
      · intro heq
        rw [← heq]
    · have hne : (name, value) ≠ entry := fun heq => hname (congrArg Prod.fst heq)
      rw [if_neg hname, ih hrest, or_iff_right hne]

/-- Where no name stands twice, it makes no difference where a search starts. -/
theorem lookup_reverse_of_nodup {β : Type} {entries : List (String × β)}
    (h : (entries.map (·.1)).Nodup) (name : String) :
    entries.reverse.lookup name = entries.lookup name := by
  have hreverse : (entries.reverse.map (·.1)).Nodup := by
    rw [List.map_reverse]
    exact List.nodup_reverse.mpr h
  refine Option.ext fun value => ?_
  rw [lookup_eq_some_iff_of_nodup hreverse, lookup_eq_some_iff_of_nodup h, List.mem_reverse]

namespace Parameters

/-! ## Parameters -/

/-- The value that is there if it is not empty, and the default otherwise. -/
theorem getD_eq (params : Parameters) (name default : String) :
    params.getD name default =
      match params.entries.lookup name with
      | none => default
      | some value => if value = "" then default else value := by
  rw [getD, get?]
  cases params.entries.lookup name with
  | none => rfl
  | some value =>
    by_cases hvalue : value = ""
    · simp [hvalue, Option.filter]
    · simp [hvalue, Option.filter]

/-- A write is read back under its name, and under no other. -/
theorem lookup_write (name value key : String) (entries : List (String × String)) :
    (write name value entries).lookup key =
      if key = name then some value else entries.lookup key := by
  induction entries with
  | nil => exact lookup_cons_eq_ite (name, value) [] key
  | cons entry rest ih =>
    rw [write]
    split
    · exact lookup_cons_eq_ite (name, value) (entry :: rest) key
    · split
      · rename_i hname
        rw [lookup_cons_eq_ite, lookup_cons_eq_ite, hname]
        split <;> rfl
      · rename_i hname
        rw [lookup_cons_eq_ite, lookup_cons_eq_ite, ih]
        by_cases hentry : key = entry.1
        · have hkey : key ≠ name := fun h => hname (h.symm.trans hentry)
          rw [if_pos hentry, if_pos hentry, if_neg hkey]
        · rw [if_neg hentry, if_neg hentry]

/-- Entries kept by their names are found, and the others are not. -/
theorem lookup_filter (keep : String → Bool) (entries : List (String × String)) (key : String) :
    (entries.filter fun entry => keep entry.1).lookup key =
      if keep key then entries.lookup key else none := by
  induction entries with
  | nil => split <;> rfl
  | cons entry rest ih =>
    rw [List.filter_cons, lookup_cons_eq_ite]
    by_cases hkey : key = entry.1
    · subst hkey
      by_cases hkeep : keep entry.1 = true
      · rw [if_pos hkeep, if_pos hkeep, lookup_cons_eq_ite, if_pos rfl, if_pos rfl]
      · rw [if_neg hkeep, if_neg hkeep, ih, if_neg hkeep]
    · by_cases hkeep : keep entry.1 = true
      · rw [if_pos hkeep, lookup_cons_eq_ite, if_neg hkey, if_neg hkey, ih]
      · rw [if_neg hkeep, if_neg hkey, ih]

theorem lookup_insert (params : Parameters) (name value key : String) :
    (params.insert name value).entries.lookup key =
      if key = name then some value else params.entries.lookup key :=
  lookup_write name value key params.entries

/-- Writes on top of a map: the last one under a name is there, or else what was. -/
theorem lookup_foldl_insert (params : Parameters) (writes : List (String × String)) (key : String) :
    (writes.foldl (fun params write => params.insert write.1 write.2) params).entries.lookup key =
      (writes.reverse.lookup key).or (params.entries.lookup key) := by
  induction writes generalizing params with
  | nil => rfl
  | cons write rest ih =>
    rw [List.foldl_cons, ih, lookup_insert, List.reverse_cons, List.lookup_append, Option.or_assoc,
      lookup_cons_eq_ite]
    split <;> rfl

/-- **The last value written under a name is there.** -/
theorem lookup_ofList (writes : List (String × String)) (key : String) :
    (ofList writes).entries.lookup key = writes.reverse.lookup key := by
  rw [ofList, lookup_foldl_insert]
  exact Option.or_none

theorem ofList_append (writes more : List (String × String)) :
    ofList (writes ++ more) =
      more.foldl (fun params write => params.insert write.1 write.2) (ofList writes) := by
  rw [ofList, List.foldl_append]
  rfl

end Parameters

end MoveDesk
