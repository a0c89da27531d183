import MoveDesk.Text.Find

/-!
# Cutting a text at the first place of another

`FirstBehind needle before` says that the needle, written behind `before`, has no earlier place
there. `cut?_eq_some_iff` and `cut?_eq_none_iff` say all that `cut?` does, and `occursIn_iff` what
`occursIn` does.
-/

namespace MoveDesk.Text

/-! ## Places of a text -/

theorem occursIn_iff {needle text : List Char} :
    occursIn needle text = true ↔ needle <:+: text := by
  induction text with
  | nil => simp [occursIn, List.isEmpty_iff]
  | cons c rest ih =>
    rw [occursIn, Bool.or_eq_true, List.isPrefixOf_iff_prefix, ih, List.infix_cons_iff]

section Avoiding

variable {needle a b : List Char} {c : Char}

/-- A prefix that does not hold the character ends before it. -/
theorem prefix_of_prefix_append_cons (hc : c ∉ needle) (h : needle <+: a ++ c :: b) :
    needle <+: a := by
  rcases List.prefix_or_prefix_of_prefix h (List.prefix_append a (c :: b)) with h | ⟨rest, rfl⟩
  · exact h
  · cases rest with
    | nil => simp
    | cons d rest =>
      obtain ⟨rfl, -⟩ := List.cons_prefix_cons.mp ((List.prefix_append_right_inj a).mp h)
      exact absurd (List.mem_append_right a List.mem_cons_self) hc

/-- A needle that does not hold the character stands on one side of it. -/
theorem infix_append_cons_iff (hc : c ∉ needle) :
    needle <:+: a ++ c :: b ↔ needle <:+: a ∨ needle <:+: b := by
  refine ⟨fun h => ?_, ?_⟩
  · induction a with
    | nil =>
      rcases List.infix_cons_iff.mp h with h | h
      · exact Or.inl (prefix_of_prefix_append_cons (a := []) hc h).isInfix
      · exact Or.inr h
    | cons x a ih =>
      rcases List.infix_cons_iff.mp h with h | h
      · exact Or.inl (prefix_of_prefix_append_cons (a := x :: a) hc h).isInfix
      · exact (ih h).imp_left List.infix_cons
  · rintro (h | h)
    · exact h.trans (List.prefix_append a (c :: b)).isInfix
    · exact h.trans ((List.suffix_cons c b).trans (List.suffix_append a (c :: b))).isInfix

end Avoiding

/-! ## Cutting -/

/-- The end of `before ++ needle` is the first place of the needle in it. -/
def FirstBehind (needle before : List Char) : Prop :=
  ∀ a b, before ++ needle = a ++ needle ++ b → b = []

variable {needle : List Char}

theorem firstBehind_nil (needle : List Char) : FirstBehind needle [] := by
  intro a b h
  have hlength := congrArg List.length h
  simp only [List.nil_append, List.length_append] at hlength
  exact List.length_eq_zero_iff.mp (by omega)

/-- A needle that stands at the start already has its first place there. -/
theorem FirstBehind.eq_nil_of_prefix {before after : List Char} (h : FirstBehind needle before)
    (hfront : needle <+: before ++ needle ++ after) : before = [] := by
  have hle : needle.length ≤ (before ++ needle).length := by simp
  obtain ⟨b, hb⟩ :=
    List.prefix_of_prefix_length_le hfront (List.prefix_append (before ++ needle) after) hle
  have hnil := h [] b hb.symm
  rw [hnil, List.append_nil] at hb
  have hlength := congrArg List.length hb
  simp only [List.length_append] at hlength
  exact List.length_eq_zero_iff.mp (by omega)

theorem FirstBehind.tail {c : Char} {before : List Char} (h : FirstBehind needle (c :: before)) :
    FirstBehind needle before := by
  intro a b hab
  refine h (c :: a) b ?_
  rw [List.cons_append, hab, List.cons_append, List.cons_append]

theorem FirstBehind.cons {c : Char} {before after : List Char} (h : FirstBehind needle before)
    (hfront : ¬ needle <+: c :: (before ++ needle ++ after)) :
    FirstBehind needle (c :: before) := by
  intro a b hab
  cases a with
  | nil =>
    refine absurd ⟨b ++ after, ?_⟩ hfront
    rw [List.nil_append, List.cons_append] at hab
    rw [← List.cons_append, hab, List.append_assoc]
  | cons d a =>
    simp only [List.cons_append, List.cons.injEq] at hab
    exact h a b hab.2

/-- In text before the first place of a needle the needle has no place. -/
theorem FirstBehind.not_infix {before : List Char} (h : FirstBehind needle before)
    (hneedle : needle ≠ []) : ¬ needle <:+: before := by
  rintro ⟨a, b, rfl⟩
  have hnil := h a (b ++ needle) (by simp only [List.append_assoc])
  exact hneedle (List.append_eq_nil_iff.mp hnil).2

/-- Text without the first character of the needle stands before its first place. -/
theorem firstBehind_of_notMem {c : Char} {text : List Char} (h : c ∉ text) :
    FirstBehind (c :: needle) text := by
  induction text with
  | nil => exact firstBehind_nil (c :: needle)
  | cons d text ih =>
    obtain ⟨hd, htext⟩ := not_or.mp (mt List.mem_cons.mpr h)
    have hfront : ¬ c :: needle <+: d :: (text ++ (c :: needle) ++ []) := fun hprefix =>
      hd (List.cons_prefix_cons.mp hprefix).1
    exact (ih htext).cons hfront

theorem firstBehind_singleton_iff {c : Char} {text : List Char} :
    FirstBehind [c] text ↔ c ∉ text := by
  refine ⟨fun h hmem => ?_, firstBehind_of_notMem⟩
  obtain ⟨a, b, rfl⟩ := List.append_of_mem hmem
  exact h.not_infix (List.cons_ne_nil c []) ⟨a, b, by simp⟩

theorem go_cut?_eq_some_iff {passed text before after : List Char} :
    cut?.go needle passed text = some (before, after) ↔
      ∃ front, before = passed.reverse ++ front ∧ text = front ++ needle ++ after ∧
        FirstBehind needle front := by
  induction text generalizing passed with
  | nil =>
    simp only [cut?.go]
    constructor
    · intro h
      split at h
      · rename_i hempty
        obtain ⟨rfl, rfl⟩ := Prod.mk.inj (Option.some.inj h)
        exact ⟨[], by simp, by simp [List.isEmpty_iff.mp hempty], firstBehind_nil needle⟩
      · cases h
    · rintro ⟨front, rfl, htext, -⟩
      simp only [List.nil_eq, List.append_eq_nil_iff] at htext
      obtain ⟨⟨rfl, rfl⟩, rfl⟩ := htext
      simp
  | cons c rest ih =>
    simp only [cut?.go]
    by_cases hfront : needle <+: c :: rest
    · rw [if_pos (List.isPrefixOf_iff_prefix.mpr hfront)]
      constructor
      · intro h
        obtain ⟨rfl, rfl⟩ := Prod.mk.inj (Option.some.inj h)
        obtain ⟨after, hafter⟩ := hfront
        refine ⟨[], by simp, ?_, firstBehind_nil needle⟩
        rw [List.nil_append, ← hafter, List.drop_left]
      · rintro ⟨front, rfl, htext, hfirst⟩
        rw [htext] at hfront ⊢
        rw [hfirst.eq_nil_of_prefix hfront]
        simp
    · rw [if_neg (mt List.isPrefixOf_iff_prefix.mp hfront), ih]
      constructor
      · rintro ⟨front, rfl, rfl, hfirst⟩
        exact ⟨c :: front, by simp, rfl, hfirst.cons hfront⟩
      · rintro ⟨front, rfl, htext, hfirst⟩
        cases front with
        | nil => exact absurd ⟨after, htext.symm⟩ hfront
        | cons d front =>
          obtain ⟨rfl, rfl⟩ := List.cons.inj htext
          exact ⟨front, by simp, rfl, hfirst.tail⟩

/-- **`cut?` cuts at the first place.** -/
theorem cut?_eq_some_iff {text before after : List Char} :
    cut? needle text = some (before, after) ↔
      text = before ++ needle ++ after ∧ FirstBehind needle before := by
  unfold cut?
  rw [go_cut?_eq_some_iff]
  simp

theorem go_cut?_eq_none {passed text : List Char} (h : cut?.go needle passed text = none) :
    ¬ needle <:+: text := by
  induction text generalizing passed with
  | nil =>
    simp only [cut?.go] at h
    split at h
    · cases h
    · rename_i hempty
      rw [List.infix_nil]
      exact mt List.isEmpty_iff.mpr hempty
  | cons c rest ih =>
    simp only [cut?.go] at h
    split at h
    · cases h
    · rename_i hfront
      rw [List.infix_cons_iff, not_or]
      exact ⟨mt List.isPrefixOf_iff_prefix.mpr hfront, ih h⟩

/-- **`cut?` fails exactly where the needle stands nowhere.** -/
theorem cut?_eq_none_iff {text : List Char} : cut? needle text = none ↔ ¬ needle <:+: text := by
  refine ⟨go_cut?_eq_none, fun h => ?_⟩
  cases hcut : cut? needle text with
  | none => rfl
  | some cut => exact absurd ⟨cut.1, cut.2, (cut?_eq_some_iff.mp hcut).1.symm⟩ h

/-- Where the needle does not stand at the front, it is sought behind the first character. -/
theorem cut?_cons_of_not_front {c : Char} {text : List Char} (h : ¬ needle <+: c :: text) :
    cut? needle (c :: text) = (cut? needle text).map fun cut => (c :: cut.1, cut.2) := by
  cases hcut : cut? needle text with
  | none =>
    rw [Option.map_none, cut?_eq_none_iff, List.infix_cons_iff, not_or]
    exact ⟨h, cut?_eq_none_iff.mp hcut⟩
  | some cut =>
    obtain ⟨before, after⟩ := cut
    obtain ⟨rfl, hfirst⟩ := cut?_eq_some_iff.mp hcut
    exact cut?_eq_some_iff.mpr ⟨rfl, hfirst.cons h⟩

/-- What stands behind any place of the needle stands at the end of what is behind the first. -/
theorem FirstBehind.suffix {before after a b : List Char} (h : FirstBehind needle before)
    (heq : before ++ needle ++ after = a ++ needle ++ b) : b <:+ after := by
  rcases List.append_eq_append_iff.mp heq with ⟨mid, -, hmid⟩ | ⟨mid, hbefore, hmid⟩
  · exact ⟨mid, hmid.symm⟩
  · rw [h a mid hbefore, List.nil_append] at hmid
    exact hmid ▸ List.suffix_refl after

end MoveDesk.Text
