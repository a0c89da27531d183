import MoveDesk.Text.Blank
import MoveDesk.Text.Find

/-!
# Placeholders

A template text holds placeholders, written between two pairs of braces. A placeholder runs from
the first opening to the first closing behind it; an opening that is never closed is literal text.
`substitute` writes the text with values in the place of placeholders, `placeholders` lists their
keys. Both go through the text once, so that a value is never read for placeholders.
-/

namespace MoveDesk.Text

theorem length_of_go_cut? {needle passed text before after : List Char}
    (h : cut?.go needle passed text = some (before, after)) :
    after.length + needle.length ≤ text.length := by
  induction text generalizing passed with
  | nil =>
    simp only [cut?.go] at h
    split at h
    · rename_i hempty
      obtain ⟨-, rfl⟩ := Prod.mk.inj (Option.some.inj h)
      simp [List.isEmpty_iff.1 hempty]
    · cases h
  | cons c rest ih =>
    simp only [cut?.go] at h
    split at h
    · rename_i hprefix
      obtain ⟨-, rfl⟩ := Prod.mk.inj (Option.some.inj h)
      have := (List.isPrefixOf_iff_prefix.1 hprefix).length_le
      simp only [List.length_drop, List.length_cons] at this ⊢
      omega
    · have := ih h
      simp only [List.length_cons]
      omega

/-- What stands behind the needle is shorter than the text by at least the needle. -/
theorem length_of_cut?_eq_some {needle text before after : List Char}
    (h : cut? needle text = some (before, after)) :
    after.length + needle.length ≤ text.length :=
  length_of_go_cut? h

end MoveDesk.Text

namespace MoveDesk.Template

/-- The opening of a placeholder. -/
def opening : List Char := ['{', '{']

/-- The closing of a placeholder. -/
def closing : List Char := ['}', '}']

/-- The key of a placeholder: the text between the braces, trimmed. -/
def key (inner : List Char) : String := String.ofList (Text.trim inner)

/-- What stands behind a placeholder is shorter than the text it is in. -/
theorem length_behind_placeholder {text before inside inner rest : List Char}
    (hopen : Text.cut? opening text = some (before, inside))
    (hclose : Text.cut? closing inside = some (inner, rest)) : rest.length < text.length := by
  have h₁ := Text.length_of_cut?_eq_some hopen
  have h₂ := Text.length_of_cut?_eq_some hclose
  simp only [opening, closing, List.length_cons, List.length_nil] at h₁ h₂
  omega

/-- What is written for a placeholder: the first value bound to its key, or itself. -/
def fill (bindings : List (String × String)) (inner : List Char) : List Char :=
  match bindings.lookup (key inner) with
  | some value => value.toList
  | none => opening ++ inner ++ closing

/-- The template text with every bound placeholder replaced by its value. -/
def substitute (template : String) (bindings : List (String × String)) : String :=
  String.ofList (go [] template.toList)
where
  /-- Goes on behind the parts `written`, held in reverse. -/
  go (written : List (List Char)) (text : List Char) : List Char :=
    match _hopen : Text.cut? opening text with
    | none => (text :: written).reverse.flatten
    | some (before, inside) =>
      match _hclose : Text.cut? closing inside with
      | none => (text :: written).reverse.flatten
      | some (inner, rest) => go (fill bindings inner :: before :: written) rest
  termination_by text.length
  decreasing_by exact length_behind_placeholder _hopen _hclose

theorem substitute_ofList (template : List Char) (bindings : List (String × String)) :
    substitute (String.ofList template) bindings =
      String.ofList (substitute.go bindings [] template) := by
  rw [substitute, String.toList_ofList]

/-- The keys of the placeholders, in order and with repeats. -/
def placeholders (template : String) : List String :=
  go [] template.toList
where
  /-- Goes on behind the keys `found`, held in reverse. -/
  go (found : List String) (text : List Char) : List String :=
    match _hopen : Text.cut? opening text with
    | none => found.reverse
    | some (_, inside) =>
      match _hclose : Text.cut? closing inside with
      | none => found.reverse
      | some (inner, rest) => go (key inner :: found) rest
  termination_by text.length
  decreasing_by exact length_behind_placeholder _hopen _hclose

end MoveDesk.Template
