/-!
# Pieces of a text

`split` cuts a list at each place of a separator, which is dropped; `lines` cuts it behind each,
which stays at the end of its line, and has no empty line at the end.
-/

namespace MoveDesk.Text

variable {α : Type} [DecidableEq α]

/-- The pieces between the separators: always one more than there are separators. -/
def split (separator : α) : List α → List (List α)
  | [] => [[]]
  | a :: rest =>
    match split separator rest with
    | [] => []
    | piece :: pieces =>
      if a = separator then [] :: piece :: pieces else (a :: piece) :: pieces

theorem split_ne_nil (separator : α) (text : List α) : split separator text ≠ [] := by
  induction text with
  | nil => simp [split]
  | cons a rest ih =>
    simp only [split]
    split
    · contradiction
    · split <;> simp

/-- The pieces with the separator between them are the text. -/
theorem intercalate_split (separator : α) (text : List α) :
    [separator].intercalate (split separator text) = text := by
  induction text with
  | nil => rfl
  | cons a rest ih =>
    simp only [split]
    split
    · rename_i hnil
      exact absurd hnil (split_ne_nil separator rest)
    · rename_i piece pieces hsplit
      rw [hsplit] at ih
      split
      · rename_i heq
        subst heq
        simp only [List.intercalate, List.intersperse_cons_cons, List.flatten_cons] at ih ⊢
        simpa [List.intercalate] using ih
      · cases pieces <;> simp_all [List.intercalate]

/-- A separator cuts the text in two. -/
theorem split_append_cons (separator : α) (front rest : List α) :
    split separator (front ++ separator :: rest) =
      split separator front ++ split separator rest := by
  induction front with
  | nil =>
    cases hrest : split separator rest with
    | nil => exact absurd hrest (split_ne_nil separator rest)
    | cons piece pieces => simp only [List.nil_append, split, hrest, if_true, List.singleton_append]
  | cons a front ih =>
    simp only [List.cons_append, split, ih]
    cases hfront : split separator front with
    | nil => exact absurd hfront (split_ne_nil separator front)
    | cons piece pieces =>
      simp only [List.cons_append]
      split <;> rfl

/-- A text without the separator is a single piece. -/
theorem split_of_notMem {separator : α} {text : List α} (h : separator ∉ text) :
    split separator text = [text] := by
  induction text with
  | nil => rfl
  | cons a rest ih =>
    obtain ⟨hne, hrest⟩ := List.ne_and_not_mem_of_not_mem_cons h
    simp only [split, ih hrest, if_neg hne.symm]

/-- The lines, each with the mark at its end, which the last one may lack. -/
def lines (mark : α) : List α → List (List α)
  | [] => []
  | a :: rest =>
    if a = mark then [a] :: lines mark rest
    else
      match lines mark rest with
      | [] => [[a]]
      | line :: others => (a :: line) :: others

theorem flatten_lines (mark : α) (text : List α) : (lines mark text).flatten = text := by
  induction text with
  | nil => rfl
  | cons a rest ih =>
    simp only [lines]
    split
    · simp [ih]
    · split <;> simp_all

end MoveDesk.Text
