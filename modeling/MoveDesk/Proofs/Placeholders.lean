import MoveDesk.Proofs.Find
import MoveDesk.Template.Placeholder

/-!
# One decomposition behind substitution and listing

`substitute` and `placeholders` each go through a template text on their own. `Decomposes` says,
without either, how a text falls into placeholders and the text around them. A text has exactly one
decomposition (`exists_decomposes`, `Decomposes.unique`), and both functions follow it.

Headline:
* **`substitute_follows_placeholders`**: the keys that are listed and the values that are written
  are those of the one decomposition.
-/

namespace MoveDesk.Template

/-! ## Decompositions -/

/-- A placeholder in a text, with the text between the one before and it. -/
structure Hole where
  /-- The text between the placeholder before and the opening. -/
  before : List Char
  /-- The text between the braces. -/
  inner : List Char
deriving DecidableEq, Repr

namespace Hole

/-- The placeholder as it stands in the template. -/
def braced (hole : Hole) : List Char := opening ++ hole.inner ++ closing

/-- The text up to the end of the placeholder. -/
def raw (hole : Hole) : List Char := hole.before ++ hole.braced

/-- The name in the placeholder: the text between the braces, without the blanks around it. -/
def name (hole : Hole) : String := String.ofList (Text.trim hole.inner)

/-- The value for the placeholder: the first one bound to its name, or the placeholder itself. -/
def value (bindings : List (String × String)) (hole : Hole) : List Char :=
  match bindings.lookup hole.name with
  | some value => value.toList
  | none => hole.braced

end Hole

/-- The text falls into the holes and the text `last` behind them: every opening is the first one
behind the hole before, every closing the first one behind its opening, and no placeholder is left
in `last`. -/
structure Decomposes (text : List Char) (holes : List Hole) (last : List Char) : Prop where
  text_eq : text = holes.flatMap Hole.raw ++ last
  opens : ∀ hole ∈ holes, Text.FirstBehind opening hole.before
  closes : ∀ hole ∈ holes, Text.FirstBehind closing hole.inner
  rests : ∀ a b c, last ≠ a ++ opening ++ b ++ closing ++ c

/-! ## The first hole -/

/-- The first placeholder of a text and what is left behind it. -/
def firstHole? (text : List Char) : Option (Hole × List Char) :=
  match Text.cut? opening text with
  | none => none
  | some (before, inside) =>
    match Text.cut? closing inside with
    | none => none
    | some (inner, rest) => some (⟨before, inner⟩, rest)

theorem firstHole?_eq_some_iff {text rest : List Char} {hole : Hole} :
    firstHole? text = some (hole, rest) ↔
      text = hole.raw ++ rest ∧ Text.FirstBehind opening hole.before ∧
        Text.FirstBehind closing hole.inner := by
  unfold firstHole?
  constructor
  · intro h
    split at h
    · cases h
    · rename_i hopen
      split at h
      · cases h
      · rename_i hclose
        obtain ⟨rfl, rfl⟩ := Prod.mk.inj (Option.some.inj h)
        obtain ⟨rfl, hfirst⟩ := Text.cut?_eq_some_iff.mp hopen
        obtain ⟨rfl, hlast⟩ := Text.cut?_eq_some_iff.mp hclose
        refine ⟨?_, hfirst, hlast⟩
        simp only [Hole.raw, Hole.braced, List.append_assoc]
  · rintro ⟨rfl, hfirst, hlast⟩
    have hopen : Text.cut? opening (hole.raw ++ rest) =
        some (hole.before, hole.inner ++ closing ++ rest) := by
      refine Text.cut?_eq_some_iff.mpr ⟨?_, hfirst⟩
      simp only [Hole.raw, Hole.braced, List.append_assoc]
    have hclose : Text.cut? closing (hole.inner ++ closing ++ rest) = some (hole.inner, rest) :=
      Text.cut?_eq_some_iff.mpr ⟨rfl, hlast⟩
    simp only [hopen, hclose]

theorem firstHole?_eq_none_iff {text : List Char} :
    firstHole? text = none ↔ ∀ a b c, text ≠ a ++ opening ++ b ++ closing ++ c := by
  unfold firstHole?
  constructor
  · rintro h a b c rfl
    split at h
    · rename_i hopen
      refine Text.cut?_eq_none_iff.mp hopen ⟨a, b ++ closing ++ c, ?_⟩
      simp only [List.append_assoc]
    · rename_i before inside hopen
      obtain ⟨htext, hfirst⟩ := Text.cut?_eq_some_iff.mp hopen
      -- the opening that is cut at is no later than this one, so this closing is behind it
      have hsuffix : b ++ closing ++ c <:+ inside := by
        refine hfirst.suffix (a := a) ?_
        rw [← htext]
        simp only [List.append_assoc]
      have hinside : closing <:+: inside := List.IsInfix.trans ⟨b, c, rfl⟩ hsuffix.isInfix
      split at h
      · rename_i hclose
        exact Text.cut?_eq_none_iff.mp hclose hinside
      · cases h
  · intro h
    split
    · rfl
    · rename_i before inside hopen
      split
      · rfl
      · rename_i inner rest hclose
        obtain ⟨rfl, -⟩ := Text.cut?_eq_some_iff.mp hopen
        obtain ⟨rfl, -⟩ := Text.cut?_eq_some_iff.mp hclose
        refine absurd ?_ (h before inner rest)
        simp only [List.append_assoc]

theorem decomposes_nil_iff {text last : List Char} :
    Decomposes text [] last ↔ text = last ∧ firstHole? text = none := by
  rw [firstHole?_eq_none_iff]
  constructor
  · rintro ⟨rfl, -, -, h⟩
    exact ⟨rfl, h⟩
  · rintro ⟨rfl, h⟩
    exact ⟨rfl, by simp, by simp, h⟩

theorem decomposes_cons_iff {text : List Char} {hole : Hole} {holes : List Hole}
    {last : List Char} :
    Decomposes text (hole :: holes) last ↔
      ∃ rest, firstHole? text = some (hole, rest) ∧ Decomposes rest holes last := by
  simp only [firstHole?_eq_some_iff]
  constructor
  · rintro ⟨rfl, hopens, hcloses, hrests⟩
    obtain ⟨hopen, hopens⟩ := List.forall_mem_cons.mp hopens
    obtain ⟨hclose, hcloses⟩ := List.forall_mem_cons.mp hcloses
    refine ⟨holes.flatMap Hole.raw ++ last, ⟨?_, hopen, hclose⟩, rfl, hopens, hcloses, hrests⟩
    rw [List.flatMap_cons, List.append_assoc]
  · rintro ⟨rest, ⟨rfl, hopen, hclose⟩, rfl, hopens, hcloses, hrests⟩
    refine ⟨?_, List.forall_mem_cons.mpr ⟨hopen, hopens⟩,
      List.forall_mem_cons.mpr ⟨hclose, hcloses⟩, hrests⟩
    rw [List.flatMap_cons, List.append_assoc]

/-! ## Existence and uniqueness -/

theorem length_lt_of_firstHole? {text rest : List Char} {hole : Hole}
    (h : firstHole? text = some (hole, rest)) : rest.length < text.length := by
  rw [(firstHole?_eq_some_iff.mp h).1]
  simp only [Hole.raw, Hole.braced, opening, List.length_append, List.length_cons]
  omega

theorem exists_decomposes (text : List Char) : ∃ holes last, Decomposes text holes last := by
  cases hfirst : firstHole? text with
  | none => exact ⟨[], text, decomposes_nil_iff.mpr ⟨rfl, hfirst⟩⟩
  | some found =>
    obtain ⟨hole, rest⟩ := found
    have hlt := length_lt_of_firstHole? hfirst
    obtain ⟨holes, last, hrest⟩ := exists_decomposes rest
    exact ⟨hole :: holes, last, decomposes_cons_iff.mpr ⟨rest, hfirst, hrest⟩⟩
termination_by text.length

theorem Decomposes.unique {text last last' : List Char} {holes holes' : List Hole}
    (h : Decomposes text holes last) (h' : Decomposes text holes' last') :
    holes = holes' ∧ last = last' := by
  induction holes generalizing text holes' with
  | nil =>
    obtain ⟨rfl, hnone⟩ := decomposes_nil_iff.mp h
    cases holes' with
    | nil => exact ⟨rfl, (decomposes_nil_iff.mp h').1⟩
    | cons hole' holes' =>
      obtain ⟨rest', hsome, -⟩ := decomposes_cons_iff.mp h'
      exact absurd (hnone.symm.trans hsome) (by simp)
  | cons hole holes ih =>
    obtain ⟨rest, hfirst, hrest⟩ := decomposes_cons_iff.mp h
    cases holes' with
    | nil => exact absurd ((decomposes_nil_iff.mp h').2.symm.trans hfirst) (by simp)
    | cons hole' holes' =>
      obtain ⟨rest', hfirst', hrest'⟩ := decomposes_cons_iff.mp h'
      obtain ⟨rfl, rfl⟩ := Prod.mk.inj (Option.some.inj (hfirst.symm.trans hfirst'))
      obtain ⟨rfl, hlast⟩ := ih hrest hrest'
      exact ⟨rfl, hlast⟩

/-! ## Both functions follow the decomposition -/

/-- What is written for a hole: the text before it, and its value. -/
def Hole.filled (bindings : List (String × String)) (hole : Hole) : List Char :=
  hole.before ++ hole.value bindings

/-- A turn of the loop of `substitute`. -/
theorem go_substitute_eq (bindings : List (String × String)) (written : List (List Char))
    (text : List Char) :
    substitute.go bindings written text =
      match firstHole? text with
      | none => written.reverse.flatten ++ text
      | some (hole, rest) =>
        substitute.go bindings (hole.value bindings :: hole.before :: written) rest := by
  rw [substitute.go]
  split
  · rename_i hopen
    simp [firstHole?, hopen]
  · rename_i before inside hopen
    split
    · rename_i hclose
      simp [firstHole?, hopen, hclose]
    · rename_i inner rest hclose
      simp only [firstHole?, hopen, hclose]
      rfl

/-- A turn of the loop of `placeholders`. -/
theorem go_placeholders_eq (found : List String) (text : List Char) :
    placeholders.go found text =
      match firstHole? text with
      | none => found.reverse
      | some (hole, rest) => placeholders.go (hole.name :: found) rest := by
  rw [placeholders.go]
  split
  · rename_i hopen
    simp [firstHole?, hopen]
  · rename_i before inside hopen
    split
    · rename_i hclose
      simp [firstHole?, hopen, hclose]
    · rename_i inner rest hclose
      simp only [firstHole?, hopen, hclose]
      rfl

/-- The loop of `substitute` writes the values of the holes between their texts. -/
theorem go_substitute {bindings : List (String × String)} {text last : List Char}
    {holes : List Hole} (h : Decomposes text holes last) (written : List (List Char)) :
    substitute.go bindings written text =
      written.reverse.flatten ++ holes.flatMap (Hole.filled bindings) ++ last := by
  induction holes generalizing text written with
  | nil =>
    obtain ⟨rfl, hnone⟩ := decomposes_nil_iff.mp h
    rw [go_substitute_eq, hnone]
    simp
  | cons hole holes ih =>
    obtain ⟨rest, hfirst, hrest⟩ := decomposes_cons_iff.mp h
    rw [go_substitute_eq, hfirst]
    simp only [ih hrest]
    simp [Hole.filled]

/-- The loop of `placeholders` lists the names of the holes. -/
theorem go_placeholders {text last : List Char} {holes : List Hole}
    (h : Decomposes text holes last) (found : List String) :
    placeholders.go found text = found.reverse ++ holes.map Hole.name := by
  induction holes generalizing text found with
  | nil =>
    obtain ⟨rfl, hnone⟩ := decomposes_nil_iff.mp h
    rw [go_placeholders_eq, hnone]
    simp
  | cons hole holes ih =>
    obtain ⟨rest, hfirst, hrest⟩ := decomposes_cons_iff.mp h
    rw [go_placeholders_eq, hfirst]
    simp only [ih hrest]
    simp

theorem substitute_eq {template : String} {holes : List Hole} {last : List Char}
    (h : Decomposes template.toList holes last) (bindings : List (String × String)) :
    substitute template bindings =
      String.ofList (holes.flatMap (Hole.filled bindings) ++ last) := by
  unfold substitute
  rw [go_substitute h]
  simp

theorem placeholders_eq {template : String} {holes : List Hole} {last : List Char}
    (h : Decomposes template.toList holes last) :
    placeholders template = holes.map Hole.name := by
  unfold placeholders
  rw [go_placeholders h]
  simp

/-- Without bindings a text is written as it stands. -/
theorem substitute_nil (template : String) : substitute template [] = template := by
  obtain ⟨holes, last, h⟩ := exists_decomposes template.toList
  have hfilled : Hole.filled [] = Hole.raw := rfl
  rw [substitute_eq h, hfilled, ← h.text_eq, String.ofList_toList]

/-- Only the values bound to the listed keys count. -/
theorem substitute_congr {template : String} {bindings bindings' : List (String × String)}
    (h : ∀ k ∈ placeholders template, bindings.lookup k = bindings'.lookup k) :
    substitute template bindings = substitute template bindings' := by
  obtain ⟨holes, last, hdec⟩ := exists_decomposes template.toList
  rw [placeholders_eq hdec] at h
  have hfilled : holes.map (Hole.filled bindings) = holes.map (Hole.filled bindings') := by
    refine List.map_congr_left fun hole hhole => ?_
    simp only [Hole.filled, Hole.value, h _ (List.mem_map_of_mem hhole)]
  rw [substitute_eq hdec, substitute_eq hdec, List.flatMap_def, List.flatMap_def, hfilled]

/-- **Substitution and listing follow one decomposition.** Every template text falls, in exactly
one way, into holes and a last text, such that:
* the listed keys are the names in the holes, without the blanks around them;
* under any bindings, what is written is the text before each hole and the first value bound to its
  name, or the hole itself, and then the last text; values are not looked into.

So nothing changes without bindings, and bindings that agree on the listed keys write the same. -/
theorem substitute_follows_placeholders (template : String) :
    ∃ holes last, Decomposes template.toList holes last ∧
      (∀ holes' last', Decomposes template.toList holes' last' → holes' = holes ∧ last' = last) ∧
      placeholders template = holes.map (fun hole => String.ofList (Text.trim hole.inner)) ∧
      (∀ bindings, substitute template bindings =
        String.ofList (holes.flatMap (Hole.filled bindings) ++ last)) ∧
      substitute template [] = template ∧
      ∀ bindings bindings' : List (String × String),
        (∀ k ∈ placeholders template, bindings.lookup k = bindings'.lookup k) →
          substitute template bindings = substitute template bindings' := by
  obtain ⟨holes, last, h⟩ := exists_decomposes template.toList
  exact ⟨holes, last, h, fun _ _ h' => h'.unique h, placeholders_eq h, substitute_eq h,
    substitute_nil template, fun _ _ => substitute_congr⟩

/-- A third brace before a key, blanks around a key that is bound, a value that looks like a
placeholder, a key that is not bound, and an opening that is never closed. -/
theorem substitute_follows_placeholders_blanks :
    let template := "\x7b\x7b\x7ba\x7d\x7d \x7b\x7b name\t\x7d\x7d-\x7b\x7bb c\x7d\x7d \x7b\x7bd"
    let bindings := [("name", "\x7b\x7ba\x7d\x7d"), ("a", "x"), ("name", "y")]
    let holes : List Hole :=
      [⟨[], ['{', 'a']⟩, ⟨[' '], [' ', 'n', 'a', 'm', 'e', '\t']⟩, ⟨['-'], ['b', ' ', 'c']⟩]
    Decomposes template.toList holes [' ', '{', '{', 'd'] ∧
      placeholders template = ["\x7ba", "name", "b c"] ∧
      substitute template bindings =
        "\x7b\x7b\x7ba\x7d\x7d \x7b\x7ba\x7d\x7d-\x7b\x7bb c\x7d\x7d \x7b\x7bd" ∧
      substitute template [] = template := by
  intro template bindings holes
  have hlast : Decomposes [' ', '{', '{', 'd'] [] [' ', '{', '{', 'd'] :=
    decomposes_nil_iff.mpr ⟨rfl, by decide +kernel⟩
  have hthird : firstHole? "-\x7b\x7bb c\x7d\x7d \x7b\x7bd".toList =
      some (⟨['-'], ['b', ' ', 'c']⟩, [' ', '{', '{', 'd']) := by decide +kernel
  have hsecond : firstHole? " \x7b\x7b name\t\x7d\x7d-\x7b\x7bb c\x7d\x7d \x7b\x7bd".toList =
      some (⟨[' '], [' ', 'n', 'a', 'm', 'e', '\t']⟩,
        "-\x7b\x7bb c\x7d\x7d \x7b\x7bd".toList) := by
    decide +kernel
  have hfirst : firstHole? template.toList = some (⟨[], ['{', 'a']⟩,
      " \x7b\x7b name\t\x7d\x7d-\x7b\x7bb c\x7d\x7d \x7b\x7bd".toList) := by
    decide +kernel
  have hdec : Decomposes template.toList holes [' ', '{', '{', 'd'] :=
    decomposes_cons_iff.mpr ⟨_, hfirst, decomposes_cons_iff.mpr
      ⟨_, hsecond, decomposes_cons_iff.mpr ⟨_, hthird, hlast⟩⟩⟩
  obtain ⟨_, _, -, hunique, hkeys, hwritten, hempty, -⟩ := substitute_follows_placeholders template
  obtain ⟨rfl, rfl⟩ := hunique _ _ hdec
  refine ⟨hdec, hkeys.trans ?_, (hwritten bindings).trans ?_, hempty⟩
  · decide +kernel
  · decide +kernel

end MoveDesk.Template
