import MoveDesk.Proofs.Placeholders

/-!
# Substitutions one after the other

A text can be filled in two steps if the values of the first hold no opening brace: such a value
neither opens a placeholder nor makes one of the braces beside it. What is written for the holes
before a placeholder that is left standing is then literal text before it (`FirstBehind`), and the
closing of that placeholder is still its own.

Headline:
* **`substitute_composes`**: the first substitution leaves the placeholders that it does not bind,
  and the two together write what one does under both lists of bindings.
-/

namespace MoveDesk.Template

/-! ## Literal text before an opening -/

/-- An opening reaches from such a text into no other: it would already reach into the braces that
come behind. -/
theorem not_prefix_of_firstBehind {c : Char} {front : List Char}
    (h : Text.FirstBehind opening (c :: front)) (text : List Char) :
    ¬ opening <+: c :: (front ++ text) := by
  rintro ⟨rest, hrest⟩
  simp only [opening, List.cons_append, List.nil_append, List.cons.injEq] at hrest
  obtain ⟨rfl, hrest⟩ := hrest
  cases front with
  | nil => exact absurd (h [] ['{'] rfl) (List.cons_ne_nil _ _)
  | cons d front =>
    obtain ⟨rfl, -⟩ := List.cons.inj hrest
    exact absurd (h [] (front ++ opening) rfl) (by simp [opening])

theorem infix_append_iff_of_firstBehind {front : List Char} (h : Text.FirstBehind opening front)
    (text : List Char) : opening <:+: front ++ text ↔ opening <:+: text := by
  induction front with
  | nil => rfl
  | cons c front ih =>
    rw [List.cons_append, List.infix_cons_iff, ih h.tail]
    exact or_iff_right (not_prefix_of_firstBehind h text)

theorem firstBehind_append {front before : List Char} (h : Text.FirstBehind opening front)
    (hbefore : Text.FirstBehind opening before) : Text.FirstBehind opening (front ++ before) := by
  induction front with
  | nil => exact hbefore
  | cons c front ih =>
    have hassoc : front ++ before ++ opening ++ [] = front ++ (before ++ opening ++ []) := by
      simp only [List.append_assoc]
    have hfront : ¬ opening <+: c :: (front ++ before ++ opening ++ []) := by
      rw [hassoc]
      exact not_prefix_of_firstBehind h _
    exact (ih h.tail).cons hfront

/-- Literal text before a text goes to what stands before its first hole. -/
theorem firstHole?_append {front : List Char} (h : Text.FirstBehind opening front)
    (text : List Char) :
    firstHole? (front ++ text) =
      (firstHole? text).map (Prod.map (fun hole => ⟨front ++ hole.before, hole.inner⟩) id) := by
  have hcut : Text.cut? opening (front ++ text) =
      (Text.cut? opening text).map (Prod.map (front ++ ·) id) := by
    cases htext : Text.cut? opening text with
    | none =>
      rw [Text.cut?_eq_none_iff] at htext
      rw [Option.map_none, Text.cut?_eq_none_iff, infix_append_iff_of_firstBehind h]
      exact htext
    | some found =>
      obtain ⟨before, inside⟩ := found
      obtain ⟨rfl, hbefore⟩ := Text.cut?_eq_some_iff.mp htext
      rw [Option.map_some, Text.cut?_eq_some_iff]
      refine ⟨?_, firstBehind_append h hbefore⟩
      simp only [Prod.map_apply, id_eq, List.append_assoc]
  unfold firstHole?
  rw [hcut]
  cases Text.cut? opening text with
  | none => rfl
  | some found =>
    obtain ⟨before, inside⟩ := found
    simp only [Option.map_some, Prod.map_apply, id_eq]
    cases Text.cut? closing inside <;> rfl

theorem firstHole?_append_of_none {front text : List Char} (h : Text.FirstBehind opening front)
    (htext : firstHole? text = none) : firstHole? (front ++ text) = none := by
  rw [firstHole?_append h, htext]
  rfl

theorem firstHole?_append_of_some {front text rest : List Char} {hole : Hole}
    (h : Text.FirstBehind opening front) (htext : firstHole? text = some (hole, rest)) :
    firstHole? (front ++ text) = some (⟨front ++ hole.before, hole.inner⟩, rest) := by
  rw [firstHole?_append h, htext]
  rfl

/-! ## Both functions, hole by hole -/

/-- What is written for the text. -/
def written (bindings : List (String × String)) (text : List Char) : List Char :=
  (substitute (String.ofList text) bindings).toList

/-- The keys of the placeholders in the text. -/
def keysIn (text : List Char) : List String := placeholders (String.ofList text)

variable {bindings : List (String × String)} {text rest : List Char} {hole : Hole}

theorem decomposes_toList_ofList {holes : List Hole} {last : List Char}
    (h : Decomposes text holes last) : Decomposes (String.ofList text).toList holes last := by
  rwa [String.toList_ofList]

theorem written_of_none (h : firstHole? text = none) : written bindings text = text := by
  have hdec := decomposes_toList_ofList (decomposes_nil_iff.mpr ⟨rfl, h⟩)
  rw [written, substitute_eq hdec, String.toList_ofList]
  rfl

theorem written_of_some (h : firstHole? text = some (hole, rest)) :
    written bindings text = hole.filled bindings ++ written bindings rest := by
  obtain ⟨holes, last, hrest⟩ := exists_decomposes rest
  have hdec := decomposes_toList_ofList (decomposes_cons_iff.mpr ⟨rest, h, hrest⟩)
  rw [written, written, substitute_eq hdec, substitute_eq (decomposes_toList_ofList hrest),
    String.toList_ofList, String.toList_ofList, List.flatMap_cons, List.append_assoc]

theorem keysIn_of_none (h : firstHole? text = none) : keysIn text = [] :=
  placeholders_eq (decomposes_toList_ofList (decomposes_nil_iff.mpr ⟨rfl, h⟩))

theorem keysIn_of_some (h : firstHole? text = some (hole, rest)) :
    keysIn text = hole.name :: keysIn rest := by
  obtain ⟨holes, last, hrest⟩ := exists_decomposes rest
  have hdec := decomposes_toList_ofList (decomposes_cons_iff.mpr ⟨rest, h, hrest⟩)
  rw [keysIn, keysIn, placeholders_eq hdec, placeholders_eq (decomposes_toList_ofList hrest),
    List.map_cons]

/-- Literal text is written as it stands. -/
theorem written_append {front : List Char} (h : Text.FirstBehind opening front)
    (text : List Char) : written bindings (front ++ text) = front ++ written bindings text := by
  cases htext : firstHole? text with
  | none =>
    rw [written_of_none (firstHole?_append_of_none h htext), written_of_none htext]
  | some found =>
    obtain ⟨hole, rest⟩ := found
    rw [written_of_some (firstHole?_append_of_some h htext), written_of_some htext]
    simp only [Hole.filled, List.append_assoc]
    rfl

/-- Literal text adds no placeholder. -/
theorem keysIn_append {front : List Char} (h : Text.FirstBehind opening front)
    (text : List Char) : keysIn (front ++ text) = keysIn text := by
  cases htext : firstHole? text with
  | none =>
    rw [keysIn_of_none (firstHole?_append_of_none h htext), keysIn_of_none htext]
  | some found =>
    obtain ⟨hole, rest⟩ := found
    rw [keysIn_of_some (firstHole?_append_of_some h htext), keysIn_of_some htext]
    rfl

/-! ## Two substitutions -/

/-- The values bound hold no opening brace. -/
def Plain (bindings : List (String × String)) : Prop :=
  ∀ binding ∈ bindings, '{' ∉ binding.2.toList

theorem mem_of_lookup_eq_some {name value : String} (h : bindings.lookup name = some value) :
    (name, value) ∈ bindings := by
  obtain ⟨before, after, hsplit, -⟩ := List.lookup_eq_some_iff.mp h
  rw [hsplit]
  exact List.mem_append_right _ List.mem_cons_self

/-- **One hole**: if it is bound, literal text is written for it; if not, it stays the first. -/
theorem written_cases (hplain : Plain bindings) (h : firstHole? text = some (hole, rest)) :
    (∃ value, bindings.lookup hole.name = some value ∧
        Text.FirstBehind opening (hole.before ++ value.toList) ∧
        written bindings text = hole.before ++ value.toList ++ written bindings rest) ∨
      bindings.lookup hole.name = none ∧
        firstHole? (written bindings text) = some (hole, written bindings rest) := by
  obtain ⟨-, hopen, hclose⟩ := firstHole?_eq_some_iff.mp h
  rw [written_of_some h]
  cases hlookup : bindings.lookup hole.name with
  | some value =>
    refine Or.inl ⟨value, rfl, firstBehind_append hopen ?_, ?_⟩
    · exact Text.firstBehind_of_notMem (hplain _ (mem_of_lookup_eq_some hlookup))
    · simp only [Hole.filled, Hole.value, hlookup]
  | none =>
    refine Or.inr ⟨rfl, firstHole?_eq_some_iff.mpr ⟨?_, hopen, hclose⟩⟩
    simp only [Hole.filled, Hole.value, hlookup, Hole.raw]

/-- The placeholders that are bound are gone, and no others. -/
theorem keysIn_written (hplain : Plain bindings) (text : List Char) :
    keysIn (written bindings text) = (keysIn text).filter (· ∉ bindings.map (·.1)) := by
  obtain ⟨holes, last, hdec⟩ := exists_decomposes text
  induction holes generalizing text with
  | nil =>
    have hnone := (decomposes_nil_iff.mp hdec).2
    rw [written_of_none hnone, keysIn_of_none hnone]
    rfl
  | cons hole holes ih =>
    obtain ⟨rest, hsome, hrest⟩ := decomposes_cons_iff.mp hdec
    rw [keysIn_of_some hsome, List.filter_cons]
    rcases written_cases hplain hsome with ⟨value, hlookup, hfront, hwritten⟩ | ⟨hlookup, hfirst⟩
    · have hmem : hole.name ∈ bindings.map (·.1) :=
        List.mem_map_of_mem (mem_of_lookup_eq_some hlookup)
      rw [hwritten, keysIn_append hfront, ih rest hrest, if_neg (by simpa using hmem)]
    · have hmem : hole.name ∉ bindings.map (·.1) := by
        rintro hmem
        obtain ⟨binding, hbinding, hname⟩ := List.mem_map.mp hmem
        have hne := List.lookup_eq_none_iff.mp hlookup binding hbinding
        simp [hname] at hne
      rw [keysIn_of_some hfirst, ih rest hrest, if_pos (by simpa using hmem)]

/-- The bindings of the first substitution count before those of the second. -/
theorem written_written {first : List (String × String)} (hplain : Plain first)
    (second : List (String × String)) (text : List Char) :
    written second (written first text) = written (first ++ second) text := by
  obtain ⟨holes, last, hdec⟩ := exists_decomposes text
  induction holes generalizing text with
  | nil =>
    have hnone := (decomposes_nil_iff.mp hdec).2
    rw [written_of_none hnone, written_of_none hnone, written_of_none hnone]
  | cons hole holes ih =>
    obtain ⟨rest, hsome, hrest⟩ := decomposes_cons_iff.mp hdec
    have hlookups : (first ++ second).lookup hole.name =
        (first.lookup hole.name).or (second.lookup hole.name) := List.lookup_append
    have hone : written (first ++ second) text =
        hole.filled (first ++ second) ++ written (first ++ second) rest := written_of_some hsome
    rw [hone, ← ih rest hrest]
    rcases written_cases hplain hsome with ⟨value, hlookup, hfront, hwritten⟩ | ⟨hlookup, hfirst⟩
    · rw [hwritten, written_append hfront]
      simp only [Hole.filled, Hole.value, hlookups, hlookup, Option.some_or]
    · rw [written_of_some hfirst]
      simp only [Hole.filled, Hole.value, hlookups, hlookup, Option.none_or]

/-- **Substitution composes**, where no value of the first bindings holds an opening brace:
* the first substitution leaves the placeholders whose keys it does not bind, in their order and
  with their repeats, and makes no new ones;
* the second one behind it writes what a single one writes under the first bindings and, behind
  them, the second. -/
theorem substitute_composes (template : String) (first second : List (String × String))
    (hplain : ∀ binding ∈ first, '{' ∉ binding.2.toList) :
    placeholders (substitute template first) =
        (placeholders template).filter (· ∉ first.map (·.1)) ∧
      substitute (substitute template first) second = substitute template (first ++ second) := by
  have hkeys := keysIn_written hplain template.toList
  have hwritten := written_written hplain second template.toList
  simp only [keysIn, written, String.ofList_toList, String.toList_inj] at hkeys hwritten
  exact ⟨hkeys, hwritten⟩

/-- A value that closes, beside an opening that is never closed, and a second value that opens. -/
theorem substitute_composes_closing_value :
    let template := "\x7b\x7ba\x7d\x7d\x7b \x7b\x7bb\x7d\x7d\x7b\x7b a \x7d\x7d\x7b\x7bb"
    let first := [("a", "\x7d\x7d")]
    let second := [("b", "\x7b\x7ba\x7d\x7d"), ("a", "x")]
    (∀ binding ∈ first, '{' ∉ binding.2.toList) ∧
      placeholders (substitute template first) = ["b"] ∧
      substitute (substitute template first) second =
        "\x7d\x7d\x7b \x7b\x7ba\x7d\x7d\x7d\x7d\x7b\x7bb" := by
  intro template first second
  have hplain : ∀ binding ∈ first, '{' ∉ binding.2.toList := by decide +kernel
  obtain ⟨hkeys, hsubstitute⟩ := substitute_composes template first second hplain
  refine ⟨hplain, hkeys.trans ?_, hsubstitute.trans ?_⟩
  · decide +kernel
  · decide +kernel

end MoveDesk.Template
