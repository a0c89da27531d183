import MoveDesk.Declarator

/-!
# The scanner finds the leftmost declarations

`IsMatch` says what a declaration at a place of a text is, without the scanner: the keyword, the
longest run of blanks, at least one, and the longest name of the declarator's shape. `locate` is
the scanner with the places of its hits.

Headlines:
* **`declaration?_eq_some_iff`**: the reader of one declaration accepts exactly these.
* **`scan_leftmost`**: the scanned names are those of matches that do not overlap, from left to
  right, and a match that is not among them starts inside one that is.
-/

namespace MoveDesk

/-! ## Runs of characters of a class -/

namespace Text

/-- `run` is not empty and is the longest run of characters of the class at the start of
`run ++ rest`. -/
structure IsRun (p : Char → Bool) (run rest : List Char) : Prop where
  ne_nil : run ≠ []
  all : ∀ c ∈ run, p c = true
  stops : ∀ c ∈ rest.head?, p c = false

theorem IsRun.takeWhile_eq {p : Char → Bool} {run rest : List Char} (h : IsRun p run rest) :
    (run ++ rest).takeWhile p = run := by
  rw [List.takeWhile_append_of_pos h.all]
  cases rest with
  | nil => simp
  | cons c rest =>
    have hc : p c = false := h.stops c rfl
    simp [hc]

theorem drop_length_takeWhile (p : Char → Bool) (text : List Char) :
    text.drop (text.takeWhile p).length = text.dropWhile p := by
  have h : (text.takeWhile p ++ text.dropWhile p).drop (text.takeWhile p).length =
      text.dropWhile p := List.drop_left
  rwa [List.takeWhile_append_dropWhile] at h

theorem IsRun.dropWhile_eq {p : Char → Bool} {run rest : List Char} (h : IsRun p run rest) :
    (run ++ rest).dropWhile p = rest := by
  rw [← drop_length_takeWhile, h.takeWhile_eq, List.drop_left]

theorem isRun_takeWhile {p : Char → Bool} {text : List Char} (h : text.takeWhile p ≠ []) :
    IsRun p (text.takeWhile p) (text.dropWhile p) where
  ne_nil := h
  all := List.all_eq_true.mp List.all_takeWhile
  stops c hc := by
    have hhead := List.head?_dropWhile_not p text
    rw [Option.mem_def.mp hc] at hhead
    simpa using hhead

end Text

namespace Declarator

/-! ## Names -/

/-- `name` is a name of the shape, as long as can be, at the start of `name ++ rest`. -/
inductive IsName : NameShape → List Char → List Char → Prop
  | plain {name rest : List Char} (h : Text.IsRun Text.isWord name rest) : IsName .plain name rest
  | qualified {address name rest : List Char}
      (haddress : Text.IsRun Text.isWord address (':' :: ':' :: (name ++ rest)))
      (hname : Text.IsRun Text.isWord name rest) :
      IsName .qualified (address ++ ':' :: ':' :: name) rest

theorem word?_eq_some_iff {text word : List Char} :
    word? text = some word ↔ ∃ rest, text = word ++ rest ∧ Text.IsRun Text.isWord word rest := by
  unfold word?
  constructor
  · intro h
    split at h
    · cases h
    · rename_i hne
      obtain rfl := Option.some.inj h
      exact ⟨_, List.takeWhile_append_dropWhile.symm, Text.isRun_takeWhile hne⟩
  · rintro ⟨rest, rfl, hrun⟩
    rw [hrun.takeWhile_eq]
    split
    · exact absurd rfl hrun.ne_nil
    · rfl

theorem name?_eq_some_iff {shape : NameShape} {text name : List Char} :
    name? shape text = some name ↔ ∃ rest, text = name ++ rest ∧ IsName shape name rest := by
  cases shape with
  | plain =>
    have hword : name? .plain text = word? text := by simp [name?]
    rw [hword, word?_eq_some_iff]
    refine exists_congr fun rest => and_congr_right fun _ => ⟨.plain, fun h => ?_⟩
    cases h with
    | plain h => exact h
  | qualified =>
    simp only [name?, Option.bind_eq_bind, Option.bind_eq_some_iff, word?_eq_some_iff]
    constructor
    · rintro ⟨address, ⟨behind, rfl, haddress⟩, h⟩
      rw [List.drop_left] at h
      split at h
      · rename_i rest
        obtain ⟨second, hsecond, hname⟩ := Option.bind_eq_some_iff.mp h
        obtain ⟨rest, rfl, hrun⟩ := word?_eq_some_iff.mp hsecond
        obtain rfl := Option.some.inj hname
        exact ⟨rest, by simp, .qualified haddress hrun⟩
      · cases h
    · rintro ⟨rest, rfl, h⟩
      cases h with
      | @qualified address name _ haddress hname =>
        refine ⟨address, ⟨_, by simp, haddress⟩, ?_⟩
        rw [List.append_assoc, List.drop_left]
        have hword : word? (name ++ rest) = some name := word?_eq_some_iff.mpr ⟨rest, rfl, hname⟩
        simp [hword]

/-! ## Declarations -/

/-- A declaration starts with the keyword. -/
theorem keyword_prefix_of_declaration? {d : Declarator} {text : List Char}
    {declaration : Declaration} (h : d.declaration? text = some declaration) :
    ∃ rest, text = d.keyword.toList ++ rest := by
  unfold declaration? at h
  simp only at h
  split at h
  · rename_i hkeyword
    obtain ⟨rest, rfl⟩ := List.isPrefixOf_iff_prefix.mp hkeyword
    exact ⟨rest, rfl⟩
  · cases h

theorem declaration?_of_no_keyword {d : Declarator} {text : List Char}
    (h : ¬ d.keyword.toList <+: text) : d.declaration? text = none := by
  refine Option.eq_none_iff_forall_ne_some.mpr fun declaration hsome => h ?_
  obtain ⟨rest, rfl⟩ := keyword_prefix_of_declaration? hsome
  exact List.prefix_append _ _

/-- Behind the keyword come the blanks and, behind all of them, the name. -/
theorem declaration?_keyword_append (d : Declarator) (rest : List Char) :
    d.declaration? (d.keyword.toList ++ rest) =
      if rest.takeWhile Text.isBlank = [] then none
      else (name? d.shape (rest.dropWhile Text.isBlank)).map fun name =>
        ⟨name, d.keyword.toList.length + (rest.takeWhile Text.isBlank).length + name.length⟩ := by
  have hkeyword : d.keyword.toList.isPrefixOf (d.keyword.toList ++ rest) = true :=
    List.isPrefixOf_iff_prefix.mpr (List.prefix_append _ _)
  simp only [declaration?, hkeyword, if_true, List.drop_left, List.isEmpty_iff,
    Text.drop_length_takeWhile]

/-- **The reader of one declaration is exact**: keyword, blanks and name stand at the start of the
text, blanks and name as long as can be. -/
theorem declaration?_eq_some_iff {d : Declarator} {text : List Char} {declaration : Declaration} :
    d.declaration? text = some declaration ↔
      ∃ blanks behind, text = d.keyword.toList ++ blanks ++ declaration.name ++ behind ∧
        Text.IsRun Text.isBlank blanks (declaration.name ++ behind) ∧
        IsName d.shape declaration.name behind ∧
        declaration.width = d.keyword.toList.length + blanks.length + declaration.name.length := by
  constructor
  · intro h
    obtain ⟨rest, rfl⟩ := keyword_prefix_of_declaration? h
    rw [declaration?_keyword_append] at h
    split at h
    · cases h
    · rename_i hblanks
      obtain ⟨name, hname, rfl⟩ := Option.map_eq_some_iff.mp h
      obtain ⟨behind, hbehind, hshape⟩ := name?_eq_some_iff.mp hname
      have hrun := Text.isRun_takeWhile hblanks
      rw [hbehind] at hrun
      refine ⟨rest.takeWhile Text.isBlank, behind, ?_, hrun, hshape, rfl⟩
      rw [List.append_assoc, List.append_assoc, ← hbehind, List.takeWhile_append_dropWhile]
  · rintro ⟨blanks, behind, rfl, hrun, hshape, hwidth⟩
    have hname := name?_eq_some_iff.mpr ⟨behind, rfl, hshape⟩
    rw [List.append_assoc, List.append_assoc, declaration?_keyword_append, hrun.takeWhile_eq,
      hrun.dropWhile_eq, if_neg hrun.ne_nil, hname, Option.map_some, ← hwidth]

theorem width_pos_of_declaration? {d : Declarator} {text : List Char} {declaration : Declaration}
    (h : d.declaration? text = some declaration) : 0 < declaration.width := by
  obtain ⟨blanks, _, -, hrun, -, hwidth⟩ := declaration?_eq_some_iff.mp h
  have hblanks := List.length_pos_iff.mpr hrun.ne_nil
  omega

/-- Nothing is declared at the end of a text. -/
theorem declaration?_nil (d : Declarator) : d.declaration? [] = none := by
  cases h : d.declaration? [] with
  | none => rfl
  | some declaration =>
    obtain ⟨blanks, behind, htext, hrun, -⟩ := declaration?_eq_some_iff.mp h
    simp only [List.nil_eq, List.append_eq_nil_iff] at htext
    exact absurd htext.1.1.2 hrun.ne_nil

/-! ## Matches -/

/-- A declaration in a text. -/
structure Hit where
  /-- The number of characters before the keyword. -/
  start : Nat
  /-- The number of characters before the end of the name. -/
  stop : Nat
  /-- The declared name. -/
  name : List Char
deriving DecidableEq, Repr

/-- The hit is a match in the text: the keyword starts at `start`, behind it stand a longest run of
blanks and a longest name of the shape, which ends at `stop`. -/
def IsMatch (d : Declarator) (text : List Char) (hit : Hit) : Prop :=
  ∃ before blanks behind,
    text = before ++ d.keyword.toList ++ blanks ++ hit.name ++ behind ∧
      Text.IsRun Text.isBlank blanks (hit.name ++ behind) ∧ IsName d.shape hit.name behind ∧
      hit.start = before.length ∧
      hit.stop = (before ++ d.keyword.toList ++ blanks ++ hit.name).length

/-- A match is a declaration at the start of what is left of the text there. -/
theorem isMatch_iff {d : Declarator} {text : List Char} {hit : Hit} :
    d.IsMatch text hit ↔ ∃ width, d.declaration? (text.drop hit.start) = some ⟨hit.name, width⟩ ∧
      hit.stop = hit.start + width := by
  constructor
  · rintro ⟨before, blanks, behind, rfl, hrun, hname, hstart, hstop⟩
    refine ⟨d.keyword.toList.length + blanks.length + hit.name.length,
      declaration?_eq_some_iff.mpr ⟨blanks, behind, ?_, hrun, hname, rfl⟩, ?_⟩
    · rw [hstart]
      simp
    · rw [hstop, hstart]
      simp only [List.length_append]
      omega
  · rintro ⟨width, h, hstop⟩
    obtain ⟨blanks, behind, htext, hrun, hname, hwidth⟩ := declaration?_eq_some_iff.mp h
    have hstart : hit.start ≤ text.length := by
      refine Nat.le_of_not_le fun hend => ?_
      rw [List.drop_eq_nil_of_le hend, declaration?_nil] at h
      cases h
    have hbefore : (text.take hit.start).length = hit.start := List.length_take_of_le hstart
    refine ⟨text.take hit.start, blanks, behind, ?_, hrun, hname, hbefore.symm, ?_⟩
    · calc text = text.take hit.start ++ text.drop hit.start := (List.take_append_drop _ _).symm
        _ = _ := by rw [htext]; simp
    · simp only [List.length_append, hbefore] at hwidth ⊢
      omega

theorem start_lt_stop_of_isMatch {d : Declarator} {text : List Char} {hit : Hit}
    (h : d.IsMatch text hit) : hit.start < hit.stop := by
  obtain ⟨width, hdeclaration, hstop⟩ := isMatch_iff.mp h
  have := width_pos_of_declaration? hdeclaration
  simp only at this
  omega

/-! ## The scanner with places -/

/-- The hits in a text that has `start` characters before it, of which the first `skip` are left
out. -/
def locate (d : Declarator) (start : Nat) : Nat → List Char → List Hit
  | _, [] => []
  | skip + 1, _ :: rest => d.locate (start + 1) skip rest
  | 0, c :: rest =>
    match d.declaration? (c :: rest) with
    | some declaration =>
      ⟨start, start + declaration.width, declaration.name⟩ ::
        d.locate (start + 1) (declaration.width - 1) rest
    | none => d.locate (start + 1) 0 rest

variable {d : Declarator}

theorem go_eq_locate (found : List String) (start skip : Nat) (text : List Char) :
    scan.go d found skip text =
      found.reverse ++ (d.locate start skip text).map (String.ofList ·.name) := by
  induction text generalizing found start skip with
  | nil => simp [scan.go, locate]
  | cons c rest ih =>
    cases skip with
    | succ skip => simp only [scan.go, locate, ih _ (start + 1)]
    | zero =>
      simp only [scan.go, locate]
      cases d.declaration? (c :: rest) with
      | none => simp only [ih _ (start + 1)]
      | some declaration => simp [ih _ (start + 1)]

/-- No hit starts among the characters that are left out. -/
theorem le_start_of_mem_locate {hit : Hit} {start skip : Nat} {text : List Char}
    (h : hit ∈ d.locate start skip text) : start + skip ≤ hit.start := by
  induction text generalizing start skip with
  | nil => cases h
  | cons c rest ih =>
    cases skip with
    | succ skip =>
      have := ih h
      omega
    | zero =>
      simp only [locate] at h
      split at h
      · rcases List.mem_cons.mp h with rfl | h
        · exact Nat.le_refl _
        · have := ih h
          omega
      · have := ih h
        omega

/-- Hits do not overlap, and the leftmost comes first. -/
theorem pairwise_locate (start skip : Nat) (text : List Char) :
    (d.locate start skip text).Pairwise fun a b => a.stop ≤ b.start := by
  induction text generalizing start skip with
  | nil => exact List.Pairwise.nil
  | cons c rest ih =>
    cases skip with
    | succ skip => exact ih (start + 1) skip
    | zero =>
      simp only [locate]
      split
      · rename_i declaration hdeclaration
        refine List.pairwise_cons.mpr ⟨fun hit hhit => ?_, ih _ _⟩
        have hpos := width_pos_of_declaration? hdeclaration
        have := le_start_of_mem_locate hhit
        simp only
        omega
      · exact ih _ _

section Source

variable {source : List Char}

theorem drop_succ_of_drop_eq_cons {start : Nat} {c : Char} {rest : List Char}
    (h : source.drop start = c :: rest) : source.drop (start + 1) = rest := by
  rw [← List.tail_drop, h, List.tail_cons]

/-- A hit is a match. -/
theorem isMatch_of_mem_locate {hit : Hit} {start skip : Nat} {text : List Char}
    (hsource : source.drop start = text) (h : hit ∈ d.locate start skip text) :
    d.IsMatch source hit := by
  induction text generalizing start skip with
  | nil => cases h
  | cons c rest ih =>
    have hrest := drop_succ_of_drop_eq_cons hsource
    cases skip with
    | succ skip => exact ih hrest h
    | zero =>
      simp only [locate] at h
      split at h
      · rename_i declaration hdeclaration
        rcases List.mem_cons.mp h with rfl | h
        · exact isMatch_iff.mpr ⟨declaration.width, hsource ▸ hdeclaration, rfl⟩
        · exact ih hrest h
      · exact ih hrest h

/-- A match behind the characters that are left out is a hit, or starts inside one that began
earlier. -/
theorem mem_locate_of_isMatch {hit : Hit} {start skip : Nat} {text : List Char}
    (hsource : source.drop start = text) (h : d.IsMatch source hit)
    (hstart : start + skip ≤ hit.start) :
    hit ∈ d.locate start skip text ∨
      ∃ other ∈ d.locate start skip text, other.start < hit.start ∧ hit.start < other.stop := by
  induction text generalizing start skip with
  | nil =>
    obtain ⟨width, hdeclaration, -⟩ := isMatch_iff.mp h
    have hend := List.drop_eq_nil_iff.mp hsource
    rw [List.drop_eq_nil_of_le (by omega), declaration?_nil] at hdeclaration
    cases hdeclaration
  | cons c rest ih =>
    have hrest := drop_succ_of_drop_eq_cons hsource
    cases skip with
    | succ skip => exact ih hrest (by omega)
    | zero =>
      obtain ⟨width, hdeclaration, hstop⟩ := isMatch_iff.mp h
      have hlater : hit.start ≠ start → start + 1 ≤ hit.start := by omega
      simp only [locate]
      by_cases hhere : hit.start = start
      · -- the scanner reads this very match
        rw [hhere, hsource] at hdeclaration
        rw [hdeclaration]
        refine Or.inl (List.mem_cons.mpr (Or.inl ?_))
        obtain ⟨hitStart, hitStop, name⟩ := hit
        simp only at hhere hstop ⊢
        rw [hstop, hhere]
      · cases hfound : d.declaration? (c :: rest) with
        | none => exact ih hrest (hlater hhere)
        | some declaration =>
          simp only [List.mem_cons]
          by_cases hinside : hit.start < start + declaration.width
          · refine Or.inr ⟨_, Or.inl rfl, ?_, hinside⟩
            have := hlater hhere
            simp only
            omega
          · have hnext : start + 1 + (declaration.width - 1) ≤ hit.start := by
              have := hlater hhere
              omega
            rcases ih hrest hnext with hmem | ⟨other, hmem, ho⟩
            · exact Or.inl (Or.inr hmem)
            · exact Or.inr ⟨other, Or.inr hmem, ho⟩

end Source

/-- **The scanner finds exactly the leftmost declarations that do not overlap.** The scanned names
are those of hits such that:
* a hit ends before the next one starts;
* every hit is a match;
* every match is a hit, or starts strictly inside a hit that began earlier. -/
theorem scan_leftmost (d : Declarator) (source : String) :
    ∃ hits : List Hit, d.scan source = hits.map (String.ofList ·.name) ∧
      hits.Pairwise (fun a b => a.stop ≤ b.start) ∧
      (∀ hit ∈ hits, d.IsMatch source.toList hit ∧ hit.start < hit.stop) ∧
      ∀ hit, d.IsMatch source.toList hit →
        hit ∈ hits ∨ ∃ other ∈ hits, other.start < hit.start ∧ hit.start < other.stop := by
  refine ⟨d.locate 0 0 source.toList, go_eq_locate [] 0 0 _, pairwise_locate 0 0 _,
    fun hit hhit => ?_, fun hit hhit => ?_⟩
  · have hmatch := isMatch_of_mem_locate (List.drop_zero) hhit
    exact ⟨hmatch, start_lt_stop_of_isMatch hmatch⟩
  · exact mem_locate_of_isMatch List.drop_zero hhit (Nat.zero_le _)

example : function.scan "fun fun foo() defun x" = ["fun", "x"] := by
  decide +kernel

end Declarator

end MoveDesk
