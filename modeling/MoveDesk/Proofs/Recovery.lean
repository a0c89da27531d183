import MoveDesk.Proofs.Archetypes.Declarations
import MoveDesk.Proofs.Pieces

/-!
# Declarations that are written are found

A source is written from a list of items, one declaration in a line. Every scanner reads all of it,
so it meets the names of the other kinds too, and keywords may stand in names or at their ends. In
pieces, only one such name can mislead: that of a struct, which `has` follows, where it ends in the
keyword of functions. All other names are followed by what is no name of the shape asked for.

Headlines:
* **`scan_source`**: without such structs, a scanner finds the names of its kind, as they are
  written.
* **`extract_recovers_items`**: so an extraction recovers what was declared.
-/

namespace MoveDesk

/-! ## Items -/

/-- A declaration that is written in a line of its own. -/
inductive Item where
  /-- A module under an address. -/
  | module (address name : String)
  /-- A struct that is a resource. -/
  | struct (name : String)
  /-- A function without parameters. -/
  | function (name : String)
deriving DecidableEq, Repr

namespace Item

open Text

/-- The line that declares the item. -/
def line : Item → String
  | module address name => "module " ++ address ++ "::" ++ name ++ " \x7b\x7d"
  | struct name => "struct " ++ name ++ " has key \x7b\x7d"
  | function name => "fun " ++ name ++ "() \x7b\x7d"

/-- The source that declares the items, in their order. -/
def source (items : List Item) : String := asLines (items.map line)

/-- The kind that the item is of. -/
def kind : Item → Kind
  | module _ _ => .modules
  | struct _ => .structs
  | function _ => .functions

/-- The name that is declared. -/
def name : Item → String
  | module address name => address ++ "::" ++ name
  | struct name => name
  | function name => name

/-- The names of a kind that the items declare, in their order and with repeats. -/
def declared (kind : Kind) (items : List Item) : List String :=
  (items.filter (·.kind = kind)).map name

/-- The names are identifiers, and that of a struct does not end in the keyword of functions. -/
def IsProper : Item → Prop
  | module address name => IsIdentifier address ∧ IsIdentifier name
  | struct name => IsIdentifier name ∧ ¬ Declarator.function.keyword.toList <:+ name.toList
  | function name => IsIdentifier name

instance (item : Item) : Decidable item.IsProper :=
  match item with
  | module _ _ | struct _ => inferInstanceAs (Decidable (_ ∧ _))
  | function _ => inferInstanceAs (Decidable (IsIdentifier _))

/-! ## Their pieces -/

/-- The piece that starts with the name. -/
def head : Item → List Char
  | module address name => Template.qualifiedName address name
  | struct name => name.toList
  | function name => name.toList ++ ['(', ')']

/-- The pieces between that and the braces. -/
def abilities : Item → List (List Char)
  | struct _ => ["has".toList, "key".toList]
  | _ => []

/-- The braces at the end of each line. -/
def braces : List Char := ['{', '}']

/-- The pieces of the line. -/
def words (item : Item) : List (List Char) :=
  item.kind.declarator.keyword.toList :: item.head :: (item.abilities ++ [braces])

variable {item : Item} {items : List Item} {kind other : Kind}

theorem toList_line (item : Item) : item.line.toList = [' '].intercalate item.words := by
  cases item <;>
    simp [line, words, head, abilities, braces, Item.kind, Kind.declarator, Declarator.module,
      Declarator.struct, Declarator.function, Template.qualifiedName, List.intercalate]

theorem unbroken_identifier {name : String} (h : IsIdentifier name) : Unbroken name.toList :=
  fun c hc => isBlank_eq_false_of_isWord (h.2 c hc)

theorem unbroken_head (h : item.IsProper) : Unbroken item.head ∧ item.head ≠ [] := by
  cases item with
  | module address name =>
    exact ⟨Template.isBlank_of_mem_qualifiedName h.1 h.2, by simp [head, Template.qualifiedName]⟩
  | struct name => exact ⟨unbroken_identifier h.1, h.1.1⟩
  | function name =>
    have hparens : Unbroken ['(', ')'] := by decide
    exact ⟨List.forall_mem_append.mpr ⟨unbroken_identifier h, hparens⟩, by simp [head]⟩

theorem unbroken_words (h : item.IsProper) :
    ∀ piece ∈ item.words, Unbroken piece ∧ piece ≠ [] := by
  have htail : ∀ piece ∈ ["has".toList, "key".toList, braces], Unbroken piece ∧ piece ≠ [] := by
    decide +kernel
  obtain ⟨hne, hkeyword⟩ := item.kind.unbroken_keyword
  refine List.forall_mem_cons.mpr ⟨⟨hkeyword, mt String.toList_eq_nil_iff.mp hne⟩, ?_⟩
  refine List.forall_mem_cons.mpr ⟨unbroken_head h, fun piece hpiece => htail piece ?_⟩
  cases item with
  | struct name => exact hpiece
  | _ => exact List.mem_cons_of_mem _ (List.mem_cons_of_mem _ hpiece)

/-- The pieces of the source are those of its lines. -/
theorem pieces_source (h : ∀ item ∈ items, item.IsProper) :
    pieces (source items).toList = items.flatMap words := by
  have hline : ∀ item ∈ items, pieces item.line.toList = item.words := by
    intro item hitem
    rw [toList_line]
    exact pieces_intercalate (unbroken_words (h item hitem))
  unfold source
  rw [pieces_asLines, List.flatMap_map, List.flatMap_def, List.flatMap_def,
    List.map_congr_left hline]

/-! ## What the pieces of a line declare -/

/-- Nothing is declared up to the last of some pieces where those before it do not end in the
keyword, and either the front does not or no name follows it. -/
theorem namesAcross_append_cons {d : Declarator} {front last : List Char}
    {calm parts : List (List Char)}
    (hfront : ¬ d.keyword.toList <:+ front ∨ Declarator.name? d.shape (calm.headD last) = none)
    (hcalm : ∀ piece ∈ calm, ¬ d.keyword.toList <:+ piece) :
    d.namesAcross front (calm ++ last :: parts) = d.namesAcross last parts := by
  induction calm generalizing front with
  | nil =>
    rcases hfront with hfront | hname
    · exact Declarator.namesAcross_cons_of_not_suffix hfront
    · exact Declarator.namesAcross_cons_of_eq_none hname
  | cons piece calm ih =>
    obtain ⟨hpiece, hcalm⟩ := List.forall_mem_cons.mp hcalm
    rw [List.cons_append, ← ih (Or.inl hpiece) hcalm]
    rcases hfront with hfront | hname
    · exact Declarator.namesAcross_cons_of_not_suffix hfront
    · exact Declarator.namesAcross_cons_of_eq_none hname

/-- No keyword is the end of another. -/
theorem keyword_not_suffix (h : kind ≠ other) :
    ¬ kind.declarator.keyword.toList <:+ other.declarator.keyword.toList := by
  cases kind <;> cases other <;> first | exact absurd rfl h | decide

theorem keyword_not_suffix_abilities (item : Item) (kind : Kind) :
    ∀ piece ∈ item.abilities, ¬ kind.declarator.keyword.toList <:+ piece := by
  have hfixed : ∀ piece ∈ ["has".toList, "key".toList],
      ¬ kind.declarator.keyword.toList <:+ piece := by
    cases kind <;> decide
  cases item with
  | struct name => exact hfixed
  | _ => exact List.forall_mem_nil _

/-- The braces start no name. -/
theorem name?_braces (shape : NameShape) : Declarator.name? shape braces = none := by
  cases shape <;> decide +kernel

/-- The name of the item is read from its piece, and no keyword ends what is left of it. -/
theorem exists_head_eq (h : item.IsProper) :
    ∃ rest, item.head = item.name.toList ++ rest ∧
      Declarator.name? item.kind.declarator.shape item.head = some item.name.toList ∧
        ¬ item.kind.declarator.keyword.toList <:+ rest := by
  have hnil := fun kind : Kind => Declarator.not_suffix_nil kind.unbroken_keyword.1
  cases item with
  | module address name =>
    have hcolon : isWord ':' = false := by decide +kernel
    have hqualified : (module address name).name.toList = Template.qualifiedName address name := by
      simp [Item.name, Template.qualifiedName]
    refine ⟨[], ?_, Declarator.name?_eq_some_iff.mpr ⟨[], ?_, ?_⟩, hnil .modules⟩
    · rw [List.append_nil, hqualified, head]
    · rw [List.append_nil, hqualified, head]
    · rw [hqualified]
      exact .qualified ⟨h.1.1, h.1.2, by simp [hcolon]⟩ ⟨h.2.1, h.2.2, by simp⟩
  | struct name =>
    refine ⟨[], ?_, Declarator.name?_eq_some_iff.mpr ⟨[], ?_, ?_⟩, hnil .structs⟩
    · exact (List.append_nil _).symm
    · exact (List.append_nil _).symm
    · exact .plain ⟨h.1.1, h.1.2, by simp⟩
  | function name =>
    have hparen : isWord '(' = false := by decide +kernel
    have hparens : ¬ Kind.functions.declarator.keyword.toList <:+ ['(', ')'] := by decide
    refine ⟨['(', ')'], rfl, Declarator.name?_eq_some_iff.mpr ⟨['(', ')'], rfl, ?_⟩, hparens⟩
    exact .plain ⟨h.1, h.2, by simp [hparen]⟩

/-- A piece that starts with a name does not mislead the scanners of other kinds. -/
theorem head_calm (h : item.IsProper) (hkind : kind ≠ item.kind) :
    ¬ kind.declarator.keyword.toList <:+ item.head ∨
      Declarator.name? kind.declarator.shape (item.abilities.headD braces) = none := by
  cases item with
  | struct name =>
    cases kind with
    | modules =>
      -- a struct whose name ends in the keyword of modules is not followed by a qualified name
      have hhas : Declarator.name? .qualified "has".toList = none := by decide +kernel
      exact Or.inr hhas
    | structs => exact absurd rfl hkind
    | functions => exact Or.inl h.2
  | _ => exact Or.inr (name?_braces _)

/-- **One line**: behind what does not end in a keyword, the pieces of a line declare the item to
the scanner of its kind, and nothing to the others. -/
theorem namesAcross_words (h : item.IsProper) {front : List Char}
    (hfront : ¬ kind.declarator.keyword.toList <:+ front) (parts : List (List Char)) :
    kind.declarator.namesAcross front (item.words ++ parts) =
      declared kind [item] ++ kind.declarator.namesAcross braces parts := by
  have hwords : item.words ++ parts =
      item.kind.declarator.keyword.toList :: item.head :: (item.abilities ++ braces :: parts) := by
    simp [words]
  have hcalm := keyword_not_suffix_abilities item kind
  rw [hwords, Declarator.namesAcross_cons_of_not_suffix hfront]
  by_cases hkind : kind = item.kind
  · subst hkind
    obtain ⟨rest, hhead, hname, hrest⟩ := exists_head_eq h
    have hdeclared : declared item.kind [item] = [item.name] := by simp [declared]
    rw [Declarator.namesAcross_cons_of_eq_some (List.suffix_refl _) hname, hhead, List.drop_left,
      namesAcross_append_cons (Or.inl hrest) hcalm, hdeclared, String.ofList_toList,
      List.singleton_append]
  · have hdeclared : declared kind [item] = [] := by simp [declared, Ne.symm hkind]
    rw [Declarator.namesAcross_cons_of_not_suffix (keyword_not_suffix hkind),
      namesAcross_append_cons (head_calm h hkind) hcalm, hdeclared, List.nil_append]

/-! ## What a source declares -/

/-- All lines, by induction on the items: behind each stand its braces. -/
theorem namesAcross_flatMap_words (h : ∀ item ∈ items, item.IsProper) {front : List Char}
    (hfront : ¬ kind.declarator.keyword.toList <:+ front) :
    kind.declarator.namesAcross front (items.flatMap words) = declared kind items := by
  induction items generalizing front with
  | nil => rfl
  | cons item items ih =>
    obtain ⟨hitem, hitems⟩ := List.forall_mem_cons.mp h
    have hbraces : ¬ kind.declarator.keyword.toList <:+ braces := by
      cases kind <;> decide
    have hdeclared :
        declared kind (item :: items) = declared kind [item] ++ declared kind items := by
      unfold declared
      rw [← List.map_append, ← List.filter_append, List.singleton_append]
    rw [List.flatMap_cons, namesAcross_words hitem hfront, ih hitems hbraces, hdeclared]

/-- **A scanner finds the names of its kind**, in their order and with repeats. -/
theorem scan_source (h : ∀ item ∈ items, item.IsProper) (kind : Kind) :
    kind.scan (source items) = declared kind items := by
  obtain ⟨hne, hd⟩ := kind.unbroken_keyword
  rw [Kind.scan, Declarator.scan_eq_namesAcross hne hd, pieces_source h,
    namesAcross_flatMap_words h (Declarator.not_suffix_nil hne)]

/-- A struct whose name ends in the keyword of functions declares a function, too. -/
example : Kind.functions.scan (source [.struct "defun"]) = ["has"] := by
  decide +kernel

end Item

/-- **An extraction recovers what was declared.** For all lists of items whose names are
identifiers, also such as hold keywords or end in them, as long as no name of a struct ends in the
keyword of functions: behind the extraction of their source from nothing, the context holds the
names of each kind in the order of their first declaration, and as many are counted. -/
theorem extract_recovers_items (items : List Item) (h : ∀ item ∈ items, item.IsProper) :
    let found := (∅ : Context).extract (Item.source items)
    ∀ kind : Kind, found.1.names kind = (Item.declared kind items).eraseDups ∧
      found.2.count kind = (Item.declared kind items).eraseDups.length := by
  intro found kind
  have hempty : (∅ : Context).names kind = [] := by
    cases kind <;> rfl
  have hnames : found.1.names kind = (Item.declared kind items).eraseDups := by
    have hextract := Context.names_extract_eq_eraseDups Context.distinct_empty
      (Item.source items) kind
    rwa [hempty, List.nil_append, Item.scan_source h] at hextract
  refine ⟨hnames, ?_⟩
  have hlength := Context.length_extract ∅ (Item.source items) kind
  rw [hempty, List.length_nil, Nat.zero_add] at hlength
  rw [← hlength, hnames]

/-- Names that are keywords or end in them, also of the scanner that reads them. -/
theorem extract_recovers_items_keywords :
    let items : List Item := [.module "fun" "struct", .struct "module", .function "struct",
      .struct "struct", .function "fun", .struct "module", .module "x" "module"]
    let found := (∅ : Context).extract (Item.source items)
    (∀ item ∈ items, item.IsProper) ∧
      found.1.names .modules = ["fun::struct", "x::module"] ∧
      found.1.names .structs = ["module", "struct"] ∧ found.2.count .structs = 2 ∧
      found.1.names .functions = ["struct", "fun"] := by
  intro items found
  have hproper : ∀ item ∈ items, item.IsProper := by decide +kernel
  have hfound := extract_recovers_items items hproper
  have hdeclared : (Item.declared .modules items).eraseDups = ["fun::struct", "x::module"] ∧
      (Item.declared .structs items).eraseDups = ["module", "struct"] ∧
      (Item.declared .functions items).eraseDups = ["struct", "fun"] := by decide +kernel
  obtain ⟨hmodules, hstructs, hfunctions⟩ := hdeclared
  refine ⟨hproper, (hfound .modules).1.trans hmodules, (hfound .structs).1.trans hstructs, ?_,
    (hfound .functions).1.trans hfunctions⟩
  rw [(hfound .structs).2, hstructs]
  rfl

end MoveDesk
