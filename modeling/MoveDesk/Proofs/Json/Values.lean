import Mathlib.Data.List.DropRight
import Mathlib.Data.List.Forall2
import MoveDesk.Proofs.Json.Quotes

/-!
# Reading values, turn by turn

The reader goes from one turn to the next: behind a value, or before one inside an array or an
object. `start?` and `turn?` say what a turn does, apart from the arrays and objects that are open
around it (`value_eq`, `resume_cons`), so what is read inside them is what is read alone
(`value_cons`).

What stands in an array or an object is then a sequence of its own (`Elements`, `Members`), and
whatever can be read can be passed over as well.

Headlines:
* **`value_array_iff`**, **`value_object_iff`**: the items of an array and the fields of an object.
* **`value_lexical`**: a value that is read with strict care ends where one that is passed over
  does.
-/

namespace MoveDesk.Json

/-! ## Turns -/

/-- Where a reader stands. -/
inductive Turn where
  /-- Behind a value. -/
  | closed (v : Json) (rest : Bytes)
  /-- Before a value inside an array or an object. -/
  | opened (frame : Partial) (rest : Bytes)

/-- The input that is left. -/
def Turn.rest : Turn → Bytes
  | closed _ rest => rest
  | opened _ rest => rest

/-- The turn before a field of an object, behind those already read. -/
def openField? (care : Care) (found : List (String × Json)) (input : Bytes) : Option Turn :=
  (fieldName? care input).map fun (name, rest) => .opened (.object found name) rest

/-- The turn before a value. -/
def start? (care : Care) (input : Bytes) : Option Turn :=
  match skipSpace input with
  | 0x5b :: rest =>
    match skipSpace rest with
    | 0x5d :: rest => some (.closed (.array []) rest)
    | rest => some (.opened (.array []) rest)
  | 0x7b :: rest =>
    match skipSpace rest with
    | 0x7d :: rest => some (.closed (.object []) rest)
    | rest => openField? care [] rest
  | input => (scalar? care input).map fun (v, rest) => .closed v rest

/-- The turn behind a value inside an array or an object. -/
def turn? (care : Care) (v : Json) (input : Bytes) : Partial → Option Turn
  | .array items =>
    match skipSpace input with
    | 0x2c :: rest => some (.opened (.array (v :: items)) rest)
    | 0x5d :: rest => some (.closed (.array (v :: items).reverse) rest)
    | _ => none
  | .object fields name =>
    match skipSpace input with
    | 0x2c :: rest => openField? care ((name, v) :: fields) rest
    | 0x7d :: rest => some (.closed (.object ((name, v) :: fields).reverse) rest)
    | _ => none

/-- Goes on inside the given open arrays and objects. -/
def proceed (care : Care) (stack : List Partial) : Turn → Option (Json × Bytes)
  | .closed v rest => resume care stack v rest
  | .opened frame rest => value care (frame :: stack) rest

variable {care : Care} {stack : List Partial} {input rest : Bytes}

theorem value_eq (care : Care) (stack : List Partial) (input : Bytes) :
    value care stack input = (start? care input).bind (proceed care stack) := by
  rw [value, start?]
  split
  · rename_i behind hstart
    simp only [hstart]
    split
    · rename_i hnext
      simp only [hnext]
      rfl
    · simp only
      rfl
  · rename_i behind hstart
    simp only [hstart]
    split
    · rename_i hnext
      simp only [hnext]
      rfl
    · simp only [openField?]
      cases fieldName? care (skipSpace behind) <;> rfl
  · simp only
    cases scalar? care (skipSpace input) <;> rfl

theorem resume_nil (care : Care) (v : Json) (input : Bytes) :
    resume care [] v input = some (v, input) := by
  rw [resume.eq_def]

theorem eq_of_proceed_closed {v w : Json} {after : Bytes}
    (h : proceed care [] (.closed w after) = some (v, rest)) : w = v ∧ after = rest :=
  Prod.mk.inj (Option.some.inj ((resume_nil care w after).symm.trans h))

theorem resume_cons (care : Care) (frame : Partial) (stack : List Partial) (v : Json)
    (input : Bytes) :
    resume care (frame :: stack) v input =
      (turn? care v input frame).bind (proceed care stack) := by
  rw [resume.eq_def]
  cases frame with
  | array items =>
    simp only [turn?]
    split <;> rename_i hnext <;> simp only [hnext] <;> rfl
  | object fields name =>
    simp only [turn?]
    split
    · rename_i behind hnext
      simp only [hnext, openField?]
      cases fieldName? care behind <;> rfl
    · rename_i hnext
      simp only [hnext]
      rfl
    · simp only
      rfl

theorem length_lt_of_start? {turn : Turn} (h : start? care input = some turn) :
    turn.rest.length < input.length := by
  have hspace := length_skipSpace_le input
  unfold start? at h
  split at h
  · rename_i behind hstart
    have := length_skipSpace_le behind
    split at h <;> cases h <;> simp only [Turn.rest] <;> grind
  · rename_i behind hstart
    have := length_skipSpace_le behind
    split at h
    · cases h
      simp only [Turn.rest]
      grind
    · obtain ⟨⟨name, rest⟩, hname, rfl⟩ := Option.map_eq_some_iff.mp h
      have := length_lt_of_fieldName? hname
      simp only [Turn.rest]
      grind
  · obtain ⟨⟨v, rest⟩, hscalar, rfl⟩ := Option.map_eq_some_iff.mp h
    have := length_lt_of_scalar? hscalar
    simp only [Turn.rest]
    omega

theorem length_lt_of_turn? {v : Json} {frame : Partial} {turn : Turn}
    (h : turn? care v input frame = some turn) : turn.rest.length < input.length := by
  have hspace := length_skipSpace_le input
  cases frame with
  | array items =>
    simp only [turn?] at h
    split at h <;> cases h <;> simp only [Turn.rest] <;> grind
  | object fields name =>
    simp only [turn?] at h
    split at h
    · rename_i behind hnext
      obtain ⟨⟨next, rest⟩, hname, rfl⟩ := Option.map_eq_some_iff.mp h
      have := length_lt_of_fieldName? hname
      simp only [Turn.rest]
      grind
    · cases h
      simp only [Turn.rest]
      grind
    · cases h

/-! ## Inside open arrays and objects -/

/-- **What is read inside open arrays and objects** is read before they are gone on with. By
recursion on the input that is left: every turn leaves less. -/
theorem proceed_append (care : Care) (stack more : List Partial) (turn : Turn) :
    proceed care (stack ++ more) turn =
      (proceed care stack turn).bind fun (v, rest) => resume care more v rest :=
  match turn with
  | .closed v rest =>
    match stack with
    | [] => by rw [List.nil_append, proceed, proceed, resume_nil, Option.bind_some]
    | frame :: stack => by
      rw [List.cons_append, proceed, proceed, resume_cons, resume_cons]
      cases hturn : turn? care v rest frame with
      | none => rfl
      | some next =>
        have := length_lt_of_turn? hturn
        exact proceed_append care stack more next
  | .opened frame rest => by
    rw [proceed, proceed, ← List.cons_append, value_eq, value_eq]
    cases hstart : start? care rest with
    | none => rfl
    | some next =>
      have := length_lt_of_start? hstart
      exact proceed_append care (frame :: stack) more next
termination_by turn.rest.length
decreasing_by all_goals assumption

/-- A value inside an array or an object is read as a value alone. -/
theorem value_cons (care : Care) (frame : Partial) (input : Bytes) :
    value care [frame] input =
      (value care [] input).bind fun (v, rest) => resume care [frame] v rest := by
  rw [value_eq, value_eq]
  cases start? care input with
  | none => rfl
  | some turn => exact proceed_append care [] [frame] turn

/-! ## Items and fields -/

/-- The items from the place of one on, and what stands behind their array. -/
inductive Elements (care : Care) : Bytes → List Json → Bytes → Prop where
  /-- The last item. -/
  | last {input behind rest : Bytes} {v : Json} (hvalue : value care [] input = some (v, behind))
      (hclose : skipSpace behind = 0x5d :: rest) : Elements care input [v] rest
  /-- An item before others. -/
  | more {input behind next rest : Bytes} {v : Json} {items : List Json}
      (hvalue : value care [] input = some (v, behind))
      (hcomma : skipSpace behind = 0x2c :: next) (hrest : Elements care next items rest) :
      Elements care input (v :: items) rest

/-- The fields from the place of one on, and what stands behind their object. -/
inductive Members (care : Care) : Bytes → List (String × Json) → Bytes → Prop where
  /-- The last field. -/
  | last {input place behind rest : Bytes} {name : String} {v : Json}
      (hname : fieldName? care input = some (name, place))
      (hvalue : value care [] place = some (v, behind))
      (hclose : skipSpace behind = 0x7d :: rest) : Members care input [(name, v)] rest
  /-- A field before others. -/
  | more {input place behind next rest : Bytes} {name : String} {v : Json}
      {fields : List (String × Json)} (hname : fieldName? care input = some (name, place))
      (hvalue : value care [] place = some (v, behind))
      (hcomma : skipSpace behind = 0x2c :: next) (hrest : Members care next fields rest) :
      Members care input ((name, v) :: fields) rest

/-- **The items of an array**, behind those already read. -/
theorem value_array_iff {input rest : Bytes} {found : List Json} {w : Json} :
    value care [.array found] input = some (w, rest) ↔
      ∃ items, w = .array (found.reverse ++ items) ∧ Elements care input items rest := by
  constructor
  · intro h
    rw [value_cons] at h
    obtain ⟨⟨v, behind⟩, hvalue, h⟩ := Option.bind_eq_some_iff.mp h
    simp only [resume_cons, turn?] at h
    split at h
    · rename_i next hcomma
      have hlt := length_lt_of_value hvalue
      have hspace := length_skipSpace_le behind
      have hnext : value care [.array (v :: found)] next = some (w, rest) := h
      obtain ⟨items, rfl, hitems⟩ := value_array_iff.mp hnext
      refine ⟨v :: items, ?_, .more hvalue hcomma hitems⟩
      rw [List.reverse_cons, List.append_assoc, List.singleton_append]
    · rename_i behind hclose
      obtain ⟨rfl, rfl⟩ := eq_of_proceed_closed h
      exact ⟨[v], by rw [List.reverse_cons], .last hvalue hclose⟩
    · cases h
  · rintro ⟨items, rfl, hitems⟩
    induction hitems generalizing found with
    | last hvalue hclose =>
      rw [value_cons, hvalue, Option.bind_some]
      simp only [resume_cons, turn?, hclose, Option.bind_some, proceed, resume_nil,
        List.reverse_cons]
    | more hvalue hcomma _ ih =>
      rw [value_cons, hvalue, Option.bind_some]
      simp only [resume_cons, turn?, hcomma, Option.bind_some, proceed, ih, List.reverse_cons,
        List.append_assoc, List.singleton_append]
termination_by input.length
decreasing_by grind

/-- **The fields of an object**, behind those already read. -/
theorem value_object_iff {input rest : Bytes} {found : List (String × Json)} {w : Json} :
    (openField? care found input).bind (proceed care []) = some (w, rest) ↔
      ∃ fields, w = .object (found.reverse ++ fields) ∧ Members care input fields rest := by
  constructor
  · intro h
    obtain ⟨turn, hturn, h⟩ := Option.bind_eq_some_iff.mp h
    obtain ⟨⟨name, place⟩, hname, rfl⟩ := Option.map_eq_some_iff.mp hturn
    rw [proceed, value_cons] at h
    obtain ⟨⟨v, behind⟩, hvalue, h⟩ := Option.bind_eq_some_iff.mp h
    simp only [resume_cons, turn?] at h
    split at h
    · rename_i next hcomma
      have hplace := length_lt_of_fieldName? hname
      have hlt := length_lt_of_value hvalue
      have hspace := length_skipSpace_le behind
      obtain ⟨fields, rfl, hfields⟩ := value_object_iff.mp h
      refine ⟨(name, v) :: fields, ?_, .more hname hvalue hcomma hfields⟩
      rw [List.reverse_cons, List.append_assoc, List.singleton_append]
    · rename_i behind hclose
      obtain ⟨rfl, rfl⟩ := eq_of_proceed_closed h
      exact ⟨[(name, v)], by rw [List.reverse_cons], .last hname hvalue hclose⟩
    · cases h
  · rintro ⟨fields, rfl, hfields⟩
    induction hfields generalizing found with
    | last hname hvalue hclose =>
      rw [openField?, hname, Option.map_some, Option.bind_some, proceed, value_cons, hvalue,
        Option.bind_some]
      simp only [resume_cons, turn?, hclose, Option.bind_some, proceed, resume_nil,
        List.reverse_cons]
    | more hname hvalue hcomma _ ih =>
      rw [openField?, hname, Option.map_some, Option.bind_some, proceed, value_cons, hvalue,
        Option.bind_some]
      simp only [resume_cons, turn?, hcomma, ih, List.reverse_cons, List.append_assoc,
        List.singleton_append]
termination_by input.length
decreasing_by grind

/-! ## Values alone -/

theorem skipSpace_skipSpace (input : Bytes) : skipSpace (skipSpace input) = skipSpace input :=
  List.dropWhile_idempotent isSpace input

theorem skipSpace_eq_self {b : UInt8} (h : isSpace b = false) (rest : Bytes) :
    skipSpace (b :: rest) = b :: rest :=
  List.dropWhile_cons_of_neg (Bool.eq_false_iff.mp h)

theorem fieldName?_skipSpace (care : Care) (input : Bytes) :
    fieldName? care (skipSpace input) = fieldName? care input := by
  simp only [fieldName?, skipSpace_skipSpace]

/-- A field starts with a quote. -/
theorem skipSpace_of_fieldName? {found : String × Bytes} (h : fieldName? care input = some found) :
    ∃ behind, skipSpace input = 0x22 :: behind := by
  unfold fieldName? at h
  split at h
  · cases h
  · rename_i htext
    unfold text?At at htext
    split at htext
    · exact ⟨_, ‹_›⟩
    · cases htext

theorem Members.exists_quote {fields : List (String × Json)}
    (h : Members care input fields rest) : ∃ behind, skipSpace input = 0x22 :: behind := by
  cases h with
  | last hname _ _ => exact skipSpace_of_fieldName? hname
  | more hname _ _ _ => exact skipSpace_of_fieldName? hname

theorem members_skipSpace_iff {fields : List (String × Json)} :
    Members care (skipSpace input) fields rest ↔ Members care input fields rest := by
  constructor
  · intro h
    cases h with
    | last hname hvalue hclose =>
      exact .last (fieldName?_skipSpace care input ▸ hname) hvalue hclose
    | more hname hvalue hcomma hrest =>
      exact .more (fieldName?_skipSpace care input ▸ hname) hvalue hcomma hrest
  · intro h
    cases h with
    | last hname hvalue hclose =>
      exact .last ((fieldName?_skipSpace care input).trans hname) hvalue hclose
    | more hname hvalue hcomma hrest =>
      exact .more ((fieldName?_skipSpace care input).trans hname) hvalue hcomma hrest

/-- An object between its braces. -/
inductive Fields (care : Care) (inside : Bytes) : List (String × Json) → Bytes → Prop where
  /-- Nothing. -/
  | none {rest : Bytes} (hclose : skipSpace inside = 0x7d :: rest) : Fields care inside [] rest
  /-- Fields. -/
  | some {fields : List (String × Json)} {rest : Bytes} (h : Members care inside fields rest) :
      Fields care inside fields rest

/-- **A value alone** is an array, an object, or one that holds no other. -/
theorem value_cases {v : Json} (h : value care [] input = some (v, rest)) :
    (∃ items, v = .array items) ∨
      (∃ inside fields, skipSpace input = 0x7b :: inside ∧ v = .object fields ∧
        Fields care inside fields rest) ∨
      scalar? care (skipSpace input) = some (v, rest) := by
  rw [value_eq] at h
  obtain ⟨turn, hstart, h⟩ := Option.bind_eq_some_iff.mp h
  unfold start? at hstart
  split at hstart
  · left
    split at hstart
    · cases hstart
      obtain ⟨rfl, -⟩ := eq_of_proceed_closed h
      exact ⟨[], rfl⟩
    · cases hstart
      obtain ⟨items, rfl, -⟩ := value_array_iff.mp h
      exact ⟨items, rfl⟩
  · right; left
    rename_i inside hinput
    split at hstart
    · rename_i hclose
      cases hstart
      obtain ⟨rfl, rfl⟩ := eq_of_proceed_closed h
      exact ⟨inside, [], hinput, rfl, .none hclose⟩
    · obtain ⟨fields, rfl, hfields⟩ :=
        value_object_iff.mp (Option.bind_eq_some_iff.mpr ⟨turn, hstart, h⟩)
      exact ⟨inside, fields, hinput, rfl, .some (members_skipSpace_iff.mp hfields)⟩
  · right; right
    obtain ⟨⟨w, behind⟩, hscalar, rfl⟩ := Option.map_eq_some_iff.mp hstart
    obtain ⟨rfl, rfl⟩ := eq_of_proceed_closed h
    exact hscalar

theorem value_of_fields {inside : Bytes} {fields : List (String × Json)}
    (hinput : skipSpace input = 0x7b :: inside) (h : Fields care inside fields rest) :
    value care [] input = some (.object fields, rest) := by
  rw [value_eq, start?, hinput]
  cases h with
  | none hclose =>
    simp only [hclose, Option.bind_some, proceed, resume_nil]
  | some h =>
    obtain ⟨behind, hquote⟩ := h.exists_quote
    simp only [hquote]
    exact value_object_iff.mpr ⟨fields, rfl, hquote ▸ members_skipSpace_iff.mpr h⟩

theorem Numeral.json_cases (n : Numeral) :
    (∃ k, n.json = .int k) ∨ ∃ literal, n.json = .real literal := by
  unfold Numeral.json
  obtain ⟨magnitude, more⟩ := leading 0 (chars n.whole)
  dsimp only
  generalize (if n.minus.isEmpty then (magnitude : Int) else -(magnitude : Int)) = k
  split
  · exact Or.inl ⟨k, rfl⟩
  · exact Or.inr ⟨n.literal, rfl⟩

/-- A number stands for no text and no object. -/
theorem number?_ne {v : Json} (h : number? care input = some (v, rest)) :
    (∀ t, v ≠ .text t) ∧ ∀ fields, v ≠ .object fields := by
  unfold number? at h
  split at h
  · cases h
  · rename_i n behind _
    split at h
    · cases h
      exact ⟨nofun, nofun⟩
    · split at h
      · cases h
        rcases n.json_cases with ⟨k, hk⟩ | ⟨literal, hliteral⟩
        · rw [hk]
          exact ⟨nofun, nofun⟩
        · rw [hliteral]
          exact ⟨nofun, nofun⟩
      · cases h

theorem scalar?_cases {v : Json} (h : scalar? care input = some (v, rest)) :
    (∃ t behind, v = .text t ∧ input = 0x22 :: behind ∧ textBody? care behind = some (t, rest)) ∨
      (∀ t, v ≠ .text t) ∧ ∀ fields, v ≠ .object fields := by
  unfold scalar? at h
  split at h
  · obtain ⟨⟨t, behind⟩, htext, heq⟩ := Option.map_eq_some_iff.mp h
    obtain ⟨rfl, rfl⟩ := Prod.mk.inj heq
    exact Or.inl ⟨t, _, rfl, rfl, htext⟩
  · cases h
    exact Or.inr ⟨nofun, nofun⟩
  · cases h
    exact Or.inr ⟨nofun, nofun⟩
  · cases h
    exact Or.inr ⟨nofun, nofun⟩
  · exact Or.inr (number?_ne h)

/-- A text is read from its quote on. -/
theorem exists_textBody?_of_value {t : String} (h : value care [] input = some (.text t, rest)) :
    ∃ behind, skipSpace input = 0x22 :: behind ∧ textBody? care behind = some (t, rest) := by
  rcases value_cases h with ⟨items, hv⟩ | ⟨inside, fields, -, hv, -⟩ | hscalar
  · cases hv
  · cases hv
  · rcases scalar?_cases hscalar with ⟨u, behind, hv, hinput, htext⟩ | ⟨hne, -⟩
    · cases hv
      exact ⟨behind, hinput, htext⟩
    · exact absurd rfl (hne t)

/-- An object is read from its brace on. -/
theorem exists_fields_of_value {fields : List (String × Json)}
    (h : value care [] input = some (.object fields, rest)) :
    ∃ inside, skipSpace input = 0x7b :: inside ∧ Fields care inside fields rest := by
  rcases value_cases h with ⟨items, hv⟩ | ⟨inside, found, hinput, hv, hfields⟩ | hscalar
  · cases hv
  · cases hv
    exact ⟨inside, hinput, hfields⟩
  · rcases scalar?_cases hscalar with ⟨t, behind, hv, -, -⟩ | ⟨-, hne⟩
    · cases hv
    · exact absurd rfl (hne fields)

theorem exists_value_of_parse? {v : Json} (h : parse? input = some v) :
    ∃ rest, value .strict [] input = some (v, rest) := by
  unfold parse? at h
  split at h
  · cases h
  · rename_i found rest hvalue
    split at h
    · cases h
      exact ⟨rest, hvalue⟩
    · cases h

/-! ## Passing over values -/

/-- Both stand before the same kind of value. -/
def Partial.Alike : Partial → Partial → Prop
  | .array _, .array _ => True
  | .object _ _, .object _ _ => True
  | _, _ => False

/-- Both stand at the same place. -/
def Turn.Alike : Turn → Turn → Prop
  | .closed _ rest, .closed _ rest' => rest = rest'
  | .opened frame rest, .opened frame' rest' => frame.Alike frame' ∧ rest = rest'
  | _, _ => False

theorem scalar?_lexical {v : Json} (h : scalar? .strict input = some (v, rest)) :
    ∃ w, scalar? .lexical input = some (w, rest) := by
  unfold scalar? at h ⊢
  split at h
  · obtain ⟨⟨t, behind⟩, htext, heq⟩ := Option.map_eq_some_iff.mp h
    obtain ⟨-, rfl⟩ := Prod.mk.inj heq
    exact ⟨_, Option.map_eq_some_iff.mpr ⟨_, textBody?_lexical htext, rfl⟩⟩
  · cases h
    exact ⟨_, rfl⟩
  · cases h
    exact ⟨_, rfl⟩
  · cases h
    exact ⟨_, rfl⟩
  · unfold number? at h ⊢
    split at h
    · cases h
    · rename_i hn
      simp only at h
      split at h
      · cases h
        exact ⟨_, rfl⟩
      · cases h

theorem fieldName?_lexical {name : String} (h : fieldName? .strict input = some (name, rest)) :
    ∃ other, fieldName? .lexical input = some (other, rest) := by
  obtain ⟨behind, hquote⟩ := skipSpace_of_fieldName? h
  unfold fieldName? at h ⊢
  rw [hquote] at h ⊢
  simp only [text?At] at h ⊢
  split at h
  · cases h
  · rename_i htext
    obtain ⟨_, hcolon, heq⟩ := Option.map_eq_some_iff.mp h
    obtain ⟨-, rfl⟩ := Prod.mk.inj heq
    rw [textBody?_lexical htext]
    exact ⟨_, Option.map_eq_some_iff.mpr ⟨_, hcolon, rfl⟩⟩

theorem openField?_lexical {found found' : List (String × Json)} {turn : Turn}
    (h : openField? .strict found input = some turn) :
    ∃ turn', openField? .lexical found' input = some turn' ∧ turn.Alike turn' := by
  obtain ⟨⟨name, rest⟩, hname, rfl⟩ := Option.map_eq_some_iff.mp h
  obtain ⟨other, hother⟩ := fieldName?_lexical hname
  exact ⟨_, Option.map_eq_some_iff.mpr ⟨_, hother, rfl⟩, trivial, rfl⟩

theorem start?_lexical {turn : Turn} (h : start? .strict input = some turn) :
    ∃ turn', start? .lexical input = some turn' ∧ turn.Alike turn' := by
  unfold start? at h ⊢
  split at h
  · split at h
    · cases h
      exact ⟨_, rfl, rfl⟩
    · cases h
      exact ⟨_, rfl, trivial, rfl⟩
  · split at h
    · cases h
      exact ⟨_, rfl, rfl⟩
    · exact openField?_lexical h
  · obtain ⟨⟨v, rest⟩, hscalar, rfl⟩ := Option.map_eq_some_iff.mp h
    obtain ⟨w, hw⟩ := scalar?_lexical hscalar
    exact ⟨_, Option.map_eq_some_iff.mpr ⟨_, hw, rfl⟩, rfl⟩

theorem turn?_lexical {v w : Json} {frame frame' : Partial} {turn : Turn}
    (hframe : frame.Alike frame') (h : turn? .strict v input frame = some turn) :
    ∃ turn', turn? .lexical w input frame' = some turn' ∧ turn.Alike turn' := by
  cases frame with
  | array items =>
    cases frame' with
    | object fields name => exact hframe.elim
    | array items' =>
      simp only [turn?] at h ⊢
      split at h
      · cases h
        exact ⟨_, rfl, trivial, rfl⟩
      · cases h
        exact ⟨_, rfl, rfl⟩
      · cases h
  | object fields name =>
    cases frame' with
    | array items => exact hframe.elim
    | object fields' name' =>
      simp only [turn?] at h ⊢
      split at h
      · exact openField?_lexical h
      · cases h
        exact ⟨_, rfl, rfl⟩
      · cases h

/-- Reading with lexical care keeps to the turns of reading with strict care. -/
theorem proceed_lexical {stack stack' : List Partial} {turn turn' : Turn} {v : Json}
    {rest : Bytes} (hstack : List.Forall₂ Partial.Alike stack stack') (hturn : turn.Alike turn')
    (h : proceed .strict stack turn = some (v, rest)) :
    ∃ w, proceed .lexical stack' turn' = some (w, rest) := by
  match turn, turn', hturn with
  | .closed u input, .closed u' _, rfl =>
    cases hstack with
    | nil =>
      obtain ⟨-, rfl⟩ := eq_of_proceed_closed h
      exact ⟨u', by rw [proceed, resume_nil]⟩
    | cons hframe hstack =>
      rw [proceed, resume_cons] at h ⊢
      obtain ⟨next, hnext, h⟩ := Option.bind_eq_some_iff.mp h
      obtain ⟨next', hnext', halike⟩ := turn?_lexical (w := u') hframe hnext
      rw [hnext', Option.bind_some]
      have := length_lt_of_turn? hnext
      exact proceed_lexical hstack halike h
  | .opened frame input, .opened frame' _, ⟨hframe, rfl⟩ =>
    rw [proceed, value_eq] at h ⊢
    obtain ⟨next, hnext, h⟩ := Option.bind_eq_some_iff.mp h
    obtain ⟨next', hnext', halike⟩ := start?_lexical hnext
    rw [hnext', Option.bind_some]
    have := length_lt_of_start? hnext
    exact proceed_lexical (.cons hframe hstack) halike h
termination_by turn.rest.length
decreasing_by all_goals assumption

/-- **What is read with strict care can be passed over**, and ends at the same place. -/
theorem value_lexical {v : Json} (h : value .strict [] input = some (v, rest)) :
    ∃ w, value .lexical [] input = some (w, rest) := by
  rw [value_eq] at h ⊢
  obtain ⟨turn, hturn, h⟩ := Option.bind_eq_some_iff.mp h
  obtain ⟨turn', hturn', halike⟩ := start?_lexical hturn
  rw [hturn', Option.bind_some]
  exact proceed_lexical .nil halike h

end MoveDesk.Json
