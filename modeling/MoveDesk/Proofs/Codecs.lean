import Mathlib.Data.List.Forall2
import MoveDesk.Json.Codec
import MoveDesk.Proofs.Writes

/-!
# Laws of codecs

A value is written in one form, and read from several. `RoundTrips` says that a type loses nothing
by this: each value is read back from the form it is written in, and what is read in any form at all
is written in that one.

Headlines:
* **`RoundTripsOn.of_decode?_encode`**: it is enough that what is written is read back.
* **`required_of_mem`**, **`withDefault_of_mem`**: a record is read back field by field.
-/

namespace MoveDesk

/-- A list is read item by item. -/
theorem mapM_eq_some_iff {α β : Type} {read : α → Option β} {items : List α} {values : List β} :
    items.mapM read = some values ↔
      List.Forall₂ (fun item value => read item = some value) items values := by
  induction items generalizing values with
  | nil => simp [eq_comm]
  | cons item items ih =>
    rw [List.mapM_cons]
    constructor
    · intro h
      obtain ⟨value, hvalue, h⟩ := Option.bind_eq_some_iff.mp h
      obtain ⟨rest, hrest, h⟩ := Option.bind_eq_some_iff.mp h
      cases h
      exact .cons hvalue (ih.mp hrest)
    · rintro (_ | ⟨hvalue, hrest⟩)
      rw [hvalue, ih.mpr hrest]
      rfl

/-- Items that are each read back are read back as a list. -/
theorem mapM_map_of_forall {α β : Type} {write : β → α} {read : α → Option β}
    (values : List β) (h : ∀ value ∈ values, read (write value) = some value) :
    (values.map write).mapM read = some values := by
  rw [mapM_eq_some_iff, List.forall₂_map_left_iff, List.forall₂_same]
  exact h

namespace Codec

/-! ## Texts and lists -/

theorem decode?_text_iff {json : Json} {text : String} :
    decode? json = some text ↔ json = .text text := by
  cases json <;> simp [decode?, Json.text?]

theorem decode?_list_iff {α : Type} [Codec α] {json : Json} {values : List α} :
    decode? json = some values ↔
      ∃ items, json = .array items ∧
        List.Forall₂ (fun item value => decode? item = some value) items values := by
  cases json <;> simp [decode?, mapM_eq_some_iff]

theorem decode?_texts_iff {json : Json} {texts : List String} :
    decode? json = some texts ↔ json = .texts texts := by
  simp only [decode?_list_iff, decode?_text_iff]
  rw [Json.texts]
  constructor
  · rintro ⟨items, rfl, hitems⟩
    rw [← List.forall₂_map_right_iff, List.forall₂_eq_eq_eq] at hitems
    rw [hitems]
  · rintro rfl
    refine ⟨_, rfl, ?_⟩
    rw [← List.forall₂_map_right_iff, List.forall₂_eq_eq_eq]

theorem decode?_encode_texts (texts : List String) : decode? (encode texts) = some texts :=
  decode?_texts_iff.mpr rfl

/-! ## Numbers -/

theorem decode?_encode_nat {n : Nat} (h : n < UInt64.size) : decode? (encode n) = some n := by
  have hnonneg : (0 : Int) ≤ n := Int.natCast_nonneg n
  simp [decode?, encode, Json.nat, hnonneg, h]

theorem lt_of_decode?_nat {json : Json} {n : Nat} (h : decode? json = some n) :
    n < UInt64.size := by
  cases json with
  | int value =>
    obtain ⟨hbounds, heq⟩ := Option.ite_none_right_eq_some.mp h
    cases heq
    exact of_decide_eq_true (Bool.and_eq_true_iff.mp hbounds).2
  | _ => cases h

/-! ## Records -/

section Records

variable {α : Type} [Codec α] {fields : List (String × Json)} {name : String}
  {default value : α}

/-- The fields of an object, by name. -/
def recordOf (fields : List (String × Json)) : Record := fun name =>
  Json.field? name (.object fields)

theorem record?_object (names : List String) (fields : List (String × Json)) :
    record? names (.object fields) = some (recordOf fields) := rfl

theorem lt_of_required_nat {record : Record} {n : Nat} (h : required record name = some n) :
    n < UInt64.size := by
  obtain ⟨json, -, hjson⟩ := Option.bind_eq_some_iff.mp h
  exact lt_of_decode?_nat hjson

/-- A step of a reader that succeeds. -/
theorem bind_eq_some {β γ : Type} {read : Option β} {next : β → Option γ} {found : β} {result : γ}
    (h : read = some found) (hnext : next found = some result) : read.bind next = some result :=
  Option.bind_eq_some_iff.mpr ⟨found, h, hnext⟩

/-- A field is found where no name stands twice. -/
theorem recordOf_of_mem (hfields : (fields.map (·.1)).Nodup) {json : Json}
    (hmem : (name, json) ∈ fields) : recordOf fields name = some json := by
  rw [recordOf, Json.field?, lookup_reverse_of_nodup hfields,
    lookup_eq_some_iff_of_nodup hfields]
  exact hmem

theorem required_of_mem (hfields : (fields.map (·.1)).Nodup) (hmem : (name, encode value) ∈ fields)
    (h : decode? (encode value) = some value) :
    required (recordOf fields) name = some value := by
  rw [required, recordOf_of_mem hfields hmem]
  exact h

theorem withDefault_of_mem (hfields : (fields.map (·.1)).Nodup)
    (hmem : (name, encode value) ∈ fields) (h : decode? (encode value) = some value) :
    withDefault default (recordOf fields) name = some value := by
  rw [withDefault, recordOf_of_mem hfields hmem]
  exact h

end Records

/-! ## Round trips -/

/-- What is written of a value is read back as the value, and what is read is written in one form,
which is read and written as itself. -/
structure RoundTripsOn (α : Type) [Codec α] (IsValue : α → Prop) : Prop where
  /-- What is written is read back. -/
  decode?_encode : ∀ value, IsValue value → decode? (encode value) = some value
  /-- Only values are read. -/
  isValue : ∀ json (value : α), decode? json = some value → IsValue value
  /-- What is read, in whatever form, is written in a form that stays. -/
  normalizes : ∀ json (value : α), decode? json = some value →
    ∃ again : α, decode? (encode value) = some again ∧ again = value ∧ encode again = encode value

/-- Every value is read back. -/
abbrev RoundTrips (α : Type) [Codec α] : Prop := RoundTripsOn α fun _ => True

theorem RoundTripsOn.of_decode?_encode {α : Type} [Codec α] {IsValue : α → Prop}
    (h : ∀ value, IsValue value → decode? (encode value) = some value)
    (hvalue : ∀ json (value : α), decode? json = some value → IsValue value) :
    RoundTripsOn α IsValue where
  decode?_encode := h
  isValue := hvalue
  normalizes json value hread := ⟨value, h value (hvalue json value hread), rfl, rfl⟩

theorem RoundTrips.of_decode?_encode {α : Type} [Codec α]
    (h : ∀ value : α, decode? (encode value) = some value) : RoundTrips α :=
  RoundTripsOn.of_decode?_encode (fun value _ => h value) fun _ _ _ => trivial

end Codec

end MoveDesk
