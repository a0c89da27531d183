import MoveDesk.Json.Reader

/-!
# Request bodies

A request body is JSON that is read from left to right into known fields. What is wrong is either
the JSON itself or what it says, and the first thing wrong decides. Unknown fields are passed
over, and so is whatever comes behind the value.
-/

namespace MoveDesk.Http

/-- What is wrong with a body. -/
inductive BodyFault where
  /-- It is no JSON. -/
  | malformed
  /-- It is JSON of another kind. -/
  | mismatched
deriving DecidableEq, Repr

/-- What a field holds. -/
inductive FieldKind where
  /-- A text. -/
  | text
  /-- An object of texts. -/
  | texts
deriving DecidableEq, Repr

/-- A field of a body. -/
structure BodyField where
  /-- The name. -/
  name : String
  /-- What it holds. -/
  kind : FieldKind
  /-- The field has to be there. -/
  isRequired : Bool := true
deriving DecidableEq, Repr

namespace Body

/-- Fields that were read, the last first. -/
abbrev Found := List (String × Json)

/-- What is wrong where a value of another kind has been expected: a value that holds no other is
read to its end first. -/
def faultAt (input : Bytes) : BodyFault :=
  match skip with
  | 0x5b :: _ | 0x7b :: _ => .mismatched
  | _ => if (Json.scalar? .strict skip).isSome then .mismatched else .malformed
where
  /-- The input behind the space at its start. -/
  skip := Json.skipSpace input

/-- A text. -/
def text (input : Bytes) : Except BodyFault (String × Bytes) :=
  match Json.skipSpace input with
  | 0x22 :: rest =>
    match Json.textBody? .strict rest with
    | some (text, rest) => .ok (text, rest)
    | none => .error .malformed
  | _ => .error (faultAt input)

theorem length_lt_of_text {input rest : Bytes} {t : String} (h : text input = .ok (t, rest)) :
    rest.length < input.length := by
  have := Json.length_skipSpace_le input
  unfold text at h
  split at h
  · split at h
    · rename_i htext
      have := Json.length_lt_of_textBody? htext
      grind
    · cases h
  · cases h

/-- The place of the next part of an array or an object: behind a comma, unless it is the first.
At the closing bracket there is none, and the input behind the bracket is given. -/
def next (closing : UInt8) (isFirst : Bool) (input : Bytes) :
    Except BodyFault (Bytes ⊕ Bytes) :=
  match Json.skipSpace input with
  | [] => .error .malformed
  | b :: rest =>
    if b = closing then .ok (.inr rest)
    else if isFirst then .ok (.inl (b :: rest))
    else if b = 0x2c then
      match Json.skipSpace rest with
      | [] => .error .malformed
      | c :: rest => if c = closing then .error .malformed else .ok (.inl (c :: rest))
    else .error .malformed

theorem length_le_of_next {closing : UInt8} {isFirst : Bool} {input rest : Bytes}
    (h : next closing isFirst input = .ok (.inl rest)) : rest.length ≤ input.length := by
  have := Json.length_skipSpace_le input
  unfold next at h
  split at h
  · cases h
  · rename_i tail heq
    have := Json.length_skipSpace_le tail
    grind

/-- The name of a field, in quotes. -/
def name (input : Bytes) : Except BodyFault (String × Bytes) :=
  match Json.text?At .strict input with
  | some found => .ok found
  | none => .error .malformed

theorem length_lt_of_name {input rest : Bytes} {t : String} (h : name input = .ok (t, rest)) :
    rest.length < input.length := by
  unfold name at h
  split at h
  · rename_i htext
    cases h
    exact Json.length_lt_of_text?At htext
  · cases h

/-- The colon behind the name of a field. -/
def colon (input : Bytes) : Except BodyFault Bytes :=
  match Json.colon? input with
  | some rest => .ok rest
  | none => .error .malformed

theorem length_lt_of_colon {input rest : Bytes} (h : colon input = .ok rest) :
    rest.length < input.length := by
  unfold colon at h
  split at h
  · rename_i hcolon
    cases h
    exact Json.length_lt_of_colon? hcolon
  · cases h

/-- The fields of an object of texts, behind those already read. -/
def textFields (found : Found) (input : Bytes) : Except BodyFault (Json × Bytes) :=
  match _hnext : next 0x7d found.isEmpty input with
  | .error fault => .error fault
  | .ok (.inr rest) => .ok (.object found.reverse, rest)
  | .ok (.inl place) =>
    match _hname : name place with
    | .error fault => .error fault
    | .ok (key, behindName) =>
      match _hcolon : colon behindName with
      | .error fault => .error fault
      | .ok behindColon =>
        match _htext : text behindColon with
        | .error fault => .error fault
        | .ok (value, rest) => textFields ((key, .text value) :: found) rest
termination_by input.length
decreasing_by
  have := length_le_of_next _hnext
  have := length_lt_of_name _hname
  have := length_lt_of_colon _hcolon
  have := length_lt_of_text _htext
  omega

/-- The value of a field. -/
def fieldValue (kind : FieldKind) (input : Bytes) : Except BodyFault (Json × Bytes) :=
  match kind with
  | .text => (text input).map fun (value, rest) => (.text value, rest)
  | .texts =>
    match Json.skipSpace input with
    | 0x7b :: rest => textFields [] rest
    | _ => .error (faultAt input)

theorem length_lt_of_next {closing : UInt8} {isFirst : Bool} {input rest : Bytes}
    (h : next closing isFirst input = .ok (.inr rest)) : rest.length < input.length := by
  have := Json.length_skipSpace_le input
  unfold next at h
  split at h
  · cases h
  · grind

theorem length_lt_of_textFields {found : Found} {input rest : Bytes} {v : Json}
    (h : textFields found input = .ok (v, rest)) : rest.length < input.length := by
  fun_induction textFields found input with
  | case1 | case3 | case4 | case5 => cases h
  | case2 _ _ _ hnext =>
    cases h
    exact length_lt_of_next hnext
  | case6 _ _ _ hnext _ _ hname _ hcolon _ _ htext ih =>
    have := length_le_of_next hnext
    have := length_lt_of_name hname
    have := length_lt_of_colon hcolon
    have := length_lt_of_text htext
    have := ih h
    omega

theorem length_lt_of_fieldValue {kind : FieldKind} {input rest : Bytes} {v : Json}
    (h : fieldValue kind input = .ok (v, rest)) : rest.length < input.length := by
  cases kind with
  | text =>
    simp only [fieldValue] at h
    cases htext : text input with
    | error _ => simp [htext, Except.map] at h
    | ok found =>
      simp only [htext, Except.map, Except.ok.injEq, Prod.mk.injEq] at h
      exact h.2 ▸ length_lt_of_text htext
  | texts =>
    have := Json.length_skipSpace_le input
    simp only [fieldValue] at h
    split at h
    · have := length_lt_of_textFields h
      grind
    · cases h

/-- What is read when there is no more: every field that has to be there was found. -/
def finish (fields : List BodyField) (found : Found) : Except BodyFault Json :=
  if fields.all fun field => !field.isRequired || (found.lookup field.name).isSome then
    .ok (.object found.reverse)
  else .error .mismatched

/-- The fields of an object, behind those already read. No known field may come twice. -/
def objectFields (fields : List BodyField) (found : Found) (isFirst : Bool) (input : Bytes) :
    Except BodyFault Json :=
  match _hnext : next 0x7d isFirst input with
  | .error fault => .error fault
  | .ok (.inr _) => finish fields found
  | .ok (.inl place) =>
    match _hname : name place with
    | .error fault => .error fault
    | .ok (key, behindName) =>
      match fields.find? (·.name = key) with
      | none =>
        match _hcolon : colon behindName with
        | .error fault => .error fault
        | .ok behindColon =>
          match _hvalue : Json.value .lexical [] behindColon with
          | none => .error .malformed
          | some (_, rest) =>
            objectFields fields found false rest
      | some field =>
        if (found.lookup key).isSome then .error .mismatched
        else
          match _hcolon : colon behindName with
          | .error fault => .error fault
          | .ok behindColon =>
            match _hvalue : fieldValue field.kind behindColon with
            | .error fault => .error fault
            | .ok (value, rest) => objectFields fields ((key, value) :: found) false rest
termination_by input.length
decreasing_by
  · have := length_le_of_next _hnext
    have := length_lt_of_name _hname
    have := length_lt_of_colon _hcolon
    have := Json.length_lt_of_value _hvalue
    omega
  · have := length_le_of_next _hnext
    have := length_lt_of_name _hname
    have := length_lt_of_colon _hcolon
    have := length_lt_of_fieldValue _hvalue
    omega

/-- The fields in an array, in order, behind those already read. There may be no more items than
fields. -/
def arrayFields (fields remaining : List BodyField) (found : Found) (isFirst : Bool)
    (input : Bytes) : Except BodyFault Json :=
  match remaining with
  | [] =>
    match Json.skipSpace input with
    | 0x5d :: _ => finish fields found
    | _ => .error .malformed
  | field :: remaining =>
    match next 0x5d isFirst input with
    | .error fault => .error fault
    | .ok (.inr _) => finish fields found
    | .ok (.inl place) =>
      match fieldValue field.kind place with
      | .error fault => .error fault
      | .ok (value, rest) => arrayFields fields remaining ((field.name, value) :: found) false rest

/-- The fields of a body, from an object or from an array in order. -/
def read (fields : List BodyField) (body : Bytes) : Except BodyFault Json :=
  match Json.skipSpace body with
  | 0x7b :: rest => objectFields fields [] true rest
  | 0x5b :: rest => arrayFields fields fields [] true rest
  | _ => .error (faultAt body)

end Body

end MoveDesk.Http
