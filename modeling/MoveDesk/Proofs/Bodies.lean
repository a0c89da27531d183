import MoveDesk.Http.Server
import MoveDesk.Proofs.Json.Values

/-!
# What is read of a request body

A body is read field by field, and its JSON is not looked at as a whole. Where it is a JSON object
whose known fields hold what they have to hold, and come once, these are what is read, whatever
other fields stand among them and whatever space and escapes the body is written with.

Headlines:
* **`read_of_value`**: the known fields of a JSON object are read.
* **`readBody_of_perm`**: what the server reads of a request with such a body.
* **`readCode_of_hasCode`**: the code that it reads of one.
-/

namespace MoveDesk.Http

open Json (Members Fields skipSpace)

/-- Texts by name, as an object. -/
def textsJson (entries : List (String × String)) : Json :=
  .object (entries.map fun (name, value) => (name, .text value))

/-- The value is of the kind. -/
def FieldKind.Holds : FieldKind → Json → Prop
  | text, v => ∃ t, v = .text t
  | texts, v => ∃ entries, v = textsJson entries

namespace Body

variable {input place rest : Bytes}

/-! ## The parts of a body -/

theorem text_of_value {t : String} (h : Json.value .strict [] input = some (.text t, rest)) :
    text input = .ok (t, rest) := by
  obtain ⟨behind, hinput, htext⟩ := Json.exists_textBody?_of_value h
  simp only [text, hinput, htext]

/-- At the start of an object its first part comes next. -/
theorem next_first {behind : Bytes} (h : skipSpace input = 0x22 :: behind) :
    next 0x7d true input = .ok (.inl (skipSpace input)) := by
  simp only [next, h]
  rfl

/-- Behind a comma another part comes next. -/
theorem next_comma {more behind : Bytes} (hcomma : skipSpace input = 0x2c :: more)
    (h : skipSpace more = 0x22 :: behind) :
    next 0x7d false input = .ok (.inl (skipSpace more)) := by
  simp only [next, hcomma, h]
  rfl

theorem next_close (h : skipSpace input = 0x7d :: rest) (isFirst : Bool) :
    next 0x7d isFirst input = .ok (.inr rest) := by
  simp only [next, h]
  rfl

theorem exists_name {key : String} (h : Json.fieldName? .strict input = some (key, place)) :
    ∃ behind, name (skipSpace input) = .ok (key, behind) ∧ colon behind = .ok place := by
  unfold Json.fieldName? at h
  split at h
  · cases h
  · rename_i found behind htext
    obtain ⟨_, hcolon, heq⟩ := Option.map_eq_some_iff.mp h
    obtain ⟨rfl, rfl⟩ := Prod.mk.inj heq
    exact ⟨behind, by simp only [name, htext], by simp only [colon, hcolon]⟩

/-! ## An object of texts -/

theorem textFields_eq {found : Found} {key value : String} {behindName behindColon : Bytes}
    (hnext : next 0x7d found.isEmpty input = .ok (.inl place))
    (hname : name place = .ok (key, behindName)) (hcolon : colon behindName = .ok behindColon)
    (htext : text behindColon = .ok (value, rest)) :
    textFields found input = textFields ((key, .text value) :: found) rest := by
  rw [textFields]
  grind

theorem textFields_close {found : Found} (hclose : skipSpace input = 0x7d :: rest) :
    textFields found input = .ok (.object found.reverse, rest) := by
  have hnext := next_close hclose found.isEmpty
  rw [textFields]
  grind

/-- The fields of an object of texts are read, behind those already read. -/
theorem textFields_of_members {fields : List (String × Json)}
    (h : Members .strict input fields rest) (htexts : ∀ entry ∈ fields, ∃ t, entry.2 = .text t)
    {found : Found} {isFirst : Bool}
    (hnext : next 0x7d isFirst place = .ok (.inl (skipSpace input)))
    (hfirst : found.isEmpty = isFirst) :
    textFields found place = .ok (.object (found.reverse ++ fields), rest) := by
  induction h generalizing found isFirst place with
  | last hname hvalue hclose =>
    obtain ⟨t, rfl⟩ := htexts _ List.mem_cons_self
    obtain ⟨behind, hkey, hcolon⟩ := exists_name hname
    rw [textFields_eq (hfirst ▸ hnext) hkey hcolon (text_of_value hvalue), textFields_close hclose,
      List.reverse_cons]
  | more hname hvalue hcomma hrest ih =>
    obtain ⟨⟨t, rfl⟩, hothers⟩ := List.forall_mem_cons.mp htexts
    obtain ⟨behind, hkey, hcolon⟩ := exists_name hname
    obtain ⟨_, hquote⟩ := hrest.exists_quote
    rw [textFields_eq (hfirst ▸ hnext) hkey hcolon (text_of_value hvalue),
      ih hothers (next_comma hcomma hquote) rfl, List.reverse_cons, List.append_assoc,
      List.singleton_append]

/-- A value of the kind is read. -/
theorem fieldValue_of_value {kind : FieldKind} {v : Json} (hkind : kind.Holds v)
    (h : Json.value .strict [] input = some (v, rest)) :
    fieldValue kind input = .ok (v, rest) := by
  cases kind with
  | text =>
    obtain ⟨t, rfl⟩ := hkind
    rw [fieldValue, text_of_value h]
    rfl
  | texts =>
    obtain ⟨entries, rfl⟩ := hkind
    obtain ⟨inside, hinput, hfields⟩ := Json.exists_fields_of_value h
    simp only [fieldValue, hinput]
    generalize hobject : entries.map (fun (name, value) => (name, Json.text value)) = fields
      at hfields
    have htexts : ∀ entry ∈ fields, ∃ t, entry.2 = .text t := by
      subst hobject
      intro entry hentry
      obtain ⟨pair, -, rfl⟩ := List.mem_map.mp hentry
      exact ⟨pair.2, rfl⟩
    rw [textsJson, hobject]
    cases hfields with
    | none hclose => exact textFields_close hclose
    | some hmembers =>
      obtain ⟨_, hquote⟩ := hmembers.exists_quote
      exact textFields_of_members hmembers htexts (next_first hquote) rfl

/-! ## The known fields of an object -/

/-- Where no name comes twice, what stands under a name is the field of that name. -/
theorem field?_of_nodup {entries : List (String × Json)} {entry : String × Json}
    (hnodup : (entries.map (·.1)).Nodup) (h : entry ∈ entries) :
    Json.field? entry.1 (.object entries) = some entry.2 := by
  have hreversed : (entries.reverse.map (·.1)).Nodup :=
    ((List.reverse_perm entries).map Prod.fst).nodup_iff.mpr hnodup
  obtain ⟨before, after, hsplit⟩ := List.append_of_mem (List.mem_reverse.mpr h)
  refine List.lookup_eq_some_iff.mpr ⟨before, after, hsplit, fun other hother => ?_⟩
  rw [hsplit, List.map_append, List.nodup_append] at hreversed
  have hne := hreversed.2.2 other.1 (List.mem_map_of_mem hother) entry.1 List.mem_cons_self
  exact bne_iff_ne.mpr hne.symm

/-- The known ones among the fields of an object. -/
def known (fields : List BodyField) (entries : List (String × Json)) : List (String × Json) :=
  entries.filter fun entry => (fields.find? (·.name = entry.1)).isSome

variable {fields : List BodyField} {found : Found} {isFirst : Bool}

theorem known_eq_filter (fields : List BodyField) (entries : List (String × Json)) :
    known fields entries = entries.filter (·.1 ∈ fields.map (·.name)) := by
  refine List.filter_congr fun entry _ => ?_
  rw [Bool.eq_iff_iff, List.find?_isSome, decide_eq_true_iff, List.mem_map]
  simp only [decide_eq_true_iff]

theorem objectFields_close (hclose : skipSpace input = 0x7d :: rest) :
    objectFields fields found isFirst input = finish fields found := by
  have hnext := next_close hclose isFirst
  rw [objectFields]
  grind

/-- A field that is not known is passed over. -/
theorem objectFields_unknown {key : String} {v : Json} {behindName behindColon : Bytes}
    (hnext : next 0x7d isFirst input = .ok (.inl place))
    (hname : name place = .ok (key, behindName)) (hcolon : colon behindName = .ok behindColon)
    (hfind : fields.find? (·.name = key) = none)
    (hvalue : Json.value .lexical [] behindColon = some (v, rest)) :
    objectFields fields found isFirst input = objectFields fields found false rest := by
  rw [objectFields]
  grind

/-- A field that is known is read, if it was not read before. -/
theorem objectFields_known {key : String} {field : BodyField} {v : Json}
    {behindName behindColon : Bytes} (hnext : next 0x7d isFirst input = .ok (.inl place))
    (hname : name place = .ok (key, behindName)) (hcolon : colon behindName = .ok behindColon)
    (hfind : fields.find? (·.name = key) = some field) (hfound : found.lookup key = none)
    (hvalue : fieldValue field.kind behindColon = .ok (v, rest)) :
    objectFields fields found isFirst input =
      objectFields fields ((key, v) :: found) false rest := by
  rw [objectFields]
  grind

theorem known_cons (entry : String × Json) (entries : List (String × Json)) :
    known fields (entry :: entries) = known fields [entry] ++ known fields entries :=
  List.filter_append [entry] entries

theorem known_singleton (entry : String × Json) :
    known fields [entry] = if (fields.find? (·.name = entry.1)).isSome then [entry] else [] :=
  List.filter_cons

/-- What one field of an object does: a known one is read, any other passed over. -/
theorem objectFields_field {key : String} {v : Json} {behind : Bytes}
    (hnext : next 0x7d isFirst input = .ok (.inl (skipSpace place)))
    (hname : Json.fieldName? .strict place = some (key, behind))
    (hvalue : Json.value .strict [] behind = some (v, rest))
    (hkind : ∀ field, fields.find? (·.name = key) = some field → field.kind.Holds v)
    (hfound : (fields.find? (·.name = key)).isSome → found.lookup key = none) :
    objectFields fields found isFirst input =
      objectFields fields ((known fields [(key, v)]).reverse ++ found) false rest := by
  obtain ⟨behindName, hkey, hcolon⟩ := exists_name hname
  rw [known_singleton]
  cases hfind : fields.find? (·.name = key) with
  | none =>
    obtain ⟨w, hw⟩ := Json.value_lexical hvalue
    exact objectFields_unknown hnext hkey hcolon hfind hw
  | some field =>
    exact objectFields_known hnext hkey hcolon hfind (hfound (hfind ▸ rfl))
      (fieldValue_of_value (hkind field hfind) hvalue)

/-- What a body asks of the fields of its object: known ones hold what they have to, and none of
them comes twice, those already read included. -/
structure Fits (fields : List BodyField) (found : Found) (entries : List (String × Json)) :
    Prop where
  /-- A known field holds what it has to. -/
  kinds : ∀ entry ∈ entries, ∀ field, fields.find? (·.name = entry.1) = some field →
    field.kind.Holds entry.2
  /-- No known field comes twice. -/
  nodup : ((found.reverse ++ known fields entries).map (·.1)).Nodup

theorem Fits.lookup_eq_none {key : String} {v : Json} {entries : List (String × Json)}
    (h : Fits fields found ((key, v) :: entries))
    (hkey : (fields.find? (·.name = key)).isSome) : found.lookup key = none := by
  have hnodup := h.nodup
  rw [known_cons, known_singleton, if_pos hkey, List.map_append, List.nodup_append] at hnodup
  refine List.lookup_eq_none_iff.mpr fun entry hentry => ?_
  have hne := hnodup.2.2 entry.1 (List.mem_map_of_mem (List.mem_reverse.mpr hentry)) key
    List.mem_cons_self
  exact bne_iff_ne.mpr hne.symm

theorem Fits.tail {entry : String × Json} {entries : List (String × Json)}
    (h : Fits fields found (entry :: entries)) :
    Fits fields ((known fields [entry]).reverse ++ found) entries where
  kinds := fun other hother => h.kinds other (List.mem_cons_of_mem _ hother)
  nodup := by
    have hnodup := h.nodup
    rwa [known_cons, ← List.append_assoc, ← List.reverse_reverse (known fields [entry]),
      ← List.reverse_append] at hnodup

/-- **The known fields of an object are read**, behind those already read. -/
theorem objectFields_of_members {entries : List (String × Json)}
    (h : Members .strict input entries rest) (hfits : Fits fields found entries)
    (hnext : next 0x7d isFirst place = .ok (.inl (skipSpace input))) :
    objectFields fields found isFirst place =
      finish fields ((known fields entries).reverse ++ found) := by
  induction h generalizing found isFirst place with
  | last hname hvalue hclose =>
    rw [objectFields_field hnext hname hvalue (hfits.kinds _ List.mem_cons_self)
      hfits.lookup_eq_none, objectFields_close hclose]
  | @more _ _ _ _ _ key v others hname hvalue hcomma hrest ih =>
    obtain ⟨_, hquote⟩ := hrest.exists_quote
    rw [objectFields_field hnext hname hvalue (hfits.kinds _ List.mem_cons_self)
      hfits.lookup_eq_none, ih hfits.tail (next_comma hcomma hquote), known_cons (key, v) others,
      List.reverse_append, List.append_assoc]

/-- **The known fields of a JSON object are read**, if no field is missing. -/
theorem read_of_value {body : Bytes} {entries : List (String × Json)}
    (h : Json.value .strict [] body = some (.object entries, rest)) (hfits : Fits fields [] entries)
    (hrequired : ∀ field ∈ fields, field.isRequired = true → ∃ v, (field.name, v) ∈ entries) :
    read fields body = .ok (.object (known fields entries)) := by
  obtain ⟨inside, hinput, hfields⟩ := Json.exists_fields_of_value h
  have hread : read fields body = finish fields (known fields entries).reverse := by
    simp only [read, hinput]
    cases hfields with
    | none hclose => exact objectFields_close hclose
    | some hmembers =>
      obtain ⟨_, hquote⟩ := hmembers.exists_quote
      rw [objectFields_of_members hmembers hfits (next_first hquote), List.append_nil]
  have hall : (fields.all fun field =>
      !field.isRequired || ((known fields entries).reverse.lookup field.name).isSome) = true := by
    refine List.all_eq_true.mpr fun field hfield => ?_
    cases hneeded : field.isRequired with
    | false => rfl
    | true =>
      obtain ⟨v, hv⟩ := hrequired field hfield hneeded
      have hfind : (fields.find? (·.name = field.name)).isSome := by
        exact List.find?_isSome.mpr ⟨field, hfield, decide_eq_true rfl⟩
      have hknown : (field.name, v) ∈ (known fields entries).reverse :=
        List.mem_reverse.mpr (List.mem_filter.mpr ⟨hv, hfind⟩)
      rw [Bool.not_true, Bool.false_or, Option.isSome_iff_ne_none, ne_eq, List.lookup_eq_none_iff]
      intro hnone
      exact absurd (hnone _ hknown) (by simp)
  rw [hread, finish, if_pos hall, List.reverse_reverse]

end Body

/-! ## The body of a request -/

/-- **What the server reads of a body**: any JSON object whose known fields are the expected ones,
in any order, has these. -/
theorem Server.readBody_of_perm {fields : List BodyField} {request : Request}
    {entries expected : List (String × Json)}
    (hkinds : ∀ entry ∈ expected, ∀ field ∈ fields, field.name = entry.1 →
      field.kind.Holds entry.2)
    (hnodup : (expected.map (·.1)).Nodup)
    (hrequired : ∀ field ∈ fields, field.isRequired = true → field.name ∈ expected.map (·.1))
    (hjson : request.isJson = true) (hlength : request.body.length ≤ bodyLimit)
    (hparse : Json.parse? request.body = some (.object entries))
    (hperm : (entries.filter (·.1 ∈ fields.map (·.name))).Perm expected) :
    ∃ found, readBody fields request = .ok (.object found) ∧
      ∀ entry ∈ expected, Json.field? entry.1 (.object found) = some entry.2 := by
  obtain ⟨rest, hvalue⟩ := Json.exists_value_of_parse? hparse
  rw [← Body.known_eq_filter] at hperm
  have hfits : Body.Fits fields [] entries := by
    refine ⟨fun entry hentry field hfind => ?_, (hperm.map Prod.fst).nodup_iff.mpr hnodup⟩
    have hknown : entry ∈ Body.known fields entries :=
      List.mem_filter.mpr ⟨hentry, by rw [hfind]; rfl⟩
    have hname := List.find?_some hfind
    rw [decide_eq_true_iff] at hname
    exact hkinds entry (hperm.mem_iff.mp hknown) field (List.mem_of_find?_eq_some hfind) hname
  have hpresent : ∀ field ∈ fields, field.isRequired = true →
      ∃ v, (field.name, v) ∈ entries := by
    intro field hfield hneeded
    obtain ⟨⟨name, v⟩, hmem, hname⟩ := List.mem_map.mp (hrequired field hfield hneeded)
    exact ⟨v, hname ▸ List.mem_of_mem_filter (hperm.mem_iff.mpr hmem)⟩
  refine ⟨Body.known fields entries, ?_, fun entry hentry =>
    Body.field?_of_nodup hfits.nodup (hperm.mem_iff.mpr hentry)⟩
  rw [readBody, hjson, if_neg (by decide), if_neg (Nat.not_lt.mpr hlength),
    Body.read_of_value hvalue hfits hpresent]
  rfl

/-- The body of the request is any JSON object whose code is the source; other fields do not
matter. -/
structure Request.HasCode (request : Request) (source : String) : Prop where
  /-- The body is said to be JSON. -/
  isJson : request.isJson = true
  /-- The body is not too long. -/
  length_le : request.body.length ≤ 2097152
  /-- The body holds the code. -/
  body : ∃ fields, Json.parse? request.body = some (.object fields) ∧
    fields.filter (·.1 ∈ ["code"]) = [("code", .text source)]

/-- **The code that the server reads** of a body that has one. -/
theorem Server.readCode_of_hasCode {request : Request} {source : String}
    (h : request.HasCode source) : readCode request = .ok source := by
  obtain ⟨entries, hparse, hcode⟩ := h.body
  let expected := [("code", Json.text source)]
  have hkinds : ∀ entry ∈ expected, ∀ field ∈ codeFields, field.name = entry.1 →
      field.kind.Holds entry.2 := by
    simp [expected, codeFields, FieldKind.Holds]
  have hnodup : (expected.map (·.1)).Nodup := show ["code"].Nodup by decide
  have hrequired : ∀ field ∈ codeFields, field.isRequired = true → field.name ∈ ["code"] := by
    decide
  obtain ⟨found, hread, hfields⟩ :=
    readBody_of_perm hkinds hnodup hrequired h.isJson h.length_le hparse (.of_eq hcode)
  have hsource : readField (·.bind Codec.decode?) "code" (.object found) = .ok source := by
    rw [readField, hfields _ List.mem_cons_self]
    rfl
  rw [readCode, hread]
  exact hsource

end MoveDesk.Http
