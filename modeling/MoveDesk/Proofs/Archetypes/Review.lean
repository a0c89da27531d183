import MoveDesk.Proofs.Archetypes.Declarations

/-!
# What a review says of generated code

The rules of a review look for literals in a text into which any values may have been put. The
literals that calm a rule stand in the fixed parts of every template, except that those that do not
borrow do not say what they acquire. The literals of the rule about borrowing hold neither a blank
nor a colon, so in the heading they stand inside a value or not at all.

Headlines:
* **`infix_heading_iff`**: where a literal without blanks, colons and braces stands in such a text.
* **`review_of_generated_code`**: generated code is all clear, unless a value of the heading borrows
  and none acquires, in an archetype that does not borrow itself.
-/

namespace MoveDesk

namespace Template

/-- A literal that no blank, colon or brace cuts stands in one of the values or in the members. -/
theorem infix_heading_iff {needle : List Char} (hneedle : needle ≠ [])
    (hblank : ' ' ∉ needle) (hcolon : ':' ∉ needle) (hbrace : '{' ∉ needle)
    (hkeyword : ¬ needle <:+: ['m', 'o', 'd', 'u', 'l', 'e']) (address name : String)
    (members : List Char) :
    needle <:+: heading address name ++ ' ' :: '{' :: members ↔
      needle <:+: address.toList ∨ needle <:+: name.toList ∨ needle <:+: members := by
  have hnil : ¬ needle <:+: [] := mt List.infix_nil.mp hneedle
  have hsplit : heading address name ++ ' ' :: '{' :: members =
      ['m', 'o', 'd', 'u', 'l', 'e'] ++ ' ' :: (address.toList ++ ':' :: ([] ++ ':' ::
        (name.toList ++ ' ' :: ([] ++ '{' :: members)))) := by
    simp [heading, addressHole, nameHole]
  rw [hsplit, Text.infix_append_cons_iff hblank, Text.infix_append_cons_iff hcolon,
    Text.infix_append_cons_iff hcolon, Text.infix_append_cons_iff hblank,
    Text.infix_append_cons_iff hbrace]
  simp only [hkeyword, hnil, false_or]

/-- What stands in the members stands in the code. -/
theorem occursIn_of_members {code : String} {front members : List Char}
    (hcode : code.toList = front ++ ' ' :: '{' :: members) {needle : List Char}
    (h : Text.occursIn needle members = true) : Text.occursIn needle code.toList = true := by
  rw [Text.occursIn_iff] at h ⊢
  rw [hcode]
  exact h.trans (((List.suffix_cons _ _).trans (List.suffix_cons _ _)).trans
    (List.suffix_append _ _)).isInfix

end Template

/-- A rule is calmed by any of the texts that must not occur. -/
theorem ReviewRule.occurrence_eq_false {present absent : List String} {source text : String}
    (htext : text ∈ absent) (h : Text.occursIn text.toList source.toList = true) :
    occurrence present absent source = false := by
  refine Bool.eq_false_iff.mpr fun hoccurs => ?_
  have hcalm := List.all_eq_true.mp (Bool.and_eq_true_iff.mp hoccurs).2 text htext
  rw [h] at hcalm
  cases hcalm

theorem missingAcquires_fires (code : String) :
    ReviewRule.missingAcquires.fires code = true ↔
      Text.occursIn "borrow_global_mut".toList code.toList = true ∧
        ¬ Text.occursIn "acquires".toList code.toList = true := by
  unfold ReviewRule.missingAcquires ReviewRule.occurrence
  simp only [List.all_cons, List.all_nil, Bool.and_true, Bool.and_eq_true, Bool.not_eq_true',
    Bool.not_eq_true]

/-- If abilities and error codes are declared, a review is about what is acquired, or all clear. -/
theorem review_of_mentions {code : String}
    (hkey : Text.occursIn "has key".toList code.toList = true)
    (hconst : Text.occursIn "const E_".toList code.toList = true) :
    Desk.review code =
      if ReviewRule.missingAcquires.fires code then [ReviewRule.missingAcquires.finding]
      else [allClear] := by
  have hstored : ReviewRule.storedWithoutKey.fires code = false := by
    change ReviewRule.occurrence ["move_to", "struct"] ["has key"] code = false
    exact ReviewRule.occurrence_eq_false List.mem_cons_self hkey
  have herrors : ReviewRule.noErrorConstants.fires code = false := by
    change ReviewRule.occurrence [] ["const E_"] code = false
    exact ReviewRule.occurrence_eq_false List.mem_cons_self hconst
  unfold Desk.review review firedFindings reviewRules
  by_cases hfires : ReviewRule.missingAcquires.fires code = true
  · simp [hfires, hstored, herrors]
  · simp [hfires, hstored, herrors]

namespace Template

variable {archetype : Intent} {params : Parameters} {code : String}

/-- The literal stands in the address or the name that the code of the archetype is headed by. -/
def StandsInHeading (archetype : Intent) (params : Parameters) (literal : String) : Prop :=
  literal.toList <:+: params.address.toList ∨
    literal.toList <:+: (moduleName archetype params).toList

/-- A literal that the members do not hold stands in the code where it stands in its heading. -/
theorem occursIn_iff_standsInHeading {members : List Char} {literal : String}
    (hcode : code.toList =
      heading params.address (moduleName archetype params) ++ ' ' :: '{' :: members)
    (hplain : literal.toList ≠ [] ∧ ' ' ∉ literal.toList ∧ ':' ∉ literal.toList ∧
      '{' ∉ literal.toList ∧ Text.occursIn literal.toList ['m', 'o', 'd', 'u', 'l', 'e'] = false)
    (hmembers : Text.occursIn literal.toList members = false) :
    Text.occursIn literal.toList code.toList = true ↔
      StandsInHeading archetype params literal := by
  obtain ⟨hnonempty, hblank, hcolon, hbrace, hkeyword⟩ := hplain
  rw [Bool.eq_false_iff, Ne, Text.occursIn_iff] at hkeyword hmembers
  rw [Text.occursIn_iff, hcode, infix_heading_iff hnonempty hblank hcolon hbrace hkeyword]
  simp only [hmembers, or_false, StandsInHeading]

/-- Where the members say nothing of borrowing, the values of the heading decide. -/
theorem missingAcquires_fires_iff (h : IsLaidOut archetype params code)
    (hborrows : archetype.borrows = false) :
    ReviewRule.missingAcquires.fires code = true ↔
      StandsInHeading archetype params "borrow_global_mut" ∧
        ¬ StandsInHeading archetype params "acquires" := by
  obtain ⟨members, hcode, ⟨-, -, hacquires, hborrow⟩, -⟩ := h
  rw [hborrows] at hacquires hborrow
  have hborrowed := occursIn_iff_standsInHeading hcode (by decide +kernel) hborrow
  have hacquired := occursIn_iff_standsInHeading hcode (by decide +kernel) hacquires
  rw [missingAcquires_fires, hborrowed, hacquired]

/-- What is said of all generated code, the rule about borrowing apart. -/
theorem review_of_isLaidOut (h : IsLaidOut archetype params code) :
    Desk.review code =
      if ReviewRule.missingAcquires.fires code then [ReviewRule.missingAcquires.finding]
      else [allClear] := by
  obtain ⟨members, hcode, ⟨hkey, hconst, -, -⟩, -⟩ := h
  exact review_of_mentions (occursIn_of_members hcode hkey) (occursIn_of_members hcode hconst)

/-- Code that borrows says what it acquires. -/
theorem missingAcquires_silent (h : IsLaidOut archetype params code)
    (hborrows : archetype.borrows = true) : ¬ ReviewRule.missingAcquires.fires code = true := by
  obtain ⟨members, hcode, ⟨-, -, hacquires, -⟩, -⟩ := h
  rw [hborrows] at hacquires
  rw [missingAcquires_fires, occursIn_of_members hcode hacquires]
  exact fun hfires => hfires.2 rfl

end Template

end MoveDesk
