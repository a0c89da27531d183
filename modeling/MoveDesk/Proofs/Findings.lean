import MoveDesk.Finding

/-!
# Findings and their lines

The line of a finding is a marker, one space and a message. A line is read by its marker: no marker
is the front of another, so at most one severity fits, whatever the order in which they are tried.
Behind the marker any number of blanks is passed over where one space is written, and this is all
that keeps reading from undoing writing, and writing from undoing reading.

`IsIn` says that a line is the marker of a finding, a gap of blanks, and its message.

Headlines:
* **`parse?_eq_some_iff`**, **`parse?_eq_none_iff`**: what is read of a line.
* **`parse?_undoes_line`**: where a finding and a line come back.
-/

namespace MoveDesk

open Text (isBlank trimStart)

/-! ## Markers -/

theorem Severity.mem_all (severity : Severity) : severity ∈ Severity.all := by
  cases severity <;> decide

/-- **No marker is the front of another.** -/
theorem Severity.eq_of_prefix_marker {a b : Severity}
    (h : a.marker.toList <+: b.marker.toList) : a = b := by
  have hall : ∀ a ∈ Severity.all, ∀ b ∈ Severity.all,
      a.marker.toList <+: b.marker.toList → a = b := by
    decide +kernel
  exact hall a a.mem_all b b.mem_all h

namespace Finding

variable {line : String} {severity : Severity} {finding : Finding} {gap : List Char}

/-! ## Reading a line -/

/-- A line is read for at most one severity. -/
theorem eq_of_prefix_marker {other : Severity} (h : severity.marker.toList <+: line.toList)
    (hother : other.marker.toList <+: line.toList) : other = severity := by
  rcases List.prefix_or_prefix_of_prefix h hother with hle | hle
  · exact (Severity.eq_of_prefix_marker hle).symm
  · exact Severity.eq_of_prefix_marker hle

theorem parseAs?_of_eq_append {rest : List Char}
    (h : line.toList = severity.marker.toList ++ rest) :
    parseAs? line severity = some ⟨severity, String.ofList (trimStart rest)⟩ := by
  have hfront : severity.marker.toList.isPrefixOf line.toList = true :=
    List.isPrefixOf_iff_prefix.mpr ⟨rest, h.symm⟩
  unfold parseAs?
  simp only [if_pos hfront]
  rw [h, List.drop_left]

theorem parseAs?_eq_none (h : ¬ severity.marker.toList <+: line.toList) :
    parseAs? line severity = none := by
  unfold parseAs?
  exact if_neg (mt List.isPrefixOf_iff_prefix.mp h)

theorem prefix_of_parseAs? (h : parseAs? line severity = some finding) :
    severity.marker.toList <+: line.toList := by
  refine Decidable.byContradiction fun hfront => ?_
  rw [parseAs?_eq_none hfront] at h
  cases h

/-- **A line is not read** exactly where no marker stands at its start. -/
theorem parse?_eq_none_iff :
    parse? line = none ↔ ∀ severity : Severity, ¬ severity.marker.toList <+: line.toList := by
  unfold parse?
  rw [List.findSome?_eq_none_iff]
  constructor
  · rintro h severity ⟨rest, hrest⟩
    have hnone := h severity severity.mem_all
    rw [parseAs?_of_eq_append hrest.symm] at hnone
    cases hnone
  · exact fun h severity _ => parseAs?_eq_none (h severity)

/-- The severity of the marker at its start is the one that a line is read for. -/
theorem parse?_eq_parseAs? (h : severity.marker.toList <+: line.toList) :
    parse? line = parseAs? line severity := by
  cases hparse : parse? line with
  | none => exact absurd h (parse?_eq_none_iff.mp hparse severity)
  | some found =>
    obtain ⟨other, -, hother⟩ := List.exists_of_findSome?_eq_some hparse
    rw [← eq_of_prefix_marker h (prefix_of_parseAs? hother), hother]

/-- **What is read** of a line that starts with a marker: the text behind it, without its leading
blanks. -/
theorem parse?_of_eq_append {rest : List Char} (h : line.toList = severity.marker.toList ++ rest) :
    parse? line = some ⟨severity, String.ofList (trimStart rest)⟩ := by
  rw [parse?_eq_parseAs? ⟨rest, h.symm⟩, parseAs?_of_eq_append h]

/-! ## Findings in lines -/

/-- The message does not start with a blank. -/
def IsTrimmed (finding : Finding) : Prop := ∀ c ∈ finding.message.toList.head?, isBlank c = false

instance (finding : Finding) : Decidable finding.IsTrimmed :=
  inferInstanceAs (Decidable (∀ c ∈ finding.message.toList.head?, isBlank c = false))

/-- The line is the marker of the finding, a gap of blanks, which may be none, and the message. -/
structure IsIn (finding : Finding) (gap : List Char) (line : String) : Prop where
  /-- The three parts, in order. -/
  line_eq : line.toList = finding.severity.marker.toList ++ gap ++ finding.message.toList
  /-- The gap is made of blanks. -/
  gap : ∀ c ∈ gap, isBlank c = true
  /-- All blanks stand in the gap. -/
  isTrimmed : finding.IsTrimmed

theorem IsTrimmed.trimStart_eq (h : finding.IsTrimmed) :
    trimStart finding.message.toList = finding.message.toList := by
  unfold IsTrimmed at h
  unfold trimStart
  cases hmessage : finding.message.toList with
  | nil => rfl
  | cons c rest =>
    rw [hmessage] at h
    exact List.dropWhile_cons_of_neg (by rw [h c rfl]; exact Bool.false_ne_true)

/-- What is left of a text without its leading blanks does not start with one. -/
theorem isTrimmed_trimStart (severity : Severity) (text : List Char) :
    IsTrimmed ⟨severity, String.ofList (trimStart text)⟩ := by
  unfold IsTrimmed
  rw [String.toList_ofList]
  intro c hc
  have hhead := List.head?_dropWhile_not isBlank text
  rw [trimStart] at hc
  rw [Option.mem_def.mp hc] at hhead
  simpa using hhead

/-- **A finding is read of the lines that it is in**, and of no others. -/
theorem parse?_eq_some_iff : parse? line = some finding ↔ ∃ gap, finding.IsIn gap line := by
  constructor
  · intro h
    obtain ⟨severity, -, hsome⟩ := List.exists_of_findSome?_eq_some h
    obtain ⟨rest, hrest⟩ := prefix_of_parseAs? hsome
    rw [parseAs?_of_eq_append hrest.symm] at hsome
    obtain rfl := Option.some.inj hsome
    refine ⟨rest.takeWhile isBlank, ?_, List.all_eq_true.mp List.all_takeWhile,
      isTrimmed_trimStart severity rest⟩
    rw [String.toList_ofList, List.append_assoc, trimStart, List.takeWhile_append_dropWhile, hrest]
  · rintro ⟨gap, hline, hgap, htrimmed⟩
    rw [List.append_assoc] at hline
    have hmessage : trimStart (gap ++ finding.message.toList) = finding.message.toList := by
      rw [trimStart, List.dropWhile_append_of_pos hgap]
      exact htrimmed.trimStart_eq
    rw [parse?_of_eq_append hline, hmessage, String.ofList_toList]

/-! ## Lines of findings -/

theorem toList_line (finding : Finding) :
    finding.line.toList = finding.severity.marker.toList ++ [' '] ++ finding.message.toList := by
  simp [line]

/-- **A finding is read back** from its line, without the blanks that its message starts with. -/
theorem parse?_line (finding : Finding) :
    parse? finding.line =
      some { finding with message := String.ofList (trimStart finding.message.toList) } := by
  have hline := finding.toList_line
  have hspace : isBlank ' ' = true := by decide
  rw [List.append_assoc, List.singleton_append] at hline
  rw [parse?_of_eq_append hline, trimStart, List.dropWhile_cons_of_pos hspace, ← trimStart]

theorem parse?_line_eq_some_iff : parse? finding.line = some finding ↔ finding.IsTrimmed := by
  constructor
  · intro h
    obtain ⟨gap, hgap⟩ := parse?_eq_some_iff.mp h
    exact hgap.isTrimmed
  · intro h
    rw [parse?_line, h.trimStart_eq, String.ofList_toList]

/-- The line that a finding is in is its own where the gap is the one space that is written. -/
theorem IsIn.line_eq_iff (h : finding.IsIn gap line) : finding.line = line ↔ gap = [' '] := by
  rw [← String.toList_inj, toList_line, h.line_eq, List.append_left_inj, List.append_right_inj,
    eq_comm]

/-- **Reading and writing findings**, for every finding and every line:
* a finding is read back from its line without the blanks that its message starts with, so as it is
  exactly if the message starts with none;
* a line is not read exactly if none of the markers stands at its start;
* what is read of a line has a message that starts with no blank, stands in the line behind its
  marker and blanks, and is read back from its own line. That is the same line exactly if the blanks
  are one single space. -/
theorem parse?_undoes_line :
    (∀ finding : Finding,
      parse? finding.line =
          some ⟨finding.severity, String.ofList (trimStart finding.message.toList)⟩ ∧
        (parse? finding.line = some finding ↔
          ∀ c ∈ finding.message.toList.head?, isBlank c = false)) ∧
    ∀ line : String,
      (parse? line = none ↔ ∀ severity : Severity, ¬ severity.marker.toList <+: line.toList) ∧
      ∀ finding : Finding, parse? line = some finding →
        ∃ gap : List Char,
          line.toList = finding.severity.marker.toList ++ gap ++ finding.message.toList ∧
          (∀ c ∈ gap, isBlank c = true) ∧
          (∀ c ∈ finding.message.toList.head?, isBlank c = false) ∧
          parse? finding.line = some finding ∧ (finding.line = line ↔ gap = [' ']) := by
  refine ⟨fun finding => ⟨finding.parse?_line, parse?_line_eq_some_iff⟩,
    fun line => ⟨parse?_eq_none_iff, fun finding h => ?_⟩⟩
  obtain ⟨gap, hgap⟩ := parse?_eq_some_iff.mp h
  exact ⟨gap, hgap.line_eq, hgap.gap, hgap.isTrimmed, parse?_line_eq_some_iff.mpr hgap.isTrimmed,
    hgap.line_eq_iff⟩

/-- A message may start with a marker, and a line with other blanks than a space. -/
example :
    parse? "✅\u3000✅ done " = some ⟨.confirmation, "✅ done "⟩ ∧
      parse? "💡 Suggestion:try" = some ⟨.suggestion, "try"⟩ ∧
      parse? " ✅ done" = none := by
  decide +kernel

end Finding

end MoveDesk
