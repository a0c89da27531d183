import MoveDesk.Proofs.Numerals

/-!
# Addresses are read back

Each part of an address is written so that what stands behind it cannot be taken for more of it: a
point or a colon behind an octet, a colon, a bracket or a percent sign behind a group. So each part
is read back, and the whole from its parts. Zeros that are left out are found again, because there
are always eight groups.

Headlines:
* **`octets?_append`**, **`groups_groupsText`**: octets and groups are read back.
* **`eightGroups?_append`**: so are eight groups, whatever form they are written in.
* **`parse?_text`**: so is every address.
-/

namespace MoveDesk

namespace SocketAddress

open Text (isDigitOf expect?)

/-! ## What stands behind -/

theorem stops_cons {p : Char → Bool} {c : Char} (h : p c = false) (rest : List Char) :
    ∀ d ∈ (c :: rest).head?, p d = false := by
  rintro d ⟨⟩
  exact h

theorem stops_nil {p : Char → Bool} : ∀ c ∈ ([] : List Char).head?, p c = false := by
  rintro _ ⟨⟩

theorem expect?_self (c : Char) (rest : List Char) : expect? c (c :: rest) = some rest :=
  if_pos rfl

theorem expect?_eq_none {c : Char} {text : List Char} (h : ∀ d ∈ text.head?, d ≠ c) :
    expect? c text = none := by
  cases text with
  | nil => rfl
  | cons d text => exact if_neg (h d rfl)

/-- No group goes on here, and no octets do. -/
structure Ends (rest : List Char) : Prop where
  /-- No digit comes next. -/
  notDigit : ∀ c ∈ rest.head?, isDigitOf 16 c = false
  /-- No point comes next. -/
  notPoint : ∀ c ∈ rest.head?, c ≠ '.'

/-- No further group comes. -/
structure Closes (rest : List Char) : Prop extends Ends rest where
  /-- None comes behind a colon. -/
  notGroup : ∀ next, expect? ':' rest = some next → ∀ c ∈ next.head?, isDigitOf 16 c = false

theorem ends_cons {c : Char} (hdigit : isDigitOf 16 c = false) (hpoint : c ≠ '.')
    (rest : List Char) : Ends (c :: rest) := by
  constructor <;> rintro _ ⟨⟩ <;> assumption

theorem ends_colon (rest : List Char) : Ends (':' :: rest) :=
  ends_cons (by decide) (by decide) rest

theorem closes_colons (rest : List Char) : Closes (':' :: ':' :: rest) where
  toEnds := ends_colon _
  notGroup next h := by
    rw [expect?_self] at h
    cases h
    exact stops_cons (by decide) rest

/-- The text with the separator between its parts. -/
theorem toList_intercalate_cons {separator : String} {c : Char} (h : separator.toList = [c])
    (first : String) (rest : List String) :
    (separator.intercalate (first :: rest)).toList =
      first.toList ++ rest.flatMap fun text => c :: text.toList := by
  rw [String.toList_intercalate, h]
  induction rest generalizing first with
  | nil => simp
  | cons second rest ih =>
    rw [List.map_cons, List.map_cons, List.intercalate_cons_cons, ← List.map_cons, ih]
    simp

/-! ## Octets -/

theorem octet?_eq_none {text : List Char} (h : ∀ c ∈ text.head?, isDigitOf 16 c = false) :
    octet? text = none := by
  have hdecimal : ∀ c ∈ text.head?, c.isDigit = false := fun c hc =>
    Text.isDigit_eq_false (h c hc)
  rw [octet?, Text.takeWhile_eq_nil hdecimal,
    number?_eq_none fun c hc => (Text.isDigitOf_ten c).trans (hdecimal c hc)]
  rfl

theorem octets?_eq_none {text : List Char} (h : ∀ c ∈ text.head?, isDigitOf 16 c = false) :
    octets? text = none := by
  rw [octets?, octet?_eq_none h]
  rfl

/-- There are no octets where there is no point behind the first digits. -/
theorem octets?_eq_none_of_dropWhile {text : List Char}
    (h : ∀ c ∈ (text.dropWhile Char.isDigit).head?, c ≠ '.') : octets? text = none := by
  rw [octets?]
  cases hoctet : octet? text with
  | none => rfl
  | some result =>
    obtain ⟨octet, rest⟩ := result
    rw [← rest_of_octet? hoctet] at h
    simp [expect?_eq_none h]

/-- Octets as they are written. -/
def octetsText (octets : List UInt8) : String := ".".intercalate (octets.map (toString ·.toNat))

/-- **Four octets** are read back. -/
theorem octets?_append (a b c d : UInt8) {rest : List Char}
    (h : ∀ c ∈ rest.head?, c.isDigit = false) :
    octets? ((octetsText [a, b, c, d]).toList ++ rest) = some (#v[a, b, c, d], rest) := by
  have hpoint := fun rest => @stops_cons Char.isDigit '.' rfl rest
  rw [octetsText, List.map_cons, toList_intercalate_cons (show ".".toList = ['.'] from rfl)]
  simp only [List.map_cons, List.map_nil, List.flatMap_cons, List.flatMap_nil, List.append_assoc,
    List.cons_append, List.append_nil]
  rw [octets?, octet?_toString a (hpoint _)]
  simp only [Option.bind_eq_bind, Option.bind_some, expect?_self]
  rw [octet?_toString b (hpoint _)]
  simp only [Option.bind_some, expect?_self]
  rw [octet?_toString c (hpoint _)]
  simp only [Option.bind_some, expect?_self]
  rw [octet?_toString d h]
  rfl

/-! ## Groups -/

/-- A group is not taken for octets. -/
theorem octets?_groupText_append (group : UInt16) {rest : List Char} (h : Ends rest) :
    octets? ((groupText group).toList ++ rest) = none := by
  have hrun := isRun_groupText group h.notDigit
  refine octets?_eq_none_of_dropWhile fun c hc => ?_
  rw [List.dropWhile_append] at hc
  split at hc
  · have hdecimal : ∀ d ∈ rest.head?, d.isDigit = false := fun d hd =>
      Text.isDigit_eq_false (h.notDigit d hd)
    rw [Text.dropWhile_eq_self hdecimal] at hc
    exact h.notPoint c hc
  · next hsome =>
    rw [List.head?_append_of_ne_nil _ (mt List.isEmpty_iff.mpr hsome)] at hc
    have hdigit := hrun.all c ((List.dropWhile_sublist _).subset (List.mem_of_mem_head? hc))
    rintro rfl
    cases hdigit

/-- The first of some groups ends where the next one comes. -/
theorem ends_behind (more : List UInt16) {rest : List Char} (h : Ends rest) :
    Ends (more.flatMap (fun group => ':' :: (groupText group).toList) ++ rest) := by
  cases more with
  | nil => exact h
  | cons group more => exact ends_colon _

/-- Where one more group would start. -/
def next? (found : List UInt16) (text : List Char) : Option (List Char) :=
  if found.isEmpty then some text else expect? ':' text

theorem next?_colon (group : UInt16) (found : List UInt16) (text : List Char) :
    next? (group :: found) (':' :: text) = some text := expect?_self ':' text

section

variable {limit : Nat} {found : List UInt16} {text rest : List Char}

/-- One more group is found. -/
theorem go_of_group {group : UInt16}
    (hnext : next? found text = some ((groupText group).toList ++ rest)) (h : Ends rest) :
    groups.go (limit + 1) found text = groups.go limit (group :: found) rest := by
  rw [next?] at hnext
  rw [groups.go, hnext]
  simp only [Option.bind_some, octets?_groupText_append group h, ite_self,
    group?_groupText group h.notDigit]

/-- Octets are found in the place of two groups. -/
theorem go_of_octets {next : List Char} {a b c d : UInt8} (hnext : next? found text = some next)
    (hlimit : limit ≠ 0) (h : octets? next = some (#v[a, b, c, d], rest)) :
    groups.go (limit + 1) found text =
      ⟨found.reverse ++ [pairGroup a b, pairGroup c d], true, rest⟩ := by
  rw [next?] at hnext
  rw [groups.go, hnext]
  simp only [Option.bind_some, if_neg hlimit, h]
  rfl

/-- No more group is found. -/
theorem go_of_stops (limit : Nat)
    (h : ∀ next, next? found text = some next → ∀ c ∈ next.head?, isDigitOf 16 c = false) :
    groups.go limit found text = ⟨found.reverse, false, text⟩ := by
  cases limit with
  | zero => rfl
  | succ limit =>
    rw [groups.go, ← next?]
    cases hnext : next? found text with
    | none => simp
    | some next =>
      simp only [Option.bind_some, octets?_eq_none (h next hnext), group?_eq_none (h next hnext),
        ite_self]

/-- Groups behind the first are found in turn. -/
theorem go_groups {first : UInt16} {more : List UInt16} (hlimit : more.length ≤ limit)
    (h : Closes rest) :
    groups.go limit (first :: found)
        (more.flatMap (fun group => ':' :: (groupText group).toList) ++ rest) =
      ⟨(first :: found).reverse ++ more, false, rest⟩ := by
  induction more generalizing limit first found with
  | nil =>
    rw [List.flatMap_nil, List.nil_append, List.append_nil]
    exact go_of_stops limit h.notGroup
  | cons group more ih =>
    obtain ⟨limit, rfl⟩ :=
      Nat.exists_eq_add_of_le' (Nat.lt_of_lt_of_le more.length.succ_pos hlimit)
    rw [List.flatMap_cons, List.append_assoc, List.cons_append,
      go_of_group (next?_colon _ _ _) (ends_behind more h.toEnds),
      ih (Nat.le_of_succ_le_succ hlimit)]
    simp

/-- **Groups** are read back. -/
theorem groups_groupsText {gs : List UInt16} (hlimit : gs.length ≤ limit) (h : Closes rest) :
    groups limit ((groupsText gs).toList ++ rest) = ⟨gs, false, rest⟩ := by
  rw [groups]
  cases gs with
  | nil =>
    refine go_of_stops limit fun next hnext => ?_
    cases hnext
    exact h.notDigit
  | cons group more =>
    obtain ⟨limit, rfl⟩ :=
      Nat.exists_eq_add_of_le' (Nat.lt_of_lt_of_le more.length.succ_pos hlimit)
    have htext : (groupsText (group :: more)).toList =
        (groupText group).toList ++
          more.flatMap (fun group => ':' :: (groupText group).toList) := by
      rw [groupsText, List.map_cons, toList_intercalate_cons (show ":".toList = [':'] from rfl),
        List.flatMap_map]
    rw [htext, List.append_assoc, go_of_group rfl (ends_behind more h.toEnds)]
    exact go_groups (Nat.le_of_succ_le_succ hlimit) h

end

/-! ## Zeros that are left out -/

theorem replicate_prefix {gs : List UInt16} {run : Nat} (h : run ≤ leadingZeros gs) :
    List.replicate run 0 <+: gs := by
  obtain ⟨more, hmore⟩ := Nat.exists_eq_add_of_le h
  have hzero : ∀ g ∈ gs.takeWhile (· = 0), g = 0 := fun g hg =>
    of_decide_eq_true (List.all_eq_true.mp List.all_takeWhile g hg)
  have hzeros : gs.takeWhile (· = 0) = List.replicate run 0 ++ List.replicate more 0 := by
    rw [List.eq_replicate_of_mem hzero, ← leadingZeros, hmore, List.replicate_add]
  refine ⟨List.replicate more 0 ++ gs.dropWhile (· = 0), ?_⟩
  rw [← List.append_assoc, ← hzeros, List.takeWhile_append_dropWhile]

/-- At the place there is a run of zeros of at least the length. -/
def IsZeroRun (gs : List UInt16) (run : Nat × Nat) : Prop := run.2 ≤ leadingZeros (gs.drop run.1)

theorem isZeroRun_longestZeros (gs : List UInt16) : IsZeroRun gs (longestZeros gs) := by
  rw [longestZeros]
  refine List.foldlRecOn _ _ (Nat.zero_le _) fun best hbest place _ => ?_
  dsimp only
  split
  · exact Nat.le_refl _
  · exact hbest

/-- What is written of groups, and the zeros that are not. -/
theorem take_append_replicate_append_drop {gs : List UInt16} {run : Nat × Nat}
    (h : IsZeroRun gs run) :
    gs.take run.1 ++ List.replicate run.2 0 ++ gs.drop (run.1 + run.2) = gs := by
  obtain ⟨behind, hbehind⟩ := replicate_prefix h
  have hdrop : gs.drop (run.1 + run.2) = behind := by
    rw [← List.drop_drop, ← hbehind, List.drop_left' List.length_replicate]
  rw [hdrop, List.append_assoc, hbehind, List.take_append_drop]

/-! ## Eight groups -/

theorem vector?_toList {α : Type} {n : Nat} (v : Vector α n) : vector? n v.toList = some v :=
  dif_pos v.length_toList

variable {rest : List Char}

/-- Eight groups in full are read back. -/
theorem eightGroups?_groupsText (gs : Vector UInt16 8) (h : Closes rest) :
    eightGroups? ((groupsText gs.toList).toList ++ rest) = some (gs, rest) := by
  have hlength : gs.toList.length = 8 := gs.length_toList
  rw [eightGroups?, groups_groupsText (Nat.le_of_eq hlength) h]
  dsimp only
  rw [if_pos hlength, vector?_toList]
  rfl

/-- Eight groups are read back where some zeros, at least one, are left out. -/
theorem eightGroups?_of_zeros {gs : Vector UInt16 8} {before after : List UInt16} {n : Nat}
    (hgs : before ++ List.replicate (n + 1) 0 ++ after = gs.toList) (h : Closes rest) :
    eightGroups? ((groupsText before).toList ++
      ':' :: ':' :: ((groupsText after).toList ++ rest)) = some (gs, rest) := by
  have hlength : before.length + (n + 1) + after.length = 8 := by
    have htotal := congrArg List.length hgs
    simpa [Nat.add_assoc] using htotal
  have hbefore : before.length ≤ 8 := by omega
  have hafter : after.length ≤ 7 - before.length := by omega
  have hzeros : 8 - before.length - after.length = n + 1 := by omega
  rw [eightGroups?, groups_groupsText hbefore (closes_colons _)]
  dsimp only
  rw [if_neg (by omega), if_neg Bool.false_ne_true]
  simp only [Option.bind_eq_bind, Option.bind_some, expect?_self, groups_groupsText hafter h,
    hzeros, hgs, vector?_toList]
  rfl

/-- The two octets of a group. -/
theorem exists_pairGroup (group : UInt16) :
    ∃ high low : UInt8, pairGroup high low = group ∧
      (group / 256).toNat = high.toNat ∧ (group % 256).toNat = low.toNat := by
  have hlt : group.toNat < 0x10000 := group.toNat_lt
  have hsize : (256 : UInt16).toNat = 256 := rfl
  refine ⟨.ofNat (group.toNat / 256), .ofNat (group.toNat % 256), ?_, ?_, ?_⟩
  · rw [← UInt16.toNat_inj, pairGroup]
    simp only [UInt8.toNat_ofNat', UInt16.toNat_ofNat']
    omega
  · rw [UInt8.toNat_ofNat', UInt16.toNat_div, hsize]
    omega
  · rw [UInt8.toNat_ofNat', UInt16.toNat_mod, hsize]
    omega

/-- Eight groups that stand for four octets are read back. -/
theorem eightGroups?_octets (high low : UInt16) (h : Ends rest) :
    eightGroups? ((eightGroupsText [0, 0, 0, 0, 0, 0xffff, high, low]).toList ++ rest) =
      some (#v[0, 0, 0, 0, 0, 0xffff, high, low], rest) := by
  obtain ⟨a, b, rfl, ha, hb⟩ := exists_pairGroup high
  obtain ⟨c, d, rfl, hc, hd⟩ := exists_pairGroup low
  have hparts : [pairGroup a b / 256, pairGroup a b % 256, pairGroup c d / 256,
      pairGroup c d % 256].map (toString ·.toNat) = [a, b, c, d].map (toString ·.toNat) := by
    simp only [List.map_cons, List.map_nil, ha, hb, hc, hd]
  have hoctets := octets?_append a b c d fun c hc => Text.isDigit_eq_false (h.notDigit c hc)
  have hffff : (groupText 0xffff).toList = ['f', 'f', 'f', 'f'] := by decide
  have htext : (eightGroupsText [0, 0, 0, 0, 0, 0xffff, pairGroup a b, pairGroup c d]).toList =
      ':' :: ':' :: ((groupText 0xffff).toList ++
        ':' :: (octetsText [a, b, c, d]).toList) := by
    rw [eightGroupsText, hparts, String.toList_append, hffff]
    rfl
  have hhead (text : List Char) :
      groups 8 (':' :: ':' :: text) = ⟨[], false, ':' :: ':' :: text⟩ :=
    @groups_groupsText 8 _ [] (Nat.zero_le 8) (closes_colons text)
  have htail : groups 7 ((groupText 0xffff).toList ++
      ':' :: ((octetsText [a, b, c, d]).toList ++ rest)) =
      ⟨[0xffff, pairGroup a b, pairGroup c d], true, rest⟩ := by
    rw [groups, go_of_group rfl (ends_colon _),
      go_of_octets (next?_colon _ _ _) (Nat.succ_ne_zero _) hoctets]
    rfl
  rw [htext]
  simp only [List.cons_append, List.append_assoc]
  rw [eightGroups?, hhead]
  simp only [Option.bind_eq_bind, Option.bind_some, expect?_self, List.length_nil, htail]
  rfl

/-- **Eight groups** are read back. -/
theorem eightGroups?_append (gs : Vector UInt16 8) (h : Closes rest) :
    eightGroups? ((eightGroupsText gs.toList).toList ++ rest) = some (gs, rest) := by
  rw [eightGroupsText.eq_def]
  split
  · next high low heq =>
    have hgs : gs = #v[0, 0, 0, 0, 0, 0xffff, high, low] := Vector.toList_inj.mp heq
    subst hgs
    exact eightGroups?_octets high low h.toEnds
  · obtain ⟨place, run, hrun⟩ : ∃ place run, longestZeros gs.toList = (place, run) :=
      ⟨_, _, rfl⟩
    rw [hrun]
    dsimp only
    split
    · exact eightGroups?_groupsText gs h
    · next hlong =>
      obtain ⟨n, rfl⟩ := Nat.exists_eq_add_of_le' (Nat.le_of_not_lt hlong)
      have hzeros := take_append_replicate_append_drop (hrun ▸ isZeroRun_longestZeros gs.toList)
      have htext : ∀ before after : String,
          (before ++ "::" ++ after).toList ++ rest =
            before.toList ++ ':' :: ':' :: (after.toList ++ rest) := by
        intro before after
        simp
      rw [htext, eightGroups?_of_zeros hzeros h]

/-! ## Addresses -/

theorem service?_append (service : UInt16) (h : ∀ c ∈ rest.head?, c.isDigit = false) :
    service? (':' :: ((toString service.toNat).toList ++ rest)) = some (service, rest) := by
  rw [service?]
  simp only [Option.bind_eq_bind, Option.bind_some, expect?_self]
  rw [number?_toString service.toNat_lt h]
  simp

theorem exists_octets (octets : Vector UInt8 4) : ∃ a b c d, octets = #v[a, b, c, d] := by
  refine ⟨octets[0], octets[1], octets[2], octets[3], Vector.ext fun place hplace => ?_⟩
  have hcases : place = 0 ∨ place = 1 ∨ place = 2 ∨ place = 3 := by omega
  rcases hcases with rfl | rfl | rfl | rfl <;> rfl

theorem v4?_text (octets : Vector UInt8 4) (service : UInt16) :
    v4? (text ⟨.v4 octets, service⟩).toList = some (⟨.v4 octets, service⟩, []) := by
  obtain ⟨a, b, c, d, rfl⟩ := exists_octets octets
  have htext : (text ⟨.v4 #v[a, b, c, d], service⟩).toList =
      (octetsText [a, b, c, d]).toList ++
        ':' :: ((toString service.toNat).toList ++ []) := by
    rw [text, octetsText]
    simp
  rw [htext, v4?, octets?_append a b c d (stops_cons rfl _)]
  simp only [Option.bind_eq_bind, Option.bind_some]
  rw [service?_append service stops_nil]
  rfl

/-- The zone as it is written behind the groups. -/
def zoneText (zone : UInt32) : String := if zone = 0 then "" else "%" ++ toString zone.toNat

theorem closes_cons {c : Char} (hends : Ends (c :: rest)) (hcolon : c ≠ ':') :
    Closes (c :: rest) where
  toEnds := hends
  notGroup next h := by
    rw [expect?, if_neg hcolon] at h
    cases h

/-- The groups end where the zone is written, or the bracket. -/
theorem closes_zoneText (zone : UInt32) (rest : List Char) :
    Closes ((zoneText zone).toList ++ ']' :: rest) := by
  rw [zoneText]
  split
  · exact closes_cons (ends_cons (by decide) (by decide) _) (by decide)
  · rw [String.toList_append]
    exact closes_cons (ends_cons (by decide) (by decide) _) (by decide)

/-- The zone is read back: none is zero. -/
theorem zone?_append (zone : UInt32) (rest : List Char) :
    (zone? ((zoneText zone).toList ++ ']' :: rest)).getD
      (0, (zoneText zone).toList ++ ']' :: rest) = (zone, ']' :: rest) := by
  rw [zoneText]
  split
  · next hzero =>
    subst hzero
    have hnone : zone? (']' :: rest) = none := by
      rw [zone?, expect?_eq_none (by rintro _ ⟨⟩; decide)]
      rfl
    exact congrArg (Option.getD · _) hnone
  · have htext : ("%" ++ toString zone.toNat).toList ++ ']' :: rest =
        '%' :: ((toString zone.toNat).toList ++ ']' :: rest) := by
      rw [String.toList_append]
      rfl
    rw [htext, zone?]
    simp only [Option.bind_eq_bind, Option.bind_some, expect?_self]
    rw [number?_toString zone.toNat_lt (stops_cons rfl _)]
    simp

theorem toList_text_v6 (gs : Vector UInt16 8) (zone : UInt32) (service : UInt16) :
    (text ⟨.v6 gs zone, service⟩).toList =
      '[' :: ((eightGroupsText gs.toList).toList ++ ((zoneText zone).toList ++
        ']' :: ':' :: ((toString service.toNat).toList ++ []))) := by
  rw [text]
  simp [zoneText]

theorem v4?_text_v6 (gs : Vector UInt16 8) (zone : UInt32) (service : UInt16) :
    v4? (text ⟨.v6 gs zone, service⟩).toList = none := by
  rw [toList_text_v6, v4?, octets?_eq_none (stops_cons (by decide) _)]
  rfl

theorem v6?_text (gs : Vector UInt16 8) (zone : UInt32) (service : UInt16) :
    v6? (text ⟨.v6 gs zone, service⟩).toList = some (⟨.v6 gs zone, service⟩, []) := by
  rw [toList_text_v6, v6?]
  simp only [Option.bind_eq_bind, Option.bind_some, expect?_self]
  rw [eightGroups?_append gs (closes_zoneText zone _), Option.bind_some]
  simp only [zone?_append, expect?_self, Option.bind_some]
  rw [service?_append service stops_nil]
  rfl

/-- **Every address** is read back. -/
theorem parse?_text (address : SocketAddress) : parse? address.text = some address := by
  obtain ⟨ip, service⟩ := address
  cases ip with
  | v4 octets => rw [parse?, v4?_text]; rfl
  | v6 gs zone => rw [parse?, v4?_text_v6, v6?_text]; rfl

end SocketAddress

end MoveDesk
