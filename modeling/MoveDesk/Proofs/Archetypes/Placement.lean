import MoveDesk.Proofs.Archetypes.Layout
import MoveDesk.Proofs.Writes

/-!
# Where generated code holds the parameters

The text of a built-in template opens no placeholder but those of the values it takes, so the code
it writes is fixed text with the values between its parts. Nothing is asked of the values, which are
not looked into, and nothing but the keys that the template lists is read.

Headline:
* **`generate_places_values`**: the parts of the code, and the parameters that decide it.
-/

namespace MoveDesk

namespace Template

/-! ## Texts that end without placeholders -/

/-- The text is the header, and text in which no placeholder opens. -/
def EndsLiteral (text : List Char) : Prop :=
  text = header ++ text.drop header.length ∧
    Text.occursIn opening (text.drop header.length) = false

/-- The text is the header, the placeholder of the balance behind other text, and text in which no
placeholder opens. -/
def HoldsBalance (text : List Char) : Prop :=
  text = header ++ text.drop header.length ∧ ∃ found ∈ firstHole? (text.drop header.length),
    found.1.inner = "initial_balance".toList ∧ Text.occursIn opening found.2 = false

instance (text : List Char) : Decidable (EndsLiteral text) := inferInstanceAs (Decidable (_ ∧ _))

instance (text : List Char) : Decidable (HoldsBalance text) := inferInstanceAs (Decidable (_ ∧ _))

set_option maxRecDepth 16000 in
theorem exists_endsLiteral_nft : ∃ text, nftBody = String.ofList text ∧ EndsLiteral text := by
  refine ⟨_, rfl, ?_⟩
  decide +kernel

set_option maxRecDepth 16000 in
theorem exists_endsLiteral_marketplace :
    ∃ text, marketplaceBody = String.ofList text ∧ EndsLiteral text := by
  refine ⟨_, rfl, ?_⟩
  decide +kernel

set_option maxRecDepth 16000 in
theorem exists_endsLiteral_module : ∃ text, moduleBody = String.ofList text ∧ EndsLiteral text := by
  refine ⟨_, rfl, ?_⟩
  decide +kernel

set_option maxRecDepth 16000 in
theorem exists_holdsBalance_token : ∃ text, tokenBody = String.ofList text ∧ HoldsBalance text := by
  refine ⟨_, rfl, ?_⟩
  decide +kernel

/-! ## What is written for them -/

/-- No placeholder opens in the text. -/
def IsLiteral (text : String) : Prop := ¬ opening <:+: text.toList

theorem isLiteral_of_occursIn {text : List Char} (h : Text.occursIn opening text = false) :
    IsLiteral (String.ofList text) := by
  rw [IsLiteral, String.toList_ofList, ← Text.occursIn_iff, h]
  exact Bool.false_ne_true

theorem firstHole?_of_occursIn {text : List Char} (h : Text.occursIn opening text = false) :
    firstHole? text = none := by
  rw [firstHole?_eq_none_iff]
  rintro a b c rfl
  refine Bool.false_ne_true (h.symm.trans (Text.occursIn_iff.mpr ⟨a, b ++ closing ++ c, ?_⟩))
  simp only [List.append_assoc]

theorem heading_eq_toList (address name : String) :
    heading address name = ("module " ++ address ++ "::" ++ name).toList := by
  simp only [heading, addressHole, nameHole, String.toList_append, List.append_assoc]
  rfl

section Substitute

variable {body : String}

/-- The heading, and the rest of the text as it stands. -/
theorem exists_substitute_eq_of_endsLiteral
    (hbody : ∃ text, body = String.ofList text ∧ EndsLiteral text) :
    ∃ rest, IsLiteral rest ∧ ∀ {bindings : List (String × String)} {address name : String},
      bindings.lookup "address" = some address → bindings.lookup "name" = some name →
        substitute body bindings = "module " ++ address ++ "::" ++ name ++ rest := by
  obtain ⟨text, rfl, htext, hliteral⟩ := hbody
  refine ⟨_, isLiteral_of_occursIn hliteral, fun haddress hname => ?_⟩
  have hdec := decomposes_nil_iff.mpr ⟨rfl, firstHole?_of_occursIn hliteral⟩
  rw [htext, ← String.toList_inj, toList_substitute_header haddress hname hdec, heading_eq_toList,
    List.flatMap_nil, List.nil_append, ← htext]
  simp only [String.toList_append, String.toList_ofList, List.append_assoc]

/-- The heading, and the rest of the text with the balance in it. -/
theorem exists_substitute_eq_of_holdsBalance
    (hbody : ∃ text, body = String.ofList text ∧ HoldsBalance text) :
    ∃ between behind, IsLiteral between ∧ IsLiteral behind ∧
      ∀ {bindings : List (String × String)} {address name balance : String},
        bindings.lookup "address" = some address → bindings.lookup "name" = some name →
          bindings.lookup "initial_balance" = some balance →
            substitute body bindings =
              "module " ++ address ++ "::" ++ name ++ between ++ balance ++ behind := by
  obtain ⟨text, rfl, htext, ⟨hole, behind⟩, hfirst, hinner, hliteral⟩ := hbody
  obtain ⟨-, hbefore, -⟩ := firstHole?_eq_some_iff.mp hfirst
  have hbetween : IsLiteral (String.ofList hole.before) := by
    rw [IsLiteral, String.toList_ofList]
    exact hbefore.not_infix (by decide)
  refine ⟨_, _, hbetween, isLiteral_of_occursIn hliteral, fun haddress hname hbalance => ?_⟩
  have hkey : hole.name = "initial_balance" := by
    rw [Hole.name, hinner]
    decide +kernel
  have hdec := decomposes_cons_iff.mpr
    ⟨_, hfirst, decomposes_nil_iff.mpr ⟨rfl, firstHole?_of_occursIn hliteral⟩⟩
  rw [htext, ← String.toList_inj, toList_substitute_header haddress hname hdec, heading_eq_toList,
    List.flatMap_cons, List.flatMap_nil, List.append_nil,
    Hole.filled_of_lookup (hkey.symm ▸ hbalance)]
  simp only [String.toList_append, String.toList_ofList, List.append_assoc]

end Substitute

/-- The code is decided by the values under the keys that the template lists. -/
theorem generate_ofBody_congr (patternId : String) (intent : Intent) (description : String)
    {slots : List Slot} (body : String) {params params' : Parameters}
    (h : ∀ key ∈ slots.map (·.key), params.get? key = params'.get? key) :
    (ofBody patternId intent description slots body).generate params =
      (ofBody patternId intent description slots body).generate params' := by
  have hbind : slots.map (·.bind params) = slots.map (·.bind params') := by
    refine List.map_congr_left fun slot hslot => ?_
    simp only [Slot.bind, Parameters.getD, h slot.key (List.mem_map_of_mem hslot)]
  simp only [ofBody, hbind]

theorem exists_ofBody_of_mem_builtins {template : Template} (h : template ∈ builtins) :
    ∃ patternId intent description slots body,
      template = ofBody patternId intent description slots body := by
  simp only [builtins, List.mem_cons, List.not_mem_nil, or_false] at h
  rcases h with rfl | rfl | rfl | rfl
  · exact ⟨_, _, _, _, _, rfl⟩
  · exact ⟨_, _, _, _, _, rfl⟩
  · exact ⟨_, _, _, _, _, rfl⟩
  · exact ⟨_, _, _, _, _, rfl⟩

/-- **Generated code holds each parameter in its place**, whatever the values are:
* the code of a token is fixed text with the address, the name and the balance in it, in this order
  and each once;
* the code of the others is fixed text with the address and the name in it;
* a value that is unset or empty is the default, and the values under the keys that a template
  lists decide its code, whatever else is set.

No placeholder opens in the fixed texts. -/
theorem generate_places_values :
    (∃ between behind, IsLiteral between ∧ IsLiteral behind ∧
        ∀ params, token.generate params =
          "module " ++ params.getD "address" "0x1" ++ "::" ++ params.getD "name" "MyToken" ++
            between ++ params.getD "initial_balance" "1000000" ++ behind) ∧
      (∀ named ∈ [(nft, "MyNFT"), (marketplace, "Marketplace"), (module, "MyModule")],
        ∃ rest, IsLiteral rest ∧ ∀ params, named.1.generate params =
          "module " ++ params.getD "address" "0x1" ++ "::" ++ params.getD "name" named.2 ++ rest) ∧
      (∀ (params : Parameters) (key default : String), params.getD key default =
        match params.entries.lookup key with
        | none => default
        | some value => if value = "" then default else value) ∧
      ∀ template ∈ builtins, ∀ params params' : Parameters,
        (∀ key ∈ template.entry.keys, params.get? key = params'.get? key) →
          template.generate params = template.generate params' := by
  refine ⟨?_, ?_, fun params key default => ?_, fun template htemplate params params' h => ?_⟩
  · obtain ⟨between, behind, hbetween, hbehind, hwritten⟩ :=
      exists_substitute_eq_of_holdsBalance exists_holdsBalance_token
    exact ⟨between, behind, hbetween, hbehind, fun params => hwritten rfl rfl rfl⟩
  · intro named hnamed
    have hbody : ∀ {body}, (∃ text, body = String.ofList text ∧ EndsLiteral text) →
        ∃ rest, IsLiteral rest ∧ ∀ params : Parameters,
          substitute body ([nameSlot named.2, addressSlot].map (·.bind params)) =
            "module " ++ params.getD "address" "0x1" ++ "::" ++ params.getD "name" named.2 ++
              rest := by
      intro body hbody
      obtain ⟨rest, hrest, hwritten⟩ := exists_substitute_eq_of_endsLiteral hbody
      exact ⟨rest, hrest, fun params => hwritten rfl rfl⟩
    simp only [List.mem_cons, List.not_mem_nil, or_false] at hnamed
    rcases hnamed with rfl | rfl | rfl
    · exact hbody exists_endsLiteral_nft
    · exact hbody exists_endsLiteral_marketplace
    · exact hbody exists_endsLiteral_module
  · exact params.getD_eq key default
  · obtain ⟨patternId, intent, description, slots, body, rfl⟩ :=
      exists_ofBody_of_mem_builtins htemplate
    exact generate_ofBody_congr patternId intent description body h

/-- A name that reads like a placeholder, an empty balance, and a key that no template lists. -/
theorem generate_places_values_braces :
    let params := Parameters.ofList
      [("name", "\x7b\x7baddress\x7d\x7d"), ("address", ""), ("initial_balance", "\x7d\x7d")]
    let params' := Parameters.ofList
      [("name", "\x7b\x7baddress\x7d\x7d"), ("initial_balance", "\x7d\x7d"), ("colour", "red")]
    (nft, "MyNFT") ∈ [(nft, "MyNFT"), (marketplace, "Marketplace"), (module, "MyModule")] ∧
      token ∈ builtins ∧ (∀ key ∈ token.entry.keys, params.get? key = params'.get? key) ∧
      token.generate params = token.generate params' ∧
      (∃ between behind, IsLiteral between ∧ IsLiteral behind ∧
        token.generate params =
          "module 0x1::\x7b\x7baddress\x7d\x7d" ++ between ++ "\x7d\x7d" ++ behind) ∧
      ∃ rest, IsLiteral rest ∧
        nft.generate params = "module 0x1::\x7b\x7baddress\x7d\x7d" ++ rest := by
  intro params params'
  obtain ⟨⟨between, behind, hbetween, hbehind, htoken⟩, hnamed, -, hagree⟩ := generate_places_values
  have hnft : (nft, "MyNFT") ∈
      [(nft, "MyNFT"), (marketplace, "Marketplace"), (module, "MyModule")] := List.mem_cons_self
  have hkeys : ∀ key ∈ token.entry.keys, params.get? key = params'.get? key := by decide +kernel
  have hvalues : params.getD "address" "0x1" = "0x1" ∧
      (∀ default, params.getD "name" default = "\x7b\x7baddress\x7d\x7d") ∧
      params.getD "initial_balance" "1000000" = "\x7d\x7d" :=
    ⟨by decide +kernel, fun default => rfl, by decide +kernel⟩
  have hhead : "module " ++ "0x1" ++ "::" ++ "\x7b\x7baddress\x7d\x7d" =
      "module 0x1::\x7b\x7baddress\x7d\x7d" := by decide +kernel
  obtain ⟨rest, hrest, hwritten⟩ := hnamed _ hnft
  refine ⟨hnft, List.mem_cons_self, hkeys, hagree token List.mem_cons_self params params' hkeys,
    ⟨between, behind, hbetween, hbehind, ?_⟩, rest, hrest, ?_⟩
  · rw [htoken, hvalues.1, hvalues.2.1, hvalues.2.2, hhead]
  · rw [hwritten, hvalues.1, hvalues.2.1, hhead]

end Template

end MoveDesk
