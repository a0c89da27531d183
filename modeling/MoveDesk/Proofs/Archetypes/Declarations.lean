import MoveDesk.Proofs.Archetypes.Layout

/-!
# What generated code declares

The scanners find in the code of an archetype what the archetype is said to declare, and nothing
in the values that were put in, as long as these are identifiers. An identifier may well hold a
keyword or end in one: no blank and name can follow it there.

Headline:
* **`generated_code_describes_itself`**: generated code declares one module, under the address and
  the name that were put in, and the structs and functions of its archetype.
-/

namespace MoveDesk

namespace Template

/-! ## The heading -/

variable {address name : String}

/-- The name of the module, under its address. -/
def qualifiedName (address name : String) : List Char :=
  address.toList ++ ':' :: ':' :: name.toList

theorem heading_eq (address name : String) :
    heading address name =
      Declarator.module.keyword.toList ++ [' '] ++ qualifiedName address name := by
  have hkeyword : Declarator.module.keyword.toList = ['m', 'o', 'd', 'u', 'l', 'e'] := by
    decide +kernel
  simp [heading, addressHole, nameHole, qualifiedName, hkeyword]

theorem isBlank_of_mem_qualifiedName (haddress : Text.IsIdentifier address)
    (hname : Text.IsIdentifier name) :
    ∀ c ∈ qualifiedName address name, Text.isBlank c = false := by
  intro c hc
  simp only [qualifiedName, List.mem_append, List.mem_cons] at hc
  rcases hc with hc | rfl | rfl | hc
  · exact Text.isBlank_eq_false_of_isWord (haddress.2 c hc)
  · rfl
  · rfl
  · exact Text.isBlank_eq_false_of_isWord (hname.2 c hc)

/-- The heading declares the module. -/
theorem namesIn_heading_module (haddress : Text.IsIdentifier address)
    (hname : Text.IsIdentifier name) :
    Declarator.module.namesIn 0 (heading address name ++ [' ']) =
      [String.ofList (qualifiedName address name)] := by
  have hstop : Text.isWord ' ' = false := by decide +kernel
  have hcolon : Text.isWord ':' = false := by decide +kernel
  have hshape : Declarator.IsName Declarator.module.shape (qualifiedName address name) [' '] :=
    .qualified ⟨haddress.1, haddress.2, by simp [hcolon]⟩ ⟨hname.1, hname.2, by simp [hstop]⟩
  have hblank : Text.IsRun Text.isBlank [' '] (qualifiedName address name ++ [' ']) := by
    refine ⟨by simp, List.forall_mem_singleton.mpr (by decide), fun c hc => ?_⟩
    refine isBlank_of_mem_qualifiedName haddress hname c ?_
    obtain ⟨first, rest, hfirst⟩ := List.exists_cons_of_ne_nil haddress.1
    obtain rfl : first = c := by simpa [qualifiedName, hfirst] using hc
    simp [qualifiedName, hfirst]
  have hfound : Declarator.module.declaration? (heading address name ++ [' ']) =
      some ⟨qualifiedName address name, (heading address name).length⟩ := by
    refine Declarator.declaration?_eq_some_iff.mpr ⟨[' '], [' '], ?_, hblank, hshape, ?_⟩
    · rw [heading_eq]
    · simp only [heading_eq, List.length_append]
  rw [Declarator.namesIn_of_declaration? hfound rfl]
  rfl

/-- The heading declares nothing but the module. -/
theorem namesIn_heading {d : Declarator} {k : Char} (hk : d.keyword.toList.head? = some k)
    (hfront : k ∉ addressHole.before) (haddress : Text.IsIdentifier address)
    (hname : Text.IsIdentifier name) : d.namesIn 0 (heading address name ++ [' ']) = [] := by
  have hheading : heading address name = addressHole.before ++ qualifiedName address name := by
    simp [heading, qualifiedName, nameHole]
  rw [hheading, List.append_assoc, Declarator.namesIn_append_of_notMem hk hfront]
  exact Declarator.namesIn_append_singleton (isBlank_of_mem_qualifiedName haddress hname) ' '

/-! ## The code -/

/-- A scanner finds in laid out code what it finds in the heading, and then in the members. -/
theorem scan_of_toList_eq {code : String} {front members : List Char} (kind : Kind)
    (h : code.toList = front ++ ' ' :: '{' :: members) :
    kind.scan code =
      kind.declarator.namesIn 0 (front ++ [' ']) ++ kind.declarator.namesIn 0 members := by
  have hcode : code.toList = front ++ [' '] ++ '{' :: members := by
    rw [h, List.append_assoc]
    rfl
  rw [Kind.scan, Declarator.scan_eq_namesIn, hcode]
  exact Declarator.namesIn_append_separator isSeparator_open kind.isWord_of_mem_keyword
    (Nat.zero_le _) members

/-- The template of an archetype is what the desk chooses for its label. -/
theorem generate_label {archetype : Intent} (h : archetype ∈ Intent.archetypes) (desk : Desk)
    (params : Parameters) :
    desk.generate archetype.label params = desk.catalog.generate archetype params := by
  have hclassify : ∀ archetype ∈ Intent.archetypes, Desk.classify archetype.label = archetype := by
    decide +kernel
  rw [Desk.generate, hclassify archetype h]

/-- The names of a kind that the code of an archetype declares. -/
def declared (archetype : Intent) (params : Parameters) : Kind → List String
  | .modules => [params.address ++ "::" ++ moduleName archetype params]
  | .structs => archetype.structs
  | .functions => archetype.functions

theorem scan_of_isLaidOut {archetype : Intent} {params : Parameters} {code : String}
    (h : IsLaidOut archetype params code) (haddress : Text.IsIdentifier params.address)
    (hname : Text.IsIdentifier (moduleName archetype params))
    (hbalance : archetype = .token → Text.IsIdentifier (initialBalance params)) (kind : Kind) :
    kind.scan code = declared archetype params kind := by
  obtain ⟨members, hcode, -, hmembers⟩ := h
  obtain ⟨hmodules, hstructs, hfunctions⟩ := hmembers hbalance
  rw [scan_of_toList_eq kind hcode]
  cases kind with
  | modules =>
    have hqualified : String.ofList (qualifiedName params.address (moduleName archetype params)) =
        params.address ++ "::" ++ moduleName archetype params :=
      String.toList_inj.mp (by simp [qualifiedName])
    simp only [Kind.declarator]
    rw [namesIn_heading_module haddress hname, hmodules, List.append_nil, hqualified]
    rfl
  | structs =>
    simp only [Kind.declarator]
    rw [namesIn_heading (k := 's') rfl (by decide) haddress hname, hstructs]
    rfl
  | functions =>
    simp only [Kind.declarator]
    rw [namesIn_heading (k := 'f') rfl (by decide) haddress hname, hfunctions]
    rfl

theorem nodup_declared (archetype : Intent) (params : Parameters) (kind : Kind) :
    (declared archetype params kind).Nodup := by
  have hstructs : archetype.structs.Nodup := by cases archetype <;> decide
  have hfunctions : archetype.functions.Nodup := by cases archetype <;> decide
  cases kind with
  | modules => simp [declared]
  | structs => exact hstructs
  | functions => exact hfunctions

end Template

/-- A source that declares no name of a kind twice is all new to the empty context. -/
theorem Context.extract_empty {source : String} (h : ∀ kind : Kind, (kind.scan source).Nodup)
    (kind : Kind) :
    ((∅ : Context).extract source).1.names kind = kind.scan source ∧
      ((∅ : Context).extract source).2.count kind = (kind.scan source).length := by
  have hempty : (∅ : Context).names kind = [] := by cases kind <;> rfl
  have hnames := names_extract_eq_eraseDups distinct_empty source kind
  rw [hempty, List.nil_append, eraseDups_eq_self (h kind)] at hnames
  have hcount := length_extract ∅ source kind
  rw [hnames, hempty, List.length_nil, Nat.zero_add] at hcount
  exact ⟨hnames, hcount.symm⟩

/-- **Generated code describes itself.** Whatever identifiers are put in for the address, the name
and, in a token, the initial balance, also such as hold keywords:
* the desk writes the same code for the label of an archetype and for the archetype;
* the scanners find in it the module, under its address, and the structs and functions of the
  archetype, in their order, and nothing else;
* so an empty desk that analyzes it sees exactly these, all of them new. -/
theorem generated_code_describes_itself (archetype : Intent)
    (harchetype : archetype ∈ Intent.archetypes) (params : Parameters)
    (haddress : Text.IsIdentifier params.address)
    (hname : Text.IsIdentifier (params.getD "name" archetype.defaultName))
    (hbalance : archetype = .token →
      Text.IsIdentifier (params.getD "initial_balance" "1000000")) :
    let desk : Desk := {}
    let code := desk.generate archetype.label params
    let name := params.address ++ "::" ++ params.getD "name" archetype.defaultName
    desk.catalog.generate archetype params = code ∧
      Declarator.module.scan code = [name] ∧
      Declarator.struct.scan code = archetype.structs ∧
      Declarator.function.scan code = archetype.functions ∧
      desk.analyze code =
        ({ desk with context := ⟨⟨[name]⟩, ⟨archetype.structs⟩, ⟨archetype.functions⟩⟩ },
          ⟨1, archetype.structs.length, archetype.functions.length⟩) := by
  intro desk code name
  have hcode : code = Catalog.builtins.generate archetype params :=
    Template.generate_label harchetype desk params
  have hscan : ∀ kind : Kind, kind.scan code = Template.declared archetype params kind := by
    rw [hcode]
    exact Template.scan_of_isLaidOut (Template.isLaidOut_generate harchetype params) haddress hname
      hbalance
  have hnodup : ∀ kind : Kind, (kind.scan code).Nodup := fun kind => by
    rw [hscan kind]
    exact Template.nodup_declared archetype params kind
  have hextract : (∅ : Context).extract code =
      (⟨⟨[name]⟩, ⟨archetype.structs⟩, ⟨archetype.functions⟩⟩,
        ⟨1, archetype.structs.length, archetype.functions.length⟩) := by
    refine Prod.ext (Context.ext_names fun kind => ?_) (Growth.ext_count fun kind => ?_)
    · rw [(Context.extract_empty hnodup kind).1, hscan kind]
      cases kind <;> rfl
    · rw [(Context.extract_empty hnodup kind).2, hscan kind]
      cases kind <;> rfl
  refine ⟨hcode.symm, hscan .modules, hscan .structs, hscan .functions, ?_⟩
  simp only [Desk.analyze, desk, hextract]

/-- The values of a token end in keywords. -/
theorem generated_code_describes_itself_keywords :
    let params := Parameters.ofList
      [("address", "xmodule"), ("name", "fun"), ("initial_balance", "_struct")]
    Text.IsIdentifier "xmodule" ∧ Text.IsIdentifier "fun" ∧ Text.IsIdentifier "_struct" ∧
      Declarator.module.scan (({} : Desk).generate "token" params) = ["xmodule::fun"] ∧
      Declarator.struct.scan (({} : Desk).generate "token" params) = ["Balance"] := by
  intro params
  have haddress : Text.IsIdentifier "xmodule" := by decide +kernel
  have hname : Text.IsIdentifier "fun" := by decide +kernel
  have hbalance : Text.IsIdentifier "_struct" := by decide +kernel
  have hvalues : params.address = "xmodule" ∧ params.getD "name" "MyToken" = "fun" ∧
      params.getD "initial_balance" "1000000" = "_struct" := by decide +kernel
  obtain ⟨-, hmodules, hstructs, -⟩ := generated_code_describes_itself .token (by decide) params
    (hvalues.1.symm ▸ haddress) (hvalues.2.1.symm ▸ hname) fun _ => hvalues.2.2.symm ▸ hbalance
  refine ⟨haddress, hname, hbalance, hmodules.trans ?_, hstructs⟩
  decide +kernel

end MoveDesk
