import MoveDesk.Desk
import MoveDesk.Proofs.Placeholders
import MoveDesk.Proofs.Separation

/-!
# The layout of generated code

The built-in template texts start alike: a header takes the address and the name, and the members
of the module stand behind it in braces. The members are the same whatever the parameters, except
that those of a token hold the initial balance, once and between blanks in braces of its own.

Headline:
* **`isLaidOut_generate`**: the code of an archetype is the header with the values in it and members
  that hold the literals of the archetype and, where the balance is an identifier, declare what the
  archetype declares.
-/

namespace MoveDesk

/-- The text is a word: not empty, and of word characters only. -/
def Text.IsIdentifier (text : String) : Prop :=
  text.toList ≠ [] ∧ ∀ c ∈ text.toList, Text.isWord c = true

instance (text : String) : Decidable (Text.IsIdentifier text) :=
  decidable_of_iff (text.toList ≠ [] ∧ text.toList.all Text.isWord = true)
    (and_congr_right fun _ => List.all_eq_true)

/-! ## What an archetype says -/

namespace Intent

/-- The name of the module when none is given. -/
def defaultName : Intent → String
  | token => "MyToken"
  | nft => "MyNFT"
  | marketplace => "Marketplace"
  | module => "MyModule"
  | unrecognized => ""

/-- The structs of the archetype. -/
def structs : Intent → List String
  | token => ["Balance"]
  | nft => ["NFT", "Collection"]
  | marketplace => ["Listing", "Listings"]
  | module => ["Data"]
  | unrecognized => []

/-- The functions of the archetype. -/
def functions : Intent → List String
  | token => ["initialize", "transfer", "balance_of"]
  | nft => ["initialize", "mint"]
  | marketplace => ["initialize"]
  | module => ["initialize"]
  | unrecognized => []

/-- Functions of the archetype change what stands in global storage. -/
def borrows : Intent → Bool
  | token | nft => true
  | _ => false

end Intent

namespace Template

/-- The name that the template of the archetype puts in. -/
def moduleName (archetype : Intent) (params : Parameters) : String :=
  params.getD "name" archetype.defaultName

/-- The initial balance that the token template puts in. -/
def initialBalance (params : Parameters) : String := params.getD "initial_balance" "1000000"

/-- The text declares the structs and functions of the archetype, in order, and no module. -/
def Declares (archetype : Intent) (members : List Char) : Prop :=
  Declarator.module.namesIn 0 members = [] ∧
    Declarator.struct.namesIn 0 members = archetype.structs ∧
    Declarator.function.namesIn 0 members = archetype.functions

/-- The text declares an ability and error codes, and says what it borrows if the archetype borrows
at all. -/
def Mentions (archetype : Intent) (members : List Char) : Prop :=
  Text.occursIn "has key".toList members = true ∧ Text.occursIn "const E_".toList members = true ∧
    Text.occursIn "acquires".toList members = archetype.borrows ∧
    Text.occursIn "borrow_global_mut".toList members = archetype.borrows

instance (archetype : Intent) (members : List Char) : Decidable (Declares archetype members) :=
  inferInstanceAs (Decidable (_ ∧ _))

instance (archetype : Intent) (members : List Char) : Decidable (Mentions archetype members) :=
  inferInstanceAs (Decidable (_ ∧ _))

/-! ## The header -/

/-- The place of the address in the header. -/
def addressHole : Hole where
  before := ['m', 'o', 'd', 'u', 'l', 'e', ' ']
  inner := ['a', 'd', 'd', 'r', 'e', 's', 's']

/-- The place of the name in the header. -/
def nameHole : Hole where
  before := [':', ':']
  inner := ['n', 'a', 'm', 'e']

/-- The text of the header. -/
def header : List Char := addressHole.raw ++ nameHole.raw

/-- The header with values in it. -/
def heading (address name : String) : List Char :=
  addressHole.before ++ address.toList ++ (nameHole.before ++ name.toList)

theorem decomposes_header {behind last : List Char} {holes : List Hole}
    (h : Decomposes behind holes last) :
    Decomposes (header ++ behind) (addressHole :: nameHole :: holes) last :=
  decomposes_cons_iff.mpr ⟨nameHole.raw ++ behind, rfl, decomposes_cons_iff.mpr ⟨behind, rfl, h⟩⟩

/-- A value is written for a hole whose name is bound to it. -/
theorem Hole.filled_of_lookup {bindings : List (String × String)} {hole : Hole} {value : String}
    (h : bindings.lookup hole.name = some value) :
    hole.filled bindings = hole.before ++ value.toList := by
  simp only [Hole.filled, Hole.value, h]

/-- What is written for a text with a header: the heading, and what is written for the rest. -/
theorem toList_substitute_header {bindings : List (String × String)} {address name : String}
    (haddress : bindings.lookup "address" = some address)
    (hname : bindings.lookup "name" = some name) {behind last : List Char} {holes : List Hole}
    (h : Decomposes behind holes last) :
    (substitute (String.ofList (header ++ behind)) bindings).toList =
      heading address name ++ (holes.flatMap (Hole.filled bindings) ++ last) := by
  have hdec : Decomposes (String.ofList (header ++ behind)).toList
      (addressHole :: nameHole :: holes) last := by
    rw [String.toList_ofList]
    exact decomposes_header h
  have haddressKey : addressHole.name = "address" := by decide +kernel
  have hnameKey : nameHole.name = "name" := by decide +kernel
  rw [substitute_eq hdec, String.toList_ofList, List.flatMap_cons, List.flatMap_cons,
    Hole.filled_of_lookup (haddressKey.symm ▸ haddress),
    Hole.filled_of_lookup (hnameKey.symm ▸ hname)]
  simp only [heading, List.append_assoc]

/-- The code is the heading and, behind an opening brace, members that hold the literals of the
archetype and, unless a balance that is no identifier is put in, declare what it declares. -/
def IsLaidOut (archetype : Intent) (params : Parameters) (code : String) : Prop :=
  ∃ members,
    code.toList = heading params.address (moduleName archetype params) ++ ' ' :: '{' :: members ∧
      Mentions archetype members ∧
      ((archetype = .token → Text.IsIdentifier (initialBalance params)) →
        Declares archetype members)

/-! ## Texts whose members are fixed -/

/-- Behind the header of the text stand members without placeholders. -/
def IsFixed (archetype : Intent) (text : List Char) : Prop :=
  let members := text.drop (header.length + 2)
  text = header ++ ' ' :: '{' :: members ∧ firstHole? (' ' :: '{' :: members) = none ∧
    Declares archetype members ∧ Mentions archetype members

instance (archetype : Intent) (text : List Char) : Decidable (IsFixed archetype text) :=
  inferInstanceAs (Decidable (_ ∧ _))

set_option maxRecDepth 16000 in
theorem exists_isFixed_nft : ∃ text, nftBody = String.ofList text ∧ IsFixed .nft text := by
  refine ⟨_, rfl, ?_⟩
  decide +kernel

set_option maxRecDepth 16000 in
theorem exists_isFixed_marketplace :
    ∃ text, marketplaceBody = String.ofList text ∧ IsFixed .marketplace text := by
  refine ⟨_, rfl, ?_⟩
  decide +kernel

set_option maxRecDepth 16000 in
theorem exists_isFixed_module :
    ∃ text, moduleBody = String.ofList text ∧ IsFixed .module text := by
  refine ⟨_, rfl, ?_⟩
  decide +kernel

theorem isLaidOut_of_isFixed {archetype : Intent} {body : String}
    (hbody : ∃ text, body = String.ofList text ∧ IsFixed archetype text) (params : Parameters) :
    IsLaidOut archetype params
      (substitute body [("name", moduleName archetype params), ("address", params.address)]) := by
  obtain ⟨text, rfl, htext, hnone, hdeclares, hmentions⟩ := hbody
  refine ⟨_, ?_, hmentions, fun _ => hdeclares⟩
  rw [htext]
  exact toList_substitute_header rfl rfl (decomposes_nil_iff.mpr ⟨rfl, hnone⟩)

/-! ## The text that holds the balance -/

/-- What stands between the brace that opens a balance and its value. -/
def balanceField : List Char := [' ', 'v', 'a', 'l', 'u', 'e', ':', ' ']

/-- The place of the balance behind the header, other members standing before it. -/
def balanceHole (front : List Char) : Hole where
  before := ' ' :: '{' :: (front ++ '{' :: balanceField)
  inner := "initial_balance".toList

/-- The placeholder of the balance, in its braces. -/
def balanceBlock : List Char :=
  '{' :: (balanceField ++ opening ++ "initial_balance".toList ++ closing ++ [' ', '}'])

/-- The members with a balance among them. -/
def balanced (front : List Char) (balance : String) (back : List Char) : List Char :=
  front ++ '{' :: (balanceField ++ (balance.toList ++ [' ']) ++ '}' :: back)

/-- Behind the header of the text stand members with one placeholder, that of the balance. The other
members are checked without its braces, which no declaration and no literal reaches across. -/
def IsBalanced (text : List Char) : Prop :=
  let members := text.drop (header.length + 2)
  text = header ++ ' ' :: '{' :: members ∧ ∃ parts ∈ Text.cut? balanceBlock members,
    firstHole? (' ' :: '{' :: members) = some (balanceHole parts.1, ' ' :: '}' :: parts.2) ∧
      firstHole? (' ' :: '}' :: parts.2) = none ∧
      Declares .token (parts.1 ++ '}' :: parts.2) ∧ Mentions .token (parts.1 ++ '}' :: parts.2)

instance (text : List Char) : Decidable (IsBalanced text) := inferInstanceAs (Decidable (_ ∧ _))

set_option maxRecDepth 16000 in
theorem exists_isBalanced_token : ∃ text, tokenBody = String.ofList text ∧ IsBalanced text := by
  refine ⟨_, rfl, ?_⟩
  decide +kernel

theorem isSeparator_open : Text.IsSeparator '{' :=
  ⟨by decide +kernel, by decide +kernel, by decide⟩

theorem isSeparator_close : Text.IsSeparator '}' :=
  ⟨by decide +kernel, by decide +kernel, by decide⟩

/-- An identifier declares nothing behind a text that does not hold the keyword's first
character. -/
theorem namesIn_balanceField {d : Declarator} {k : Char} (hk : d.keyword.toList.head? = some k)
    (hfield : k ∉ balanceField) {balance : String} (hbalance : Text.IsIdentifier balance) :
    d.namesIn 0 (balanceField ++ (balance.toList ++ [' '])) = [] := by
  rw [Declarator.namesIn_append_of_notMem hk hfield]
  exact Declarator.namesIn_append_singleton
    (fun c hc => Text.isBlank_eq_false_of_isWord (hbalance.2 c hc)) ' '

theorem namesIn_balanced (kind : Kind) {balance : String} (hbalance : Text.IsIdentifier balance)
    (front back : List Char) :
    kind.declarator.namesIn 0 (balanced front balance back) =
      kind.declarator.namesIn 0 (front ++ '}' :: back) := by
  have hd := kind.isWord_of_mem_keyword
  have hfield : kind.declarator.namesIn 0 (balanceField ++ (balance.toList ++ [' '])) = [] := by
    cases kind with
    | modules => exact namesIn_balanceField (k := 'm') rfl (by decide) hbalance
    | structs => exact namesIn_balanceField (k := 's') rfl (by decide) hbalance
    | functions => exact namesIn_balanceField (k := 'f') rfl (by decide) hbalance
  unfold balanced
  -- cut at both braces, the block gives what stands before it, nothing, and what stands behind it
  rw [Declarator.namesIn_append_separator isSeparator_open hd (Nat.zero_le _),
    Declarator.namesIn_append_separator isSeparator_close hd (Nat.zero_le _), hfield,
    Declarator.namesIn_append_separator isSeparator_close hd (Nat.zero_le _), List.nil_append]

theorem infix_balanced {needle front back : List Char} (hneedle : '}' ∉ needle) (balance : String)
    (h : needle <:+: front ++ '}' :: back) : needle <:+: balanced front balance back := by
  unfold balanced
  rcases (Text.infix_append_cons_iff hneedle).mp h with h | h
  · exact h.trans (List.prefix_append _ _).isInfix
  · refine h.trans (List.IsSuffix.isInfix ?_)
    exact (List.suffix_cons _ _).trans ((List.suffix_append _ _).trans
      ((List.suffix_cons _ _).trans (List.suffix_append _ _)))

theorem isLaidOut_token (params : Parameters) :
    IsLaidOut .token params
      (substitute tokenBody
        [("name", moduleName .token params), ("address", params.address),
          ("initial_balance", initialBalance params)]) := by
  obtain ⟨text, hbody, htext, ⟨front, back⟩, -, hfirst, hlast, hdeclares, hmentions⟩ :=
    exists_isBalanced_token
  refine ⟨balanced front (initialBalance params) back, ?_, ?_, fun hbalance => ?_⟩
  · have hdec := decomposes_cons_iff.mpr ⟨_, hfirst, decomposes_nil_iff.mpr ⟨rfl, hlast⟩⟩
    have htrim : Text.trim "initial_balance".toList = "initial_balance".toList := by
      decide +kernel
    have hname : (balanceHole front).name = "initial_balance" := by
      rw [Hole.name, balanceHole, htrim, String.ofList_toList]
    have hfilled : (balanceHole front).filled
        [("name", moduleName .token params), ("address", params.address),
          ("initial_balance", initialBalance params)] =
        (balanceHole front).before ++ (initialBalance params).toList :=
      Hole.filled_of_lookup (by rw [hname]; rfl)
    rw [hbody, htext, toList_substitute_header rfl rfl hdec, List.flatMap_cons, List.flatMap_nil,
      hfilled]
    simp [balanceHole, balanced]
  · have hkept : ∀ needle : List Char, '}' ∉ needle →
        Text.occursIn needle (front ++ '}' :: back) = true →
          Text.occursIn needle (balanced front (initialBalance params) back) = true :=
      fun needle hneedle h =>
        Text.occursIn_iff.mpr (infix_balanced hneedle _ (Text.occursIn_iff.mp h))
    obtain ⟨hkeyed, hconst, hacquires, hborrow⟩ := hmentions
    exact ⟨hkept _ (by decide +kernel) hkeyed, hkept _ (by decide +kernel) hconst,
      hkept _ (by decide +kernel) hacquires, hkept _ (by decide +kernel) hborrow⟩
  · obtain ⟨hmodules, hstructs, hfunctions⟩ := hdeclares
    exact ⟨(namesIn_balanced .modules (hbalance rfl) front back).trans hmodules,
      (namesIn_balanced .structs (hbalance rfl) front back).trans hstructs,
      (namesIn_balanced .functions (hbalance rfl) front back).trans hfunctions⟩

/-- **The layout of generated code**, for every archetype and all parameters. -/
theorem isLaidOut_generate {archetype : Intent} (harchetype : archetype ∈ Intent.archetypes)
    (params : Parameters) :
    IsLaidOut archetype params (Catalog.builtins.generate archetype params) := by
  cases archetype with
  | token => exact isLaidOut_token params
  | nft => exact isLaidOut_of_isFixed exists_isFixed_nft params
  | marketplace => exact isLaidOut_of_isFixed exists_isFixed_marketplace params
  | module => exact isLaidOut_of_isFixed exists_isFixed_module params
  | unrecognized => exact absurd harchetype (by decide)

end Template

end MoveDesk
