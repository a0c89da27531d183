import MoveDesk.Text.Find
import MoveDesk.Text.Lowercase

/-!
# Intents

What a free-form instruction asks for, as the command `generate` and `POST /api/v1/generate` take
it: one of four kinds of contract, or nothing that is known. `classify` reads it off a table of
keyword rules, first rule first.
-/

namespace MoveDesk

/-- What an instruction asks for. -/
inductive Intent where
  /-- A fungible token with balances and transfers. -/
  | token
  /-- A collection of items, minted by account. -/
  | nft
  /-- Listings of items for sale. -/
  | marketplace
  /-- A module around one keyed resource. -/
  | module
  /-- Nothing that is known. -/
  | unrecognized
deriving DecidableEq, Repr

namespace Intent

/-- The intents a contract can be written for, in menu order. -/
def archetypes : List Intent := [token, nft, marketplace, module]

/-- The name of the intent in texts and data. -/
def label : Intent → String
  | token => "token"
  | nft => "nft"
  | marketplace => "marketplace"
  | module => "module"
  | unrecognized => "unrecognized"

/-- The intent with the given label. -/
def ofLabel? (label : String) : Option Intent :=
  (archetypes ++ [unrecognized]).find? (·.label = label)

/-- A contract can be written for the intent. -/
def isRecognized (intent : Intent) : Bool := intent != unrecognized

end Intent

/-- A row of the classification table: any of the keywords asks for the intent. -/
structure IntentRule where
  /-- The intent asked for. -/
  intent : Intent
  /-- The keywords, as they stand in a lowercase text. -/
  keywords : List String
deriving DecidableEq, Repr

/-- A keyword of the rule occurs in the text, which is in lowercase. -/
def IntentRule.appliesTo (rule : IntentRule) (lowered : List Char) : Bool :=
  rule.keywords.any fun keyword => Text.occursIn keyword.toList lowered

/-- The classification table. -/
def intentRules : List IntentRule :=
  [⟨.token, ["token", "coin"]⟩,
   ⟨.nft, ["nft"]⟩,
   ⟨.marketplace, ["marketplace"]⟩,
   ⟨.module, ["module"]⟩]

/-- The intent of the first rule that applies to the text in lowercase. -/
def classify (rules : List IntentRule) (text : String) : Intent :=
  let lowered := Text.lower text.toList
  match rules.find? (·.appliesTo lowered) with
  | some rule => rule.intent
  | none => .unrecognized

end MoveDesk
