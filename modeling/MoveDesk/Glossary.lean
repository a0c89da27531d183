import MoveDesk.Text.Find
import MoveDesk.Text.Lowercase

/-!
# The glossary

What the command `explain`, the paths below `/api/v1/explain/` and choice 5 of the menu explain: the
concepts of the Move language. A query gets the first entry whose name occurs in it, whatever its
case.
-/

namespace MoveDesk

/-- A concept and what is said of it. -/
structure GlossaryEntry where
  /-- The name, in lowercase. -/
  name : String
  /-- The explanation. -/
  explanation : String
deriving DecidableEq, Repr

/-- Concepts in the order in which they are looked up. -/
abbrev Glossary := List GlossaryEntry

namespace Glossary

/-- The answer to a query for which there is no entry. -/
def notFoundMessage : String :=
  "Concept not found. Try: abilities, resources, acquires, signer"

/-- The concepts that are explained. -/
def standard : Glossary :=
  [{ name := "abilities"
     explanation :=
      "Abilities control what a type may do. `copy` lets values be duplicated, `drop` lets " ++
      "them be discarded, `store` lets them live inside other structs in global storage, " ++
      "and `key` lets them be top-level resources in global storage. Declare them with " ++
      "`has`, e.g. `struct Coin has key, store \x7b value: u64 \x7d`." },
   { name := "resources"
     explanation :=
      "Resources are structs with the `key` ability stored in global storage under an " ++
      "account address. They can never be copied or silently dropped. Publish one with " ++
      "`move_to`, read it with `borrow_global`, mutate it with `borrow_global_mut`, and " ++
      "take it back with `move_from`." },
   { name := "acquires"
     explanation :=
      "A function that touches a resource in global storage through `borrow_global`, " ++
      "`borrow_global_mut` or `move_from` must list it after its signature: `public fun " ++
      "bump(addr: address) acquires Counter \x7b ... \x7d`." },
   { name := "signer"
     explanation :=
      "`signer` carries the authority of the account that signed the transaction. Take it " ++
      "as `&signer`, get its address with `signer::address_of(account)`, and pass it to " ++
      "`move_to` to publish a resource under that address." }]

/-- The first entry whose name occurs in the query. -/
def lookup? (glossary : Glossary) (query : String) : Option GlossaryEntry :=
  let lowered := Text.lower query.toList
  glossary.find? fun entry => Text.occursIn entry.name.toList lowered

/-- The explanation for the query, or the message that there is none. -/
def explain (glossary : Glossary) (query : String) : String :=
  match glossary.lookup? query with
  | some entry => entry.explanation
  | none => notFoundMessage

/-- The names of the concepts. -/
def names (glossary : Glossary) : List String := glossary.map (·.name)

end Glossary

end MoveDesk
