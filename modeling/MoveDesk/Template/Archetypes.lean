import MoveDesk.Template.Basic

/-!
# The built-in templates

One template for each kind of contract: a token, a collection, a marketplace, and a module around
one keyed resource.
-/

namespace MoveDesk.Template

/-- The parameter every template publishes its module under. -/
def addressSlot : Slot := { key := "address", default := Parameters.defaultAddress }

/-- The parameter that names the module. -/
def nameSlot (default : String) : Slot := { key := "name", default }

/-- The text of the token template. -/
def tokenBody : String :=
  "module \x7b\x7baddress\x7d\x7d::\x7b\x7bname\x7d\x7d \x7b
    use std::signer;
    use aptos_framework::create_signer::create_signer;

    /// Error codes
    const E_NOT_INITIALIZED: u64 = 1;
    const E_INSUFFICIENT_BALANCE: u64 = 2;
    const E_ALREADY_INITIALIZED: u64 = 3;

    /// Token balance held under each account
    struct Balance has key \x7b
        value: u64,
    \x7d

    /// Give the caller its starting balance
    public entry fun initialize(account: &signer) \x7b
        let addr = signer::address_of(account);
        assert!(!exists<Balance>(addr), E_ALREADY_INITIALIZED);
        move_to(account, Balance \x7b value: \x7b\x7binitial_balance\x7d\x7d \x7d);
    \x7d

    /// Move `amount` from the sender to `to`, opening a balance for `to` on first receipt
    public entry fun transfer(from: &signer, to: address, amount: u64) acquires Balance \x7b
        let from_addr = signer::address_of(from);
        assert!(exists<Balance>(from_addr), E_NOT_INITIALIZED);

        let from_balance = borrow_global_mut<Balance>(from_addr);
        assert!(from_balance.value >= amount, E_INSUFFICIENT_BALANCE);
        from_balance.value = from_balance.value - amount;

        // create_signer is public(friend) in aptos_framework; outside the framework, have recipients register a Balance first
        if (!exists<Balance>(to)) \x7b
            move_to(&create_signer(to), Balance \x7b value: 0 \x7d);
        \x7d;
        let to_balance = borrow_global_mut<Balance>(to);
        to_balance.value = to_balance.value + amount;
    \x7d

    #[view]
    public fun balance_of(owner: address): u64 acquires Balance \x7b
        assert!(exists<Balance>(owner), E_NOT_INITIALIZED);
        borrow_global<Balance>(owner).value
    \x7d
\x7d
"

/-- Balances by account, with `initialize`, `transfer` and `balance_of`. -/
def token : Template :=
  ofBody "move.token" .token "Fungible token with per-account balances, initialize and transfer"
    [nameSlot "MyToken", addressSlot,
     { key := "initial_balance", default := "1000000" }] tokenBody

/-- The text of the nft template. -/
def nftBody : String :=
  "module \x7b\x7baddress\x7d\x7d::\x7b\x7bname\x7d\x7d \x7b
    use std::signer;
    use std::vector;

    /// Error codes
    const E_NOT_INITIALIZED: u64 = 1;
    const E_ALREADY_INITIALIZED: u64 = 2;

    /// A minted item and its owner of record
    struct NFT has store, drop \x7b
        id: u64,
        owner: address,
    \x7d

    /// Items owned by an account plus the next id to mint
    struct Collection has key \x7b
        items: vector<NFT>,
        next_id: u64,
    \x7d

    /// Create an empty collection for the caller
    public entry fun initialize(account: &signer) \x7b
        let addr = signer::address_of(account);
        assert!(!exists<Collection>(addr), E_ALREADY_INITIALIZED);
        move_to(account, Collection \x7b
            items: vector::empty<NFT>(),
            next_id: 0,
        \x7d);
    \x7d

    /// Append a new item tagged with the current counter, then advance it
    public entry fun mint(account: &signer) acquires Collection \x7b
        let addr = signer::address_of(account);
        assert!(exists<Collection>(addr), E_NOT_INITIALIZED);

        let collection = borrow_global_mut<Collection>(addr);
        let id = collection.next_id;
        vector::push_back(&mut collection.items, NFT \x7b id, owner: addr \x7d);
        collection.next_id = id + 1;
    \x7d
\x7d
"

/-- Items by account under a running number, with `initialize` and `mint`. -/
def nft : Template :=
  ofBody "move.nft" .nft "NFT collection with initialize and counter-tagged mint"
    [nameSlot "MyNFT", addressSlot] nftBody

/-- The text of the marketplace template. -/
def marketplaceBody : String :=
  "module \x7b\x7baddress\x7d\x7d::\x7b\x7bname\x7d\x7d \x7b
    use std::signer;
    use std::vector;

    /// Error codes
    const E_NOT_INITIALIZED: u64 = 1;
    const E_ALREADY_INITIALIZED: u64 = 2;
    const E_LISTING_NOT_FOUND: u64 = 3;

    /// One item offered for sale
    struct Listing has store, drop \x7b
        id: u64,
        seller: address,
        price: u64,
        active: bool,
    \x7d

    /// Listings published by an account plus the next id to assign
    struct Listings has key \x7b
        listings: vector<Listing>,
        next_id: u64,
    \x7d

    /// Create an empty listings resource for the caller
    public entry fun initialize(account: &signer) \x7b
        let addr = signer::address_of(account);
        assert!(!exists<Listings>(addr), E_ALREADY_INITIALIZED);
        move_to(account, Listings \x7b
            listings: vector::empty<Listing>(),
            next_id: 0,
        \x7d);
    \x7d
\x7d
"

/-- Listings by account under a running number, with `initialize`. -/
def marketplace : Template :=
  ofBody "move.marketplace" .marketplace "Marketplace listings resource with initialize"
    [nameSlot "Marketplace", addressSlot] marketplaceBody

/-- The text of the module template. -/
def moduleBody : String :=
  "module \x7b\x7baddress\x7d\x7d::\x7b\x7bname\x7d\x7d \x7b
    use std::signer;

    /// Error codes
    const E_ALREADY_INITIALIZED: u64 = 1;

    struct Data has key \x7b
        value: u64,
    \x7d

    public entry fun initialize(account: &signer) \x7b
        assert!(!exists<Data>(signer::address_of(account)), E_ALREADY_INITIALIZED);
        move_to(account, Data \x7b value: 0 \x7d);
    \x7d
\x7d
"

/-- One keyed resource with a number in it, with `initialize`. -/
def module : Template :=
  ofBody "move.module" .module "Minimal module with a keyed data resource"
    [nameSlot "MyModule", addressSlot] moduleBody

/-- The built-in templates, in menu order. -/
def builtins : List Template := [token, nft, marketplace, module]

end MoveDesk.Template
