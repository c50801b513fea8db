import VerdantBond.Issuer.Balances
import Mathlib.Data.List.Sort

set_option autoImplicit false

/-! # BondIssuer: the primary subscription auction

`bond-issuer/src/subscription_auction.rs` on the record of one bond. Admitted wallets commit
orders and pay their capital into the contract; after the cutoff anyone settles. Settlement sorts
the orders by identity and wallet, apportions the remaining supply first over identities and then
over each identity's wallets (`apportion`, largest remainders), mints the allocated units under
one balance version, refunds the rest and pays the proceeds to the treasury.

`TokenBalances` are the balances of the token contracts, moved by `transferToken` only.
-/

namespace VerdantBond

open Function

def maxAuctionWallets : Nat := 32

/-- Balance of each address in each token contract. -/
abbrev TokenBalances := Address → Address → Int

/-- `token::Client::transfer`: a covered transfer that the token contract accepts. -/
def transferToken (env : Env) (balances : TokenBalances) (token source target : Address)
    (amount : Int) : Outcome BondError TokenBalances := do
  hostRequire (env.tokenAccepts token source target amount = true)
  hostRequire (0 ≤ amount ∧ amount ≤ balances token source)
  let debited := update (balances token) source (balances token source - amount)
  let credited ← orTrap (i128 (debited target + amount))
  pure (update balances token (update debited target credited))

/-! ## Apportionment -/

/-- The sum of the requests, each of which must lie in `[0, MAX_SUPPLY]`. -/
def addRequest (total request : Int) : Outcome BondError Int := do
  reject (¬ (0 ≤ request ∧ request ≤ maxSupply)) .invalidAuction
  okOr (i128 (total + request)) .overflow

/-- The variables of the quota loop. -/
structure Quotas where
  allocations : List Int
  remainders : List Int
  allocated : Int

/-- The whole part and the remainder of `request * capacity / total`. -/
def addQuota (capacity total : Int) (q : Quotas) (request : Int) : Outcome BondError Quotas := do
  let product ← okOr (i128 (request * capacity)) .overflow
  let allocated ← okOr (i128 (q.allocated + product.tdiv total)) .overflow
  pure { allocations := q.allocations ++ [product.tdiv total]
         remainders := q.remainders ++ [product.tmod total]
         allocated := allocated }

/-- The first index with the largest remainder. -/
def bestIndex (remainders : List Int) : Nat :=
  (List.range' 1 (remainders.length - 1)).foldl
    (fun best index => if remainders.getD best 0 < remainders.getD index 0 then index else best) 0

/-- Hand out `n` units, one to each of the largest remainders. -/
def handOut : Nat → List Int → List Int → List Int
  | 0, allocations, _ => allocations
  | n + 1, allocations, remainders =>
      let best := bestIndex remainders
      handOut n (allocations.set best (allocations.getD best 0 + 1)) (remainders.set best (-1))

/-- `apportion`. The number of units to hand out is cast to `u32`. -/
def apportion (requests : List Int) (capacity : Int) : Outcome BondError (List Int) := do
  reject (capacity < 0 ∨ maxAuctionWallets < requests.length) .invalidAuction
  let total ← requests.foldlM addRequest 0
  if total ≤ capacity then
    pure requests
  else do
    let q ← requests.foldlM (addQuota capacity total) ⟨[], [], 0⟩
    let left ← orTrap (i128 (capacity - q.allocated))
    pure (handOut (left.emod (2 ^ 32)).toNat q.allocations q.remainders)

/-! ## Orders -/

/-- `(left.identity, left.wallet) <= (right.identity, right.wallet)`. -/
def orderLe (left right : AuctionOrder) : Prop :=
  left.identity < right.identity ∨ left.identity = right.identity ∧ left.wallet ≤ right.wallet

instance : DecidableRel orderLe := fun left right =>
  inferInstanceAs (Decidable (left.identity < right.identity ∨
    left.identity = right.identity ∧ left.wallet ≤ right.wallet))

/-- The insertion sort of `settle_subscription`. The accumulator is the sorted prefix, last
order first: each order moves left past the orders that are greater. -/
def sortOrders (orders : List AuctionOrder) : List AuctionOrder :=
  (orders.foldl (fun sorted o => sorted.orderedInsert (fun a b => orderLe b a) o) []).reverse

/-- One round of the grouping loop; `identities` and `demands` as one list, newest first. -/
def addDemand (demands : List (Bytes32 × Int)) (order : AuctionOrder) :
    Outcome BondError (List (Bytes32 × Int)) :=
  match demands with
  | [] => .ok [(order.identity, order.requested)]
  | (identity, demand) :: rest =>
      if identity = order.identity then do
        let sum ← okOr (i128 (demand + order.requested)) .overflow
        pure ((identity, sum) :: rest)
      else
        .ok ((order.identity, order.requested) :: (identity, demand) :: rest)

/-- The total demand of each identity, in the order of the sorted orders. -/
def identityDemands (orders : List AuctionOrder) : Outcome BondError (List (Bytes32 × Int)) := do
  let demands ← orders.foldlM addDemand []
  pure demands.reverse

/-- Write the amounts to the orders of `identity`, in order. -/
def assign (faceValue : Int) (identity : Bytes32) :
    List AuctionOrder → List Int → Outcome BondError (List AuctionOrder)
  | [], _ => .ok []
  | order :: orders, amounts =>
      if order.identity = identity then
        match amounts with
        | [] => .error .trap
        | amount :: amounts => do
            let unfilled ← orTrap (i128 (order.requested - amount))
            let refunded ← okOr (i128 (unfilled * faceValue)) .overflow
            let rest ← assign faceValue identity orders amounts
            pure ({ order with allocated := amount, refunded := refunded } :: rest)
      else do
        let rest ← assign faceValue identity orders amounts
        pure (order :: rest)

/-- Apportion one identity's allocation over its wallets. -/
def allocateIdentity (faceValue : Int) (orders : List AuctionOrder) (share : Bytes32 × Int) :
    Outcome BondError (List AuctionOrder) := do
  let requests := (orders.filter (fun order => order.identity = share.1)).map (·.requested)
  let amounts ← apportion requests share.2
  assign faceValue share.1 orders amounts

/-- The units an auction can still place. -/
def capacityOf (clock : Clock) (config : BondConfig) (state : BondState) : Outcome BondError Int :=
  if state.status = .active ∧ clock.timestamp < config.maturityDate then
    orTrap (i128 (config.totalSupply - state.totalSubscribed))
  else
    .ok 0

/-- Both rounds of apportionment over the sorted orders. -/
def allocateOrders (clock : Clock) (config : BondConfig) (state : BondState)
    (orders : List AuctionOrder) : Outcome BondError (List AuctionOrder) := do
  let demands ← identityDemands orders
  let capacity ← capacityOf clock config state
  let allocations ← apportion (demands.map Prod.snd) capacity
  ((demands.map Prod.fst).zip allocations).foldlM (allocateIdentity config.faceValue) orders

/-! ## Committing -/

/-- Add `amount` to the wallet's order, or append a new order. -/
def addOrder (wallet : Address) (identity : Bytes32) (amount : Int) :
    List AuctionOrder → Outcome BondError (List AuctionOrder)
  | [] => .ok [{ wallet := wallet, identity := identity, requested := amount, allocated := 0
                 refunded := 0 }]
  | order :: orders =>
      if order.wallet = wallet then do
        let requested ← okOr (i128 (order.requested + amount)) .overflow
        pure ({ order with requested := requested } :: orders)
      else do
        let rest ← addOrder wallet identity amount orders
        pure (order :: rest)

/-- The demand an identity would have with `amount` more. -/
def identityTotal (identity : Bytes32) (amount : Int) (orders : List AuctionOrder) :
    Outcome BondError Int :=
  orders.foldlM (fun total order =>
    if order.identity = identity then okOr (i128 (total + order.requested)) .overflow
    else pure total) amount

namespace Bond

/-- `grant_subscription` after the authority checks; `self` is the contract's address. -/
def grantSubscription (clock : Clock) (self : Address) (b : Bond) (wallet : Address)
    (identity : Bytes32) : Outcome BondError Bond := do
  let auction ← okOr b.subscriptionAuction .invalidAuction
  reject (auction.config.openLedger ≤ clock.sequence) .auctionClosed
  reject ((b.subscriptionIdentity wallet).isSome = true ∨
    maxAuctionWallets ≤ auction.wallets.length ∨ identity = ⟨0⟩ ∨ wallet = self) .invalidAuction
  pure { b with
    subscriptionIdentity := update b.subscriptionIdentity wallet (some identity)
    subscriptionAuction := some { auction with wallets := auction.wallets ++ [wallet] } }

/-- `commit_subscription` after the nonce. -/
def commitSubscription (env : Env) (clock : Clock) (self : Address) (tokens : TokenBalances)
    (b : Bond) (investor : Address) (amount : Int) : Outcome BondError (Bond × TokenBalances) := do
  let auction ← okOr b.subscriptionAuction .invalidAuction
  reject (auction.settled = true ∨ clock.sequence < auction.config.openLedger ∨
    auction.config.cutoffLedger ≤ clock.sequence) .auctionClosed
  let config ← okOr b.config .bondNotFound
  reject (config.maturityDate ≤ clock.timestamp) .bondAlreadyMatured
  let state ← okOr b.state .bondNotFound
  reject (state.status ≠ .active) .bondAlreadyMatured
  reject (amount ≤ 0 ∨ maxSupply < amount) .zeroAmount
  let identity ← okOr (b.subscriptionIdentity investor) .subscriptionIneligible
  let total ← identityTotal identity amount auction.orders
  reject (auction.config.identityCap < total) .identityCapExceeded
  let capital ← okOr (i128 (amount * config.faceValue)) .overflow
  let orders ← addOrder investor identity amount auction.orders
  let tokens' ← transferToken env tokens auction.config.token investor self capital
  pure ({ b with subscriptionAuction := some { auction with orders := orders } }, tokens')

end Bond

/-! ## Settling -/

/-- The variables of the minting loop. -/
structure Minting where
  bond : Bond
  total : Int
  tokens : TokenBalances

/-- Mint an order's allocation under `version`. -/
def mint (version : Nat) (m : Minting) (order : AuctionOrder) : Outcome BondError Minting := do
  let balance ← okOr (i128 (m.bond.holderBalance order.wallet + order.allocated)) .overflow
  let b ← Bond.appendHolderCheckpoint
    { m.bond with holderBalance := update m.bond.holderBalance order.wallet balance }
    order.wallet version (m.bond.holderBalance order.wallet) balance
  let total ← okOr (i128 (m.total + order.allocated)) .overflow
  pure { m with bond := b, total := total }

/-- Orders without an allocation are skipped. -/
def mintAllocated (version : Nat) (m : Minting) (order : AuctionOrder) :
    Outcome BondError Minting :=
  if 0 < order.allocated then mint version m order else pure m

/-- Pay tokens out of the contract, if there is anything to pay. -/
def payOut (env : Env) (self token : Address) (tokens : TokenBalances) (target : Address)
    (amount : Int) : Outcome BondError TokenBalances :=
  if 0 < amount then transferToken env tokens token self target amount else pure tokens

/-- One round of the minting loop: mint the allocation, then refund the rest. -/
def mintAndRefund (env : Env) (self token : Address) (version : Nat) (m : Minting)
    (order : AuctionOrder) : Outcome BondError Minting := do
  let m₁ ← mintAllocated version m order
  let tokens ← payOut env self token m₁.tokens order.wallet order.refunded
  pure { m₁ with tokens := tokens }

namespace Bond

/-- `settle_subscription`, with the token balances it moves and the settled auction. -/
def settleSubscription (env : Env) (clock : Clock) (self : Address) (tokens : TokenBalances)
    (b : Bond) : Outcome BondError (Bond × TokenBalances × AuctionState) := do
  let auction ← okOr b.subscriptionAuction .invalidAuction
  reject (auction.settled = true ∨ clock.sequence < auction.config.cutoffLedger) .auctionClosed
  let config ← okOr b.config .bondNotFound
  let state ← okOr b.state .bondNotFound
  let orders ← allocateOrders clock config state (sortOrders auction.orders)
  let settled : AuctionState := { auction with orders := orders, settled := true }
  let b₁ ← advanceBalanceVersion { b with subscriptionAuction := some settled }
  let m ← orders.foldlM (mintAndRefund env self auction.config.token b₁.balanceVersion)
    { bond := b₁, total := state.totalSubscribed, tokens := tokens }
  let issued ← orTrap (i128 (m.total - state.totalSubscribed))
  let proceeds ← okOr (i128 (issued * config.faceValue)) .overflow
  let tokens' ← payOut env self auction.config.token m.tokens auction.config.treasury proceeds
  let b₂ ← appendSupplyCheckpoint
    { m.bond with state := some { state with totalSubscribed := m.total } }
    b₁.balanceVersion state.totalSubscribed m.total
  pure (b₂, tokens', settled)

end Bond

/-! ## What a successful call did -/

namespace Bond

variable {clock : Clock} {b b' : Bond} {env : Env} {tokens tokens' : TokenBalances}

theorem grantSubscription_ok {self wallet : Address} {identity : Bytes32}
    (h : b.grantSubscription clock self wallet identity = .ok b') :
    ∃ auction, b.subscriptionAuction = some auction ∧
      clock.sequence < auction.config.openLedger ∧ b.subscriptionIdentity wallet = none ∧
      auction.wallets.length < maxAuctionWallets ∧ identity ≠ ⟨0⟩ ∧ wallet ≠ self ∧
      b' = { b with
        subscriptionIdentity := update b.subscriptionIdentity wallet (some identity)
        subscriptionAuction := some { auction with wallets := auction.wallets ++ [wallet] } } := by
  simp only [grantSubscription, bind_ok_iff, okOr_ok_iff, reject_ok_iff, pure_ok_iff,
    exists_unit_iff, not_le, not_or, Option.not_isSome_iff_eq_none] at h
  obtain ⟨auction, ha, hopen, ⟨hnone, hlen, hid, hself⟩, rfl⟩ := h
  exact ⟨auction, ha, hopen, hnone, hlen, hid, hself, rfl⟩

theorem commitSubscription_ok {self investor : Address} {amount : Int}
    (h : b.commitSubscription env clock self tokens investor amount = .ok (b', tokens')) :
    ∃ auction orders identity, b.subscriptionAuction = some auction ∧ auction.settled = false ∧
      auction.config.openLedger ≤ clock.sequence ∧ clock.sequence < auction.config.cutoffLedger ∧
      0 < amount ∧ amount ≤ maxSupply ∧ b.subscriptionIdentity investor = some identity ∧
      addOrder investor identity amount auction.orders = .ok orders ∧
      b' = { b with subscriptionAuction := some { auction with orders := orders } } := by
  simp only [commitSubscription, bind_ok_iff, okOr_ok_iff, reject_ok_iff, pure_ok_iff,
    exists_unit_iff, i128_eq_some, not_le, not_lt, not_or, Bool.not_eq_true, Prod.mk.injEq] at h
  obtain ⟨auction, ha, ⟨hset, hopen, hcut⟩, config, -, -, state, -, -, ⟨hpos, hmax⟩, identity, hid,
    total, -, -, _, -, orders, ho, _, -, rfl, -⟩ := h
  exact ⟨auction, orders, identity, ha, hset, hopen, hcut, hpos, hmax, hid, ho, rfl⟩

/-- The record a settlement leaves. -/
theorem settleSubscription_ok {self : Address} {result : AuctionState}
    (h : b.settleSubscription env clock self tokens = .ok (b', tokens', result)) :
    ∃ auction config state orders m supplyLog,
      b.subscriptionAuction = some auction ∧ auction.settled = false ∧
      auction.config.cutoffLedger ≤ clock.sequence ∧
      b.config = some config ∧ b.state = some state ∧
      allocateOrders clock config state (sortOrders auction.orders) = .ok orders ∧
      result = { auction with orders := orders, settled := true } ∧
      b.balanceVersion + 1 ≤ u64Max ∧
      orders.foldlM (mintAndRefund env self auction.config.token (b.balanceVersion + 1))
        { bond := { b with subscriptionAuction := some result
                           balanceVersion := b.balanceVersion + 1 }
          total := state.totalSubscribed, tokens := tokens } = .ok m ∧
      m.bond.supplyLog.append (b.balanceVersion + 1) state.totalSubscribed m.total
        = some supplyLog ∧
      b' = { m.bond with state := some { state with totalSubscribed := m.total }
                         supplyLog := supplyLog } := by
  simp only [settleSubscription, bind_ok_iff, okOr_ok_iff, reject_ok_iff, pure_ok_iff,
    exists_unit_iff, not_lt, not_or, Bool.not_eq_true, Prod.mk.injEq] at h
  obtain ⟨auction, ha, ⟨hset, hcut⟩, config, hc, state, hs, orders, ho, b₁, h1, m, hm, issued, -,
    proceeds, -, _, -, b₂, h2, rfl, -, rfl⟩ := h
  obtain ⟨hv, rfl⟩ := advanceBalanceVersion_ok h1
  obtain ⟨sl, hsl, rfl⟩ := appendSupplyCheckpoint_ok h2
  exact ⟨auction, config, state, orders, m, sl, ha, hset, hcut, hc, hs, ho, rfl, hv, hm, hsl, rfl⟩

end Bond

end VerdantBond
