import VerdantBond.Dex.EntryPoints

set_option autoImplicit false

/-! # DEXRouter: what an entry point checked and wrote

One lemma for each entry point: from a success, the checks that passed and the state that is left.
The moves of the books and of the markets are read off these.
-/

namespace VerdantBond

open Function

/-- The ids a sweep scans. -/
def scannedIds (startId limit orderCount : Nat) : List Nat :=
  if orderCount = 0 ∨ orderCount < DEXRouter.sweepStart startId then []
  else DEXRouter.sweepIds (DEXRouter.sweepStart startId)
    (DEXRouter.sweepEnd (DEXRouter.sweepStart startId) limit orderCount)

namespace DEXRouter

open DexReply (ofRouter ofUnit ofPurchase)

variable {env : DexEnv} {clock : Clock} {issuer issuer' : BondIssuer} {s s' : DEXRouter}

/-! ## Replies -/

theorem exec_ok_iff {call : DexCall} {r : DEXRouter × BondIssuer × DexReply} :
    s.exec env clock issuer call = .ok r ↔
      call.WellTyped ∧ s.dispatch env clock issuer call = .ok r := by
  simp only [exec, bind_ok_iff, hostRequire_ok_iff, exists_unit_iff]

variable {reply : DexReply} {caller buyer : Address} {bondId nonce orderId commitId : Nat}
  {quoteAsset : Symbol} {maxPrice amount : Int}

theorem ofUnit_ok {x : Outcome DEXError DEXRouter} (h : ofUnit issuer x = .ok (s', issuer', reply)) :
    x = .ok s' ∧ issuer' = issuer ∧ reply = .unit := by
  simp only [ofUnit, bind_ok_iff, pure_ok_iff, Prod.mk.injEq] at h
  obtain ⟨_, hok, rfl, rfl, rfl⟩ := h
  exact ⟨hok, rfl, rfl⟩

theorem ofRouter_ok {α : Type} {f : α → DexReply} {x : Outcome DEXError (DEXRouter × α)}
    (h : ofRouter issuer f x = .ok (s', issuer', reply)) :
    ∃ a, x = .ok (s', a) ∧ issuer' = issuer ∧ reply = f a := by
  simp only [ofRouter, bind_ok_iff, pure_ok_iff, Prod.mk.injEq, Prod.exists] at h
  obtain ⟨_, a, hok, rfl, rfl, rfl⟩ := h
  exact ⟨a, hok, rfl, rfl⟩

theorem ofPurchase_ok {x : Outcome DEXError (DEXRouter × BondIssuer)}
    (h : ofPurchase x = .ok (s', issuer', reply)) : x = .ok (s', issuer') ∧ reply = .unit := by
  simp only [ofPurchase, bind_ok_iff, pure_ok_iff, Prod.mk.injEq, Prod.exists] at h
  obtain ⟨_, _, hok, rfl, rfl, rfl⟩ := h
  exact ⟨hok, rfl⟩

/-! ## Settings -/

theorem setAdmin_ok {currentAdmin newAdmin : Address}
    (h : s.setAdmin env currentAdmin newAdmin = .ok s') : s' = { s with admin := some newAdmin } := by
  simp only [setAdmin, bind_ok_iff, requireAuth_ok_iff, pure_ok_iff, exists_unit_iff] at h
  obtain ⟨-, -, rfl⟩ := h
  rfl

theorem configureMarket_ok {config : MarketConfig}
    (h : s.configureMarket env caller bondId quoteAsset config nonce = .ok s') :
    s' = { s.setNonce caller (s.nonce caller + 1) with
      marketConfig := update s.marketConfig bondId
        (update (s.marketConfig bondId) quoteAsset (some config)) } := by
  simp only [configureMarket, bind_ok_iff, requireAuth_ok_iff, reject_ok_iff, pure_ok_iff,
    exists_unit_iff] at h
  obtain ⟨-, s₁, hnonce, -, -, rfl⟩ := h
  obtain ⟨-, rfl⟩ := consumeNonceChecked_ok hnonce
  rfl

theorem updateOracleReference_ok {twapPrice sampleVolume : Int} {observedAt : Nat}
    (h : s.updateOracleReference env clock caller bondId quoteAsset twapPrice observedAt sampleVolume
      nonce = .ok s') :
    ∃ config pauseUntil, s.marketConfig bondId quoteAsset = some config ∧ 0 < twapPrice ∧
      pauseAfter clock config (s.oracleReference bondId quoteAsset) twapPrice observedAt
        = .ok pauseUntil ∧
      s' = { s.setNonce caller (s.nonce caller + 1) with
        oracleReference := update s.oracleReference bondId
          (update (s.oracleReference bondId) quoteAsset
            (some ⟨twapPrice, observedAt, sampleVolume, pauseUntil⟩)) } := by
  simp only [updateOracleReference, bind_ok_iff, requireAuth_ok_iff, reject_ok_iff, okOr_ok_iff,
    pure_ok_iff, exists_unit_iff, not_le] at h
  obtain ⟨-, s₁, hnonce, -, config, hconfig, hpositive, -, -, -, pauseUntil, hpause, rfl⟩ := h
  obtain ⟨-, rfl⟩ := consumeNonceChecked_ok hnonce
  exact ⟨config, pauseUntil, hconfig, hpositive, hpause, rfl⟩

/-! ## Settlement -/

/-- The checks a purchase passed, and the transfer it made. -/
structure Settlement (env : DexEnv) (clock : Clock) (issuer issuer' : BondIssuer) (s : DEXRouter)
    (buyer : Address) (orderId : Nat) (maxPrice amount : Int) (order : Order) : Prop where
  found : s.order orderId = some order
  live : order.status.Live
  stranger : buyer ≠ order.seller
  unexpired : clock.timestamp < order.expiresAt
  positive : 0 < amount
  available : amount ≤ order.amount
  price_le : order.pricePerToken ≤ maxPrice
  escrowed : amount ≤ s.bondEscrow order.bondId order.seller
  funded : amount * order.pricePerToken ≤ s.balance order.quoteAsset buyer
  transferred : issuer.transfer env.toEnv clock order.seller buyer order.bondId amount
    (issuer.nonce order.seller) = .ok issuer'

/-- What a purchase writes, after the market recorded it. -/
def settled (clock : Clock) (s s₁ : DEXRouter) (buyer : Address) (orderId : Nat) (amount : Int)
    (order : Order) : DEXRouter :=
  (((((s₁.setNonce buyer (s.nonce buyer + 1)).setBalance buyer order.quoteAsset
    (s.balance order.quoteAsset buyer - amount * order.pricePerToken)).setBalance order.seller
      order.quoteAsset
      (s.balance order.quoteAsset order.seller + amount * order.pricePerToken)).setBondEscrow
        order.bondId order.seller (s.bondEscrow order.bondId order.seller - amount)).setOrder orderId
          (fillOrder order (order.amount - amount))).recordPriceObservation clock order.bondId
            order.quoteAsset order.pricePerToken

theorem settlePurchase_inv
    (h : s.settlePurchase env clock issuer buyer orderId maxPrice amount nonce
      = .ok (s', issuer')) :
    ∃ order s₁, Settlement env clock issuer issuer' s buyer orderId maxPrice amount order ∧
      s.recordMarketTrade clock order.bondId order.quoteAsset order.pricePerToken
        (amount * order.pricePerToken) = .ok s₁ ∧
      s' = settled clock s s₁ buyer orderId amount order := by
  simp only [settlePurchase, bind_ok_iff, reject_ok_iff, okOr_ok_iff, orTrap_ok_iff, invoke_ok_iff,
    requireAuth_ok_iff, u64_eq_some, i128_eq_some, pure_ok_iff, exists_unit_iff, not_not, not_le,
    not_lt, Prod.mk.injEq] at h
  obtain ⟨-, _, ⟨-, rfl⟩, order, hfound, hlive, hstranger, hunexpired, hpositive, havailable, hprice,
    hescrowed, _, ⟨-, rfl⟩, hfunded, _, ⟨-, rfl⟩, _, -, -, -, s₁, hmarket, _, ⟨-, rfl⟩, _,
    ⟨-, rfl⟩, _, ⟨-, rfl⟩, _, htransferred, rfl, rfl⟩ := h
  exact ⟨order, s₁, ⟨hfound, hlive, hstranger, not_le.mp hunexpired, hpositive, havailable, hprice,
    hescrowed, hfunded, htransferred⟩, hmarket, rfl⟩

theorem executePurchase_ok
    (h : s.executePurchase env clock issuer buyer orderId maxPrice amount nonce
      = .ok (s', issuer')) :
    s.settlePurchase env clock issuer buyer orderId maxPrice amount nonce = .ok (s', issuer') := by
  simp only [executePurchase, bind_ok_iff, exists_unit_iff] at h
  exact h.2

/-! ## Sealed purchases -/

theorem commitPurchase_ok {commitment : Bytes32} {id : Nat}
    (h : s.commitPurchase env clock buyer commitment quoteAsset nonce = .ok (s', id)) :
    purchaseCommitBond ≤ s.balance quoteAsset buyer ∧ s.purchaseCommitCount + 1 ≤ u64Max ∧
      id = s.purchaseCommitCount + 1 ∧
      s' = ({ (s.setNonce buyer (s.nonce buyer + 1)).setBalance buyer quoteAsset
          (s.balance quoteAsset buyer - purchaseCommitBond) with
        purchaseCommitCount := s.purchaseCommitCount + 1 }).setPurchaseCommit
          (s.purchaseCommitCount + 1) ⟨buyer, commitment, quoteAsset, clock.sequence, false⟩ := by
  simp only [commitPurchase, bind_ok_iff, requireAuth_ok_iff, reject_ok_iff, okOr_ok_iff,
    orTrap_ok_iff, i128_eq_some, u64_eq_some, pure_ok_iff, exists_unit_iff, not_lt,
    Prod.mk.injEq] at h
  obtain ⟨-, s₁, hnonce, hcovered, _, ⟨-, rfl⟩, _, ⟨hnumbered, rfl⟩, rfl, rfl⟩ := h
  obtain ⟨-, rfl⟩ := consumeNonce_ok hnonce
  exact ⟨hcovered, hnumbered, rfl, rfl⟩

/-- The checks of a reveal. -/
structure Reveal (clock : Clock) (s : DEXRouter) (buyer : Address) (commitId orderId : Nat)
    (c : PurchaseCommit) (order : Order) : Prop where
  found : s.purchaseCommit commitId = some c
  own : c.buyer = buyer
  sealed : c.revealed = false
  early : c.ledgerSequence + purchaseRevealDelay ≤ clock.sequence
  due : clock.sequence ≤ c.ledgerSequence + purchaseRevealWindow
  listed : s.order orderId = some order
  asset : order.quoteAsset = c.quoteAsset

/-- The state a reveal settles in: the commit is spent and its bond returned. -/
def revealed (s : DEXRouter) (buyer : Address) (commitId : Nat) (c : PurchaseCommit) : DEXRouter :=
  ((s.setNonce buyer (s.nonce buyer + 1)).setPurchaseCommit commitId
    { c with revealed := true }).setBalance buyer c.quoteAsset
      (s.balance c.quoteAsset buyer + purchaseCommitBond)

theorem revealPurchase_ok {salt : Bytes32}
    (h : s.revealPurchase env clock issuer buyer commitId orderId maxPrice amount salt nonce
      = .ok (s', issuer')) :
    ∃ c order, Reveal clock s buyer commitId orderId c order ∧
      (s.revealed buyer commitId c).settlePurchase env clock issuer buyer orderId maxPrice amount
        (s.nonce buyer + 1) = .ok (s', issuer') := by
  simp only [revealPurchase, bind_ok_iff, requireAuth_ok_iff, reject_ok_iff, okOr_ok_iff,
    i128_eq_some, u64_eq_some, u32_eq_some, exists_unit_iff, not_lt, not_or, not_not,
    Bool.not_eq_true] at h
  obtain ⟨-, s₁, hnonce, c, hfound, ⟨hown, hsealed⟩, _, ⟨-, rfl⟩, _, ⟨-, rfl⟩, hearly, hdue, -, order,
    horder, hasset, _, ⟨-, rfl⟩, _, ⟨-, rfl⟩, hsettle⟩ := h
  obtain ⟨-, rfl⟩ := consumeNonce_ok hnonce
  exact ⟨c, order, ⟨hfound, hown, hsealed, hearly, hdue, horder, hasset⟩, hsettle⟩

theorem forfeitPurchaseCommit_ok (h : s.forfeitPurchaseCommit clock commitId = .ok s') :
    ∃ c, s.purchaseCommit commitId = some c ∧ c.revealed = false ∧
      c.ledgerSequence + purchaseRevealWindow < clock.sequence ∧
      s' = { s.setPurchaseCommit commitId { c with revealed := true } with
        penaltyBalance := update s.penaltyBalance c.quoteAsset
          (s.penaltyBalance c.quoteAsset + purchaseCommitBond) } := by
  simp only [forfeitPurchaseCommit, bind_ok_iff, reject_ok_iff, okOr_ok_iff, i128_eq_some,
    u32_eq_some, pure_ok_iff, exists_unit_iff, not_le, Bool.not_eq_true] at h
  obtain ⟨c, hfound, hsealed, _, ⟨-, rfl⟩, hlate, _, ⟨-, rfl⟩, rfl⟩ := h
  exact ⟨c, hfound, hsealed, hlate, rfl⟩

/-! ## Listings -/

theorem listBondTokens_ok {seller : Address} {pricePerToken : Int} {expiresAfterSeconds id : Nat}
    (h : s.listBondTokens env clock issuer seller bondId amount pricePerToken quoteAsset
      expiresAfterSeconds nonce = .ok (s', id)) :
    0 < amount ∧ 0 < pricePerToken ∧ amount ≤ issuer.getHolderBalance bondId seller ∧
      InI128 (s.bondEscrow bondId seller + amount) ∧ id = s.orderCount + 1 ∧
      s' = { ((s.setNonce seller (s.nonce seller + 1)).setBondEscrow bondId seller
          (s.bondEscrow bondId seller + amount)).setOrder (s.orderCount + 1)
            ⟨s.orderCount + 1, seller, bondId, amount, pricePerToken, quoteAsset, .open,
              clock.timestamp, clock.timestamp + expiresAfterSeconds⟩ with
        orderCount := s.orderCount + 1
        sellerOrders := update s.sellerOrders seller (s.sellerOrders seller ++ [s.orderCount + 1])
        bondOrders := update s.bondOrders bondId (s.bondOrders bondId ++ [s.orderCount + 1]) } := by
  simp only [listBondTokens, verifyHolderBalance, bind_ok_iff, requireAuth_ok_iff, reject_ok_iff,
    okOr_ok_iff, orTrap_ok_iff, i128_eq_some, u64_eq_some, pure_ok_iff, exists_unit_iff, not_lt,
    not_or, not_le, Prod.mk.injEq] at h
  obtain ⟨-, s₁, hnonce, ⟨hpositive, hpriced⟩, -, ⟨_, -, hheld⟩, _, ⟨hfits, rfl⟩, _, ⟨-, rfl⟩, _,
    ⟨-, rfl⟩, rfl, rfl⟩ := h
  obtain ⟨-, rfl⟩ := consumeNonce_ok hnonce
  exact ⟨hpositive, hpriced, hheld, hfits, rfl, rfl⟩

theorem cancelListing_ok (h : s.cancelListing env caller orderId nonce = .ok s') :
    ∃ order, s.order orderId = some order ∧ caller = order.seller ∧ order.status.Live ∧
      s' = ((s.setNonce caller (s.nonce caller + 1)).setBondEscrow order.bondId order.seller
        ((i128 (s.bondEscrow order.bondId order.seller - order.amount)).getD 0)).setOrder orderId
          { order with status := .cancelled } := by
  simp only [cancelListing, bind_ok_iff, requireAuth_ok_iff, reject_ok_iff, okOr_ok_iff, pure_ok_iff,
    exists_unit_iff, not_not] at h
  obtain ⟨-, s₁, hnonce, order, hfound, hown, hlive, rfl⟩ := h
  obtain ⟨-, rfl⟩ := consumeNonce_ok hnonce
  exact ⟨order, hfound, hown, hlive, rfl⟩

/-- A sweep marks orders and does nothing else. -/
theorem cleanExpiredOrders_ok {startId limit : Nat} {result : CleanExpiredResult}
    (h : s.cleanExpiredOrders env clock caller startId limit nonce = .ok (s', result)) :
    s' = { s.setNonce caller (s.nonce caller + 1) with
      order := ((scannedIds startId limit s.orderCount).foldl (sweepOrder clock) (s.order, 0)).1 } := by
  simp only [cleanExpiredOrders, bind_ok_iff, requireAuth_ok_iff, reject_ok_iff,
    exists_unit_iff] at h
  obtain ⟨-, s₁, hnonce, -, -, h⟩ := h
  obtain ⟨-, rfl⟩ := consumeNonce_ok hnonce
  unfold scannedIds
  by_cases hnone : s.orderCount = 0 ∨ s.orderCount < sweepStart startId
  · rw [if_pos hnone, pure_ok_iff, Prod.mk.injEq] at h
    obtain ⟨rfl, -⟩ := h
    rw [if_pos hnone]
    rfl
  · rw [if_neg hnone, pure_ok_iff, Prod.mk.injEq] at h
    obtain ⟨rfl, -⟩ := h
    rw [if_neg hnone]

/-! ## Quote balances -/

theorem depositQuote_ok (h : s.depositQuote env caller quoteAsset amount nonce = .ok s') :
    0 < amount ∧ s' = (s.setNonce caller (s.nonce caller + 1)).setBalance caller quoteAsset
      (s.balance quoteAsset caller + amount) := by
  simp only [depositQuote, bind_ok_iff, requireAuth_ok_iff, reject_ok_iff, okOr_ok_iff, i128_eq_some,
    pure_ok_iff, exists_unit_iff, not_le] at h
  obtain ⟨-, s₁, hnonce, hpositive, _, ⟨-, rfl⟩, rfl⟩ := h
  obtain ⟨-, rfl⟩ := consumeNonce_ok hnonce
  exact ⟨hpositive, rfl⟩

theorem withdrawQuote_ok (h : s.withdrawQuote env caller quoteAsset amount nonce = .ok s') :
    0 < amount ∧ amount ≤ s.balance quoteAsset caller ∧
      s' = (s.setNonce caller (s.nonce caller + 1)).setBalance caller quoteAsset
        (s.balance quoteAsset caller - amount) := by
  simp only [withdrawQuote, bind_ok_iff, requireAuth_ok_iff, reject_ok_iff, orTrap_ok_iff,
    i128_eq_some, pure_ok_iff, exists_unit_iff, not_le, not_lt] at h
  obtain ⟨-, s₁, hnonce, hpositive, hcovered, _, ⟨-, rfl⟩, rfl⟩ := h
  obtain ⟨-, rfl⟩ := consumeNonce_ok hnonce
  exact ⟨hpositive, hcovered, rfl⟩

end DEXRouter

/-! ## Steps -/

/-- A call fails and changes nothing, or succeeds with the new states. -/
theorem DexWorld.step_dex (w : DexWorld) (env : DexEnv) (call : DexCall) :
    w.step (.dex env call) = (w, none) ∨
      ∃ dex issuer reply,
        w.dex.exec env w.base.clock w.base.issuer call = .ok (dex, issuer, reply) ∧
        w.step (.dex env call) = (⟨{ w.base with issuer := issuer }, dex⟩, some reply) := by
  cases h : w.dex.exec env w.base.clock w.base.issuer call with
  | error e => exact .inl (by simp only [step, h])
  | ok r =>
      obtain ⟨dex, issuer, reply⟩ := r
      exact .inr ⟨dex, issuer, reply, rfl, by simp only [step, h]⟩

end VerdantBond
