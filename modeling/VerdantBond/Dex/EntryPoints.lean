import VerdantBond.Dex.Market
import VerdantBond.Issuer.EntryPoints

set_option autoImplicit false

/-! # DEXRouter: entry points and runs

The state-changing entry points of the contract. A purchase settles in one call: the quote moves
between two balances of this contract, the bond units between two holders of the issuer, and the
order and the seller's escrow shrink together. A run interleaves calls to the router with inputs of
the issuer and the passing of ledgers.
-/

namespace VerdantBond

open Function

namespace DEXRouter

/-! ## Settlement -/

/-- An order after `amount` of it was bought. -/
def fillOrder (order : Order) (left : Int) : Order :=
  { order with amount := left, status := if left = 0 then .filled else .partiallyFilled }

variable (env : DexEnv) (clock : Clock) (issuer : BondIssuer) (s : DEXRouter)

/-- `settle_purchase`, with the issuer the bond units move in. -/
def settlePurchase (buyer : Address) (orderId : Nat) (maxPrice amount : Int) (nonce : Nat) :
    Outcome DEXError (DEXRouter × BondIssuer) := do
  reject (nonce ≠ s.nonce buyer) .invalidNonce
  let nextNonce ← okOr (u64 (s.nonce buyer + 1)) .overflow
  let order ← okOr (s.order orderId) .orderNotFound
  reject (¬ order.status.Live) .orderAlreadyFilled
  reject (buyer = order.seller) .selfBuyNotAllowed
  reject (order.IsExpired clock) .orderExpired
  reject (amount ≤ 0) .zeroAmount
  reject (order.amount < amount) .insufficientBalance
  reject (maxPrice < order.pricePerToken) .insufficientBalance
  let sellerEscrow := s.bondEscrow order.bondId order.seller
  reject (sellerEscrow < amount) .insufficientBalance
  let proceeds ← okOr (i128 (amount * order.pricePerToken)) .overflow
  let buyerBalance := s.balance order.quoteAsset buyer
  reject (buyerBalance < proceeds) .insufficientFunds
  let newSellerBalance ← okOr (i128 (s.balance order.quoteAsset order.seller + proceeds)) .overflow
  let _ ← okOr s.bondIssuerAddress .notInitialized
  let sellerBondNonce := issuer.getNonce order.seller
  requireAuth env.toEnv order.seller
  reject ((issuer.checkTransfer clock order.seller buyer order.bondId amount).isOk = false)
    .transferPreconditionFailed
  let s₁ ← s.recordMarketTrade clock order.bondId order.quoteAsset order.pricePerToken proceeds
  let newBuyerBalance ← orTrap (i128 (buyerBalance - proceeds))
  let newSellerEscrow ← orTrap (i128 (sellerEscrow - amount))
  let left ← orTrap (i128 (order.amount - amount))
  let s₂ := s₁.setNonce buyer nextNonce
  let s₃ := s₂.setBalance buyer order.quoteAsset newBuyerBalance
  let s₄ := s₃.setBalance order.seller order.quoteAsset newSellerBalance
  let s₅ := s₄.setBondEscrow order.bondId order.seller newSellerEscrow
  let s₆ := s₅.setOrder orderId (fillOrder order left)
  let issuer' ← invoke
    (issuer.transfer env.toEnv clock order.seller buyer order.bondId amount sellerBondNonce)
  pure (s₆.recordPriceObservation clock order.bondId order.quoteAsset order.pricePerToken, issuer')

def executePurchase (buyer : Address) (orderId : Nat) (maxPrice amount : Int) (nonce : Nat) :
    Outcome DEXError (DEXRouter × BondIssuer) := do
  requireAuth env.toEnv buyer
  s.settlePurchase env clock issuer buyer orderId maxPrice amount nonce

/-! ## Sealed purchases -/

/-- `commit_purchase`, with the id of the commit. -/
def commitPurchase (buyer : Address) (commitment : Bytes32) (quoteAsset : Symbol) (nonce : Nat) :
    Outcome DEXError (DEXRouter × Nat) := do
  requireAuth env.toEnv buyer
  let s₁ ← s.consumeNonce buyer nonce
  let balance := s.balance quoteAsset buyer
  reject (balance < purchaseCommitBond) .insufficientFunds
  let newBalance ← orTrap (i128 (balance - purchaseCommitBond))
  let commitId ← okOr (u64 (s.purchaseCommitCount + 1)) .overflow
  let s₂ := s₁.setBalance buyer quoteAsset newBalance
  let s₃ := { s₂ with purchaseCommitCount := commitId }
  pure (s₃.setPurchaseCommit commitId ⟨buyer, commitment, quoteAsset, clock.sequence, false⟩,
    commitId)

/-- `reveal_purchase`: the bond is refunded and the purchase settles, under the next nonce. -/
def revealPurchase (buyer : Address) (commitId orderId : Nat) (maxPrice amount : Int)
    (salt : Bytes32) (nonce : Nat) : Outcome DEXError (DEXRouter × BondIssuer) := do
  requireAuth env.toEnv buyer
  let s₁ ← s.consumeNonce buyer nonce
  let commit ← okOr (s.purchaseCommit commitId) .orderNotFound
  reject (commit.buyer ≠ buyer ∨ commit.revealed = true) .unauthorized
  let earliest ← okOr (u32 (commit.ledgerSequence + purchaseRevealDelay)) .overflow
  let deadline ← okOr (u32 (commit.ledgerSequence + purchaseRevealWindow)) .overflow
  reject (clock.sequence < earliest) .revealTooEarly
  reject (deadline < clock.sequence) .revealWindowClosed
  reject (env.commitmentHash buyer orderId maxPrice amount salt ≠ commit.commitment)
    .invalidCommitment
  let order ← okOr (s.order orderId) .orderNotFound
  reject (order.quoteAsset ≠ commit.quoteAsset) .invalidCommitment
  let s₂ := s₁.setPurchaseCommit commitId { commit with revealed := true }
  let refunded ← okOr (i128 (s.balance commit.quoteAsset buyer + purchaseCommitBond)) .overflow
  let s₃ := s₂.setBalance buyer commit.quoteAsset refunded
  let settlementNonce ← okOr (u64 (s.nonce buyer + 1)) .overflow
  s₃.settlePurchase env clock issuer buyer orderId maxPrice amount settlementNonce

/-- `forfeit_purchase_commit`. -/
def forfeitPurchaseCommit (commitId : Nat) : Outcome DEXError DEXRouter := do
  let commit ← okOr (s.purchaseCommit commitId) .orderNotFound
  reject (commit.revealed = true) .orderAlreadyFilled
  let deadline ← okOr (u32 (commit.ledgerSequence + purchaseRevealWindow)) .overflow
  reject (clock.sequence ≤ deadline) .revealTooEarly
  let s₁ := s.setPurchaseCommit commitId { commit with revealed := true }
  let newReserve ← okOr (i128 (s.penaltyBalance commit.quoteAsset + purchaseCommitBond)) .overflow
  pure { s₁ with penaltyBalance := update s.penaltyBalance commit.quoteAsset newReserve }

/-! ## Listings -/

/-- `verify_holder_balance`. -/
def verifyHolderBalance (holder : Address) (bondId : Nat) (required : Int) :
    Outcome DEXError Unit := do
  let _ ← okOr s.bondIssuerAddress .notInitialized
  reject (issuer.getHolderBalance bondId holder < required) .insufficientBalance

/-- `list_bond_tokens`, with the id of the order. -/
def listBondTokens (seller : Address) (bondId : Nat) (amount pricePerToken : Int)
    (quoteAsset : Symbol) (expiresAfterSeconds nonce : Nat) :
    Outcome DEXError (DEXRouter × Nat) := do
  requireAuth env.toEnv seller
  let s₁ ← s.consumeNonce seller nonce
  reject (amount ≤ 0 ∨ pricePerToken ≤ 0) .zeroAmount
  reject (expiresAfterSeconds = 0) .orderExpired
  s.verifyHolderBalance issuer seller bondId amount
  let newEscrow ← okOr (i128 (s.bondEscrow bondId seller + amount)) .overflow
  let orderId ← orTrap (u64 (s.orderCount + 1))
  let expiresAt ← okOr (u64 (clock.timestamp + expiresAfterSeconds)) .orderExpired
  let s₂ := s₁.setBondEscrow bondId seller newEscrow
  let s₃ := s₂.setOrder orderId ⟨orderId, seller, bondId, amount, pricePerToken, quoteAsset, .open,
    clock.timestamp, expiresAt⟩
  pure ({ s₃ with
    orderCount := orderId
    sellerOrders := update s.sellerOrders seller (s.sellerOrders seller ++ [orderId])
    bondOrders := update s.bondOrders bondId (s.bondOrders bondId ++ [orderId]) }, orderId)

def cancelListing (caller : Address) (orderId nonce : Nat) : Outcome DEXError DEXRouter := do
  requireAuth env.toEnv caller
  let s₁ ← s.consumeNonce caller nonce
  let order ← okOr (s.order orderId) .orderNotFound
  reject (caller ≠ order.seller) .unauthorized
  reject (¬ order.status.Live) .orderAlreadyFilled
  let newEscrow := (i128 (s.bondEscrow order.bondId order.seller - order.amount)).getD 0
  let s₂ := s₁.setBondEscrow order.bondId order.seller newEscrow
  pure (s₂.setOrder orderId { order with status := .cancelled })

/-- One round of the sweep: an order past its time is marked, and nothing else of it changes. -/
def sweepOrder (r : (Nat → Option Order) × Nat) (id : Nat) : (Nat → Option Order) × Nat :=
  match r.1 id with
  | some order =>
      if order.status.Live ∧ order.IsExpired clock then
        (update r.1 id (some { order with status := .expired }), r.2 + 1)
      else r
  | none => r

/-- The first id of a sweep. -/
def sweepStart (startId : Nat) : Nat := if startId = 0 then 1 else startId

/-- The id a sweep from `start` stops at: after a batch, or at the count. -/
def sweepEnd (start limit count : Nat) : Nat :=
  let batch := if maxCleanBatch < limit then maxCleanBatch else limit
  min (min (start + batch) u64Max - 1) count

/-- The ids `start..=end`. -/
def sweepIds (start «end» : Nat) : List Nat := List.range' start («end» + 1 - start)

def cleanExpiredOrders (caller : Address) (startId limit nonce : Nat) :
    Outcome DEXError (DEXRouter × CleanExpiredResult) := do
  requireAuth env.toEnv caller
  let s₁ ← s.consumeNonce caller nonce
  s₁.requireAdmin caller
  reject (limit = 0) .zeroAmount
  let count := s.orderCount
  let start := sweepStart startId
  if count = 0 ∨ count < start then pure (s₁, ⟨0, 0⟩)
  else
    let «end» := sweepEnd start limit count
    let r := (sweepIds start «end»).foldl (sweepOrder clock) (s.order, 0)
    pure ({ s₁ with order := r.1 }, ⟨r.2, if count ≤ «end» then 0 else «end» + 1⟩)

/-! ## Quote balances -/

def depositQuote (caller : Address) (quoteAsset : Symbol) (amount : Int) (nonce : Nat) :
    Outcome DEXError DEXRouter := do
  requireAuth env.toEnv caller
  let s₁ ← s.consumeNonce caller nonce
  reject (amount ≤ 0) .zeroAmount
  let newBalance ← okOr (i128 (s.balance quoteAsset caller + amount)) .overflow
  pure (s₁.setBalance caller quoteAsset newBalance)

def withdrawQuote (caller : Address) (quoteAsset : Symbol) (amount : Int) (nonce : Nat) :
    Outcome DEXError DEXRouter := do
  requireAuth env.toEnv caller
  let s₁ ← s.consumeNonce caller nonce
  reject (amount ≤ 0) .zeroAmount
  reject (s.balance quoteAsset caller < amount) .insufficientFunds
  let newBalance ← orTrap (i128 (s.balance quoteAsset caller - amount))
  pure (s₁.setBalance caller quoteAsset newBalance)

def setAdmin (currentAdmin newAdmin : Address) : Outcome DEXError DEXRouter := do
  requireAuth env.toEnv currentAdmin
  s.requireAdmin currentAdmin
  pure { s with admin := some newAdmin }

end DEXRouter

/-! ## Calls -/

inductive DexCall where
  | setAdmin (currentAdmin newAdmin : Address)
  | configureMarket (caller : Address) (bondId : Nat) (quoteAsset : Symbol)
      (config : MarketConfig) (nonce : Nat)
  | updateOracleReference (caller : Address) (bondId : Nat) (quoteAsset : Symbol)
      (twapPrice : Int) (observedAt : Nat) (sampleVolume : Int) (nonce : Nat)
  | commitPurchase (buyer : Address) (commitment : Bytes32) (quoteAsset : Symbol) (nonce : Nat)
  | revealPurchase (buyer : Address) (commitId orderId : Nat) (maxPrice amount : Int)
      (salt : Bytes32) (nonce : Nat)
  | forfeitPurchaseCommit (commitId : Nat)
  | listBondTokens (seller : Address) (bondId : Nat) (amount pricePerToken : Int)
      (quoteAsset : Symbol) (expiresAfterSeconds nonce : Nat)
  | cancelListing (caller : Address) (orderId nonce : Nat)
  | executePurchase (buyer : Address) (orderId : Nat) (maxPrice amount : Int) (nonce : Nat)
  | depositQuote (caller : Address) (quoteAsset : Symbol) (amount : Int) (nonce : Nat)
  | withdrawQuote (caller : Address) (quoteAsset : Symbol) (amount : Int) (nonce : Nat)
  | cleanExpiredOrders (caller : Address) (startId limit nonce : Nat)
  deriving DecidableEq, Repr

/-- What a successful call returns. -/
inductive DexReply where
  | unit
  | number (n : Nat)
  | cleaned (result : CleanExpiredResult)
  deriving DecidableEq, Repr

def MarketConfig.WellTyped (config : MarketConfig) : Prop :=
  InI128 config.minimumOracleVolume ∧ config.maximumTradeDeviationBps ≤ u32Max ∧
    config.maximumBlockDeviationBps ≤ u32Max ∧ config.circuitBreakerDeviationBps ≤ u32Max ∧
    InI128 config.maximumLedgerQuoteVolume ∧ config.maximumOracleAgeSeconds ≤ u64Max ∧
    config.divergenceGraceSeconds ≤ u64Max

instance MarketConfig.decidableWellTyped (config : MarketConfig) : Decidable config.WellTyped :=
  inferInstanceAs (Decidable (_ ∧ _))

/-- The arguments fit the types of the entry point's signature. -/
def DexCall.WellTyped : DexCall → Prop
  | .setAdmin _ _ => True
  | .configureMarket _ bondId _ config nonce =>
      bondId ≤ u64Max ∧ config.WellTyped ∧ nonce ≤ u64Max
  | .updateOracleReference _ bondId _ twapPrice observedAt sampleVolume nonce =>
      bondId ≤ u64Max ∧ InI128 twapPrice ∧ observedAt ≤ u64Max ∧ InI128 sampleVolume ∧
        nonce ≤ u64Max
  | .commitPurchase _ _ _ nonce => nonce ≤ u64Max
  | .revealPurchase _ commitId orderId maxPrice amount _ nonce =>
      commitId ≤ u64Max ∧ orderId ≤ u64Max ∧ InI128 maxPrice ∧ InI128 amount ∧ nonce ≤ u64Max
  | .forfeitPurchaseCommit commitId => commitId ≤ u64Max
  | .listBondTokens _ bondId amount pricePerToken _ expiresAfterSeconds nonce =>
      bondId ≤ u64Max ∧ InI128 amount ∧ InI128 pricePerToken ∧ expiresAfterSeconds ≤ u64Max ∧
        nonce ≤ u64Max
  | .cancelListing _ orderId nonce => orderId ≤ u64Max ∧ nonce ≤ u64Max
  | .executePurchase _ orderId maxPrice amount nonce =>
      orderId ≤ u64Max ∧ InI128 maxPrice ∧ InI128 amount ∧ nonce ≤ u64Max
  | .depositQuote _ _ amount nonce => InI128 amount ∧ nonce ≤ u64Max
  | .withdrawQuote _ _ amount nonce => InI128 amount ∧ nonce ≤ u64Max
  | .cleanExpiredOrders _ startId limit nonce =>
      startId ≤ u64Max ∧ limit ≤ u32Max ∧ nonce ≤ u64Max

instance DexCall.decidableWellTyped : DecidablePred DexCall.WellTyped := fun call =>
  match call with
  | .setAdmin .. => inferInstanceAs (Decidable True)
  | .commitPurchase .. | .forfeitPurchaseCommit .. => inferInstanceAs (Decidable (_ ≤ (_ : Nat)))
  | .configureMarket .. | .updateOracleReference .. | .revealPurchase .. | .listBondTokens ..
  | .cancelListing .. | .executePurchase .. | .depositQuote .. | .withdrawQuote ..
  | .cleanExpiredOrders .. => inferInstanceAs (Decidable (_ ∧ _))

/-- A call that leaves the issuer alone. -/
def DexReply.ofRouter {α : Type} (issuer : BondIssuer) (reply : α → DexReply)
    (x : Outcome DEXError (DEXRouter × α)) :
    Outcome DEXError (DEXRouter × BondIssuer × DexReply) := do
  let (s, a) ← x
  pure (s, issuer, reply a)

/-- A call that returns nothing and leaves the issuer alone. -/
def DexReply.ofUnit (issuer : BondIssuer) (x : Outcome DEXError DEXRouter) :
    Outcome DEXError (DEXRouter × BondIssuer × DexReply) := do
  let s ← x
  pure (s, issuer, .unit)

/-- A purchase. -/
def DexReply.ofPurchase (x : Outcome DEXError (DEXRouter × BondIssuer)) :
    Outcome DEXError (DEXRouter × BondIssuer × DexReply) := do
  let (s, issuer) ← x
  pure (s, issuer, .unit)

namespace DEXRouter

open DexReply (ofRouter ofUnit ofPurchase)

/-- The entry point a call names. -/
def dispatch (env : DexEnv) (clock : Clock) (issuer : BondIssuer) (s : DEXRouter) :
    DexCall → Outcome DEXError (DEXRouter × BondIssuer × DexReply)
  | .setAdmin currentAdmin newAdmin => ofUnit issuer (s.setAdmin env currentAdmin newAdmin)
  | .configureMarket caller bondId quoteAsset config nonce =>
      ofUnit issuer (s.configureMarket env caller bondId quoteAsset config nonce)
  | .updateOracleReference caller bondId quoteAsset twapPrice observedAt sampleVolume nonce =>
      ofUnit issuer (s.updateOracleReference env clock caller bondId quoteAsset twapPrice observedAt
        sampleVolume nonce)
  | .commitPurchase buyer commitment quoteAsset nonce =>
      ofRouter issuer .number (s.commitPurchase env clock buyer commitment quoteAsset nonce)
  | .revealPurchase buyer commitId orderId maxPrice amount salt nonce =>
      ofPurchase (s.revealPurchase env clock issuer buyer commitId orderId maxPrice amount salt nonce)
  | .forfeitPurchaseCommit commitId => ofUnit issuer (s.forfeitPurchaseCommit clock commitId)
  | .listBondTokens seller bondId amount pricePerToken quoteAsset expiresAfterSeconds nonce =>
      ofRouter issuer .number (s.listBondTokens env clock issuer seller bondId amount pricePerToken
        quoteAsset expiresAfterSeconds nonce)
  | .cancelListing caller orderId nonce => ofUnit issuer (s.cancelListing env caller orderId nonce)
  | .executePurchase buyer orderId maxPrice amount nonce =>
      ofPurchase (s.executePurchase env clock issuer buyer orderId maxPrice amount nonce)
  | .depositQuote caller quoteAsset amount nonce =>
      ofUnit issuer (s.depositQuote env caller quoteAsset amount nonce)
  | .withdrawQuote caller quoteAsset amount nonce =>
      ofUnit issuer (s.withdrawQuote env caller quoteAsset amount nonce)
  | .cleanExpiredOrders caller startId limit nonce =>
      ofRouter issuer .cleaned (s.cleanExpiredOrders env clock caller startId limit nonce)

/-- Decode the arguments and run the entry point. -/
def exec (env : DexEnv) (clock : Clock) (issuer : BondIssuer) (s : DEXRouter) (call : DexCall) :
    Outcome DEXError (DEXRouter × BondIssuer × DexReply) := do
  hostRequire call.WellTyped
  s.dispatch env clock issuer call

end DEXRouter

/-! ## Runs -/

/-- The router, the issuer it settles in, and the ledger they live in. -/
structure DexWorld where
  base : IssuerWorld
  dex : DEXRouter

inductive DexInput where
  /-- Anything that happens to the issuer or the ledger without the router. -/
  | issuer (input : IssuerInput)
  /-- Anyone calls an entry point of the router. -/
  | dex (env : DexEnv) (call : DexCall)

/-- One input. A failed call answers `none` and changes nothing. -/
def DexWorld.step (w : DexWorld) : DexInput → DexWorld × Option DexReply
  | .issuer input => ({ w with base := (w.base.step input).1 }, none)
  | .dex env call =>
      match w.dex.exec env w.base.clock w.base.issuer call with
      | .ok (dex, issuer, reply) => (⟨{ w.base with issuer := issuer }, dex⟩, some reply)
      | .error _ => (w, none)

/-- The router as a machine. -/
def dexMachine : Machine DexWorld DexInput (Option DexReply) := ⟨DexWorld.step⟩

abbrev DexEvent := Event DexWorld DexInput (Option DexReply)

section Runs

variable (base : IssuerWorld) (admin : Address)

/-- The router just deployed, over an issuer in any state. -/
def DexWorld.deploy : DexWorld := ⟨base, DEXRouter.deploy admin base.issuer.self⟩

/-- The world after the inputs `l`, from deployment. -/
def dexRun (l : List DexInput) : DexWorld := dexMachine.run (DexWorld.deploy base admin) l

/-- The events of the inputs `l`, from deployment, oldest first. -/
def dexHistory (l : List DexInput) : List DexEvent :=
  dexMachine.history (DexWorld.deploy base admin) l

theorem dexRun_snoc (l : List DexInput) (i : DexInput) :
    dexRun base admin (l ++ [i]) = ((dexRun base admin l).step i).1 :=
  dexMachine.run_snoc _ l i

/-- An event of a run is the step after a shorter run. -/
theorem exists_of_mem_dexHistory {l : List DexInput} {e : DexEvent}
    (h : e ∈ dexHistory base admin l) :
    ∃ l₁ i l₂, l = l₁ ++ i :: l₂ ∧ e = dexMachine.event (dexRun base admin l₁) i :=
  dexMachine.exists_of_mem_history h

/-- The history rule, for runs of the router. -/
theorem dexHistory_induct {P : List DexEvent → DexWorld → Prop}
    (h0 : P [] (DexWorld.deploy base admin))
    (hstep : ∀ l i, P (dexHistory base admin l) (dexRun base admin l) →
      P (dexHistory base admin l ++ [dexMachine.event (dexRun base admin l) i])
        (dexMachine.event (dexRun base admin l) i).post)
    (l : List DexInput) : P (dexHistory base admin l) (dexRun base admin l) :=
  dexMachine.history_induct h0 hstep l

end Runs

end VerdantBond
