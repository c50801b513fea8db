import VerdantBond.Shared

set_option autoImplicit false

/-! # DEXRouter: storage

The storage of `contracts/dex-router`. Orders and purchase commits are numbered from one; quote
balances, penalty reserves and markets are kept by quote asset. A key that is only read with
`unwrap_or(d)` is a total field with the value `d` where nothing was stored.
-/

namespace VerdantBond

open Function

/-! ## Records -/

inductive OrderStatus where
  | «open»
  | partiallyFilled
  | filled
  | cancelled
  | expired
  deriving DecidableEq, Repr

/-- `Open` or `PartiallyFilled`. -/
def OrderStatus.Live (status : OrderStatus) : Prop :=
  status = .open ∨ status = .partiallyFilled

instance (status : OrderStatus) : Decidable status.Live := inferInstanceAs (Decidable (_ ∨ _))

structure Order where
  id : Nat
  seller : Address
  bondId : Nat
  amount : Int
  pricePerToken : Int
  quoteAsset : Symbol
  status : OrderStatus
  createdAt : Nat
  expiresAt : Nat
  deriving DecidableEq, Repr

/-- `is_order_expired`. -/
def Order.IsExpired (clock : Clock) (order : Order) : Prop := order.expiresAt ≤ clock.timestamp

instance (clock : Clock) (order : Order) : Decidable (order.IsExpired clock) :=
  inferInstanceAs (Decidable (_ ≤ _))

structure MarketConfig where
  minimumOracleVolume : Int
  maximumTradeDeviationBps : Nat
  maximumBlockDeviationBps : Nat
  circuitBreakerDeviationBps : Nat
  maximumLedgerQuoteVolume : Int
  maximumOracleAgeSeconds : Nat
  divergenceGraceSeconds : Nat
  deriving DecidableEq, Repr

structure OracleReference where
  twapPrice : Int
  observedAt : Nat
  sampleVolume : Int
  pauseUntil : Nat
  deriving DecidableEq, Repr

structure MarketLedger where
  sequence : Nat
  firstPrice : Int
  quoteVolume : Int
  deriving DecidableEq, Repr

structure PurchaseCommit where
  buyer : Address
  commitment : Bytes32
  quoteAsset : Symbol
  ledgerSequence : Nat
  revealed : Bool
  deriving DecidableEq, Repr

structure PriceObservation where
  timestamp : Nat
  price : Int
  deriving DecidableEq, Repr

structure CleanExpiredResult where
  cleaned : Nat
  nextStartId : Nat
  deriving DecidableEq, Repr

/-! ## Constants -/

def basisPoints : Int := 10000
def purchaseCommitBond : Int := 1000
def purchaseRevealDelay : Nat := 1
def purchaseRevealWindow : Nat := 20
def maxCleanBatch : Nat := 100
def maxPriceObs : Nat := 32

/-! ## The contract -/

structure DEXRouter where
  admin : Option Address
  bondIssuerAddress : Option Address
  order : Nat → Option Order
  orderCount : Nat
  sellerOrders : Address → List Nat
  bondOrders : Nat → List Nat
  balance : Symbol → Address → Int
  bondEscrow : Nat → Address → Int
  nonce : Address → Nat
  priceObs : Nat → Symbol → List PriceObservation
  marketConfig : Nat → Symbol → Option MarketConfig
  oracleReference : Nat → Symbol → Option OracleReference
  marketLedger : Nat → Symbol → Option MarketLedger
  purchaseCommitCount : Nat
  purchaseCommit : Nat → Option PurchaseCommit
  penaltyBalance : Symbol → Int

/-- The host of a DEX call, with the digest of a sealed purchase. -/
structure DexEnv extends Env where
  /-- `commitment_hash`: SHA-256 of the XDR of `(buyer, order, price, amount, salt)`. -/
  commitmentHash : Address → Nat → Int → Int → Bytes32 → Bytes32

namespace DEXRouter

/-- `__constructor`. -/
def deploy (admin bondIssuerAddress : Address) : DEXRouter where
  admin := some admin
  bondIssuerAddress := some bondIssuerAddress
  order := fun _ => none
  orderCount := 0
  sellerOrders := fun _ => []
  bondOrders := fun _ => []
  balance := fun _ _ => 0
  bondEscrow := fun _ _ => 0
  nonce := fun _ => 0
  priceObs := fun _ _ => []
  marketConfig := fun _ _ => none
  oracleReference := fun _ _ => none
  marketLedger := fun _ _ => none
  purchaseCommitCount := 0
  purchaseCommit := fun _ => none
  penaltyBalance := fun _ => 0

variable (s : DEXRouter)

/-- `set_balance`. -/
def setBalance (addr : Address) (asset : Symbol) (amount : Int) : DEXRouter :=
  { s with balance := update s.balance asset (update (s.balance asset) addr amount) }

/-- `set_bond_escrow`. -/
def setBondEscrow (bondId : Nat) (addr : Address) (amount : Int) : DEXRouter :=
  { s with bondEscrow := update s.bondEscrow bondId (update (s.bondEscrow bondId) addr amount) }

/-- `set_nonce`. -/
def setNonce (addr : Address) (nonce : Nat) : DEXRouter :=
  { s with nonce := update s.nonce addr nonce }

/-- Write an order. -/
def setOrder (orderId : Nat) (order : Order) : DEXRouter :=
  { s with order := update s.order orderId (some order) }

/-- Write a purchase commit. -/
def setPurchaseCommit (commitId : Nat) (commit : PurchaseCommit) : DEXRouter :=
  { s with purchaseCommit := update s.purchaseCommit commitId (some commit) }

/-- `require_admin`. -/
def requireAdmin (caller : Address) : Outcome DEXError Unit := do
  let admin ← okOr s.admin .notInitialized
  reject (caller ≠ admin) .unauthorized

/-- The nonce check of most entry points. The increment is not checked: the host aborts on
overflow. -/
def consumeNonce (addr : Address) (nonce : Nat) : Outcome DEXError DEXRouter := do
  reject (nonce ≠ s.nonce addr) .invalidNonce
  let next ← orTrap (u64 (s.nonce addr + 1))
  pure (s.setNonce addr next)

/-- The nonce check of the market entry points, with a checked increment. -/
def consumeNonceChecked (addr : Address) (nonce : Nat) : Outcome DEXError DEXRouter := do
  reject (nonce ≠ s.nonce addr) .invalidNonce
  let next ← okOr (u64 (s.nonce addr + 1)) .overflow
  pure (s.setNonce addr next)

variable {s s' : DEXRouter} {addr : Address} {nonce : Nat}

theorem consumeNonce_ok (h : s.consumeNonce addr nonce = .ok s') :
    nonce = s.nonce addr ∧ s' = s.setNonce addr (s.nonce addr + 1) := by
  simp only [consumeNonce, bind_ok_iff, reject_ok_iff, orTrap_ok_iff, u64_eq_some, pure_ok_iff,
    exists_unit_iff, not_not] at h
  obtain ⟨hnonce, _, ⟨-, rfl⟩, rfl⟩ := h
  exact ⟨hnonce, rfl⟩

theorem consumeNonceChecked_ok (h : s.consumeNonceChecked addr nonce = .ok s') :
    nonce = s.nonce addr ∧ s' = s.setNonce addr (s.nonce addr + 1) := by
  simp only [consumeNonceChecked, bind_ok_iff, reject_ok_iff, okOr_ok_iff, u64_eq_some,
    pure_ok_iff, exists_unit_iff, not_not] at h
  obtain ⟨hnonce, _, ⟨-, rfl⟩, rfl⟩ := h
  exact ⟨hnonce, rfl⟩

end DEXRouter

end VerdantBond
