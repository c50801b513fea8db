import VerdantBond.Issuer.RedemptionQueue
import VerdantBond.Issuer.SubscriptionAuction
import VerdantBond.Lib.Machine

set_option autoImplicit false

/-! # BondIssuer: entry points and runs

The state-changing entry points of the contract, and the machine they form with the passing of
ledgers and the token transfers of others. A call that fails, by an error of its own or by an
abort of the host, leaves the state as it was: the host discards its writes.
-/

namespace VerdantBond

open Function

/-- `methodology_compatible`. -/
def methodologyCompatible (methodology : Symbol) (creditType : CreditType) : Bool :=
  let isBlue := ["blue_carbon", "BLUE_CARBON", "BLUE"].contains methodology
  let isBiodiv := ["biodiversity", "BIODIVERSITY", "biodiv"].contains methodology
  match creditType with
  | .carbon => !isBlue && !isBiodiv
  | .blueCarbon => isBlue
  | .biodiversity => isBiodiv
  | .basket => true

/-- Two closed serial ranges share a number. -/
def SerialRange.Overlaps (r r' : SerialRange) : Prop := max r.start r'.start ≤ min r.end r'.end

instance (r r' : SerialRange) : Decidable (r.Overlaps r') :=
  inferInstanceAs (Decidable (_ ≤ _))

/-- The serial numbers a bond claims. -/
def BondConfig.serialRange (config : BondConfig) : SerialRange :=
  ⟨config.serialNumberStart, config.serialNumberEnd⟩

namespace Bond

/-! ## The record of one bond -/

/-- The record `issue_bond` writes for a new bond. -/
def issued (clock : Clock) (b : Bond) (config : BondConfig) : Bond :=
  { b with
    config := some config
    state := some { totalSubscribed := 0, status := .active, createdAt := clock.timestamp }
    balanceVersion := 0
    supplyLog := ⟨1, update b.supplyLog.entry 0 (some ⟨0, 0⟩)⟩ }

/-- The record `issue_auction` makes of a new bond: nobody can subscribe to it directly. -/
def withAuction (b : Bond) (auction : AuctionConfig) : Bond :=
  { b with
    subscriptionAuctionRequired := true
    subscriptionAuction :=
      some { config := auction, wallets := [], orders := [], settled := false } }

/-- The record `mature_bond` leaves. -/
def mature (clock : Clock) (b : Bond) : Outcome BondError Bond := do
  let config ← okOr b.config .bondNotFound
  let state ← okOr b.state .bondNotFound
  reject (state.status ≠ .active) .bondAlreadyMatured
  reject (clock.timestamp < config.maturityDate) .overflow
  pure { b with state := some { state with status := .matured } }

/-- The record `fund_redemption` leaves. -/
def fund (b : Bond) (amount : Int) : Outcome BondError Bond := do
  reject (amount ≤ 0) .zeroAmount
  let _ ← okOr b.config .bondNotFound
  let next ← okOr (i128 (b.redemptionPool + amount)) .overflow
  pure { b with redemptionPool := next }

/-- The record `configure_redemption_budget` leaves: only while nothing was ever queued. -/
def configureBudget (b : Bond) (principalPerCycle : Int) (ledgersPerCycle : Nat) :
    Outcome BondError Bond := do
  let config ← okOr b.config .bondNotFound
  reject (principalPerCycle < config.faceValue ∨ ledgersPerCycle = 0) .invalidRedemptionBudget
  reject (b.redemptionTail ≠ 0) .invalidRedemptionBudget
  pure { b with redemptionBudget := some ⟨principalPerCycle, ledgersPerCycle⟩ }

/-- The checks `redeem` makes before it queues: the queue is idle and both the pool and the
cycle's allowance cover the whole payout. -/
def redeemable (clock : Clock) (b : Bond) (holder : Address) (amount : Int) :
    Outcome BondError Unit := do
  let config ← okOr b.config .bondNotFound
  let state ← okOr b.state .bondNotFound
  reject (state.status ≠ .matured) .bondAlreadyMatured
  reject (amount ≤ 0) .zeroAmount
  reject (b.holderBalance holder < amount) .insufficientSupply
  reject (b.redemptionHead ≠ 0 ∧ b.redemptionHead ≤ b.redemptionTail) .redemptionQueueRequired
  let payout ← okOr (i128 (amount * config.faceValue)) .overflow
  reject (b.redemptionPool < payout) .redemptionUnderfunded
  let usage ← b.cycle clock b.budget
  let room ← orTrap (i128 (b.budget.principalPerCycle - usage.paid))
  reject (room < payout) .redemptionQueueRequired

end Bond

namespace BondIssuer

/-! ## Administration -/

variable (env : Env) (clock : Clock) (s : BondIssuer)

def setAdmin (currentAdmin newAdmin : Address) (nonce : Nat) : Outcome BondError BondIssuer := do
  requireAuth env currentAdmin
  let s₁ ← s.consumeNonce currentAdmin nonce
  s₁.requireAdmin currentAdmin
  pure { s₁ with admin := some newAdmin }

/-- `propose_admin`. The expiry is `sequence.saturating_add(ttl_ledgers)` in `u32`. -/
def proposeAdmin (currentAdmin proposed : Address) (nonce ttlLedgers : Nat) :
    Outcome BondError BondIssuer := do
  requireAuth env currentAdmin
  let s₁ ← s.consumeNonce currentAdmin nonce
  s₁.requireAdmin currentAdmin
  reject (∃ expiry ∈ s.pendingAdminExpiry, clock.sequence ≤ expiry) .adminTransferPending
  pure { s₁ with pendingAdmin := some proposed
                 pendingAdminExpiry := some (min (clock.sequence + ttlLedgers) u32Max) }

def acceptAdmin (proposed : Address) (nonce : Nat) : Outcome BondError BondIssuer := do
  requireAuth env proposed
  let s₁ ← s.consumeNonce proposed nonce
  let pending ← okOr s.pendingAdmin .noAdminTransferPending
  let expiry ← okOr s.pendingAdminExpiry .noAdminTransferPending
  reject (proposed ≠ pending) .unauthorized
  reject (expiry < clock.sequence) .adminTransferExpired
  let _ ← okOr s.admin .notInitialized
  pure { s₁ with admin := some proposed, pendingAdmin := none, pendingAdminExpiry := none }

def cancelAdminProposal (currentAdmin : Address) (nonce : Nat) : Outcome BondError BondIssuer := do
  requireAuth env currentAdmin
  let s₁ ← s.consumeNonce currentAdmin nonce
  s₁.requireAdmin currentAdmin
  pure { s₁ with pendingAdmin := none, pendingAdminExpiry := none }

def setProjectRegistry (caller registry : Address) (nonce : Nat) :
    Outcome BondError BondIssuer := do
  requireAuth env caller
  let s₁ ← s.consumeNonce caller nonce
  s₁.requireAdmin caller
  pure { s₁ with projectRegistry := some registry }

def setTransferBlocked (caller holder : Address) (blocked : Bool) (nonce : Nat) :
    Outcome BondError BondIssuer := do
  requireAuth env caller
  s.requireAdmin caller
  let s₁ ← s.consumeNonce caller nonce
  pure { s₁ with transferBlocked := update s.transferBlocked holder blocked }

/-! ## Issuance -/

/-- The registry checks of `issue_bond`; without a configured registry there are none. -/
def checkProject (config : BondConfig) : Outcome BondError Unit :=
  match s.projectRegistry with
  | none => .ok ()
  | some registry => do
      let approved ← orTrap (env.hasApprovedProject registry config.projectId)
      reject (approved = false) .projectNotApproved
      let methodology ← orTrap (env.getProjectMethodology registry config.projectId)
      reject (methodologyCompatible methodology config.creditType = false)
        .incompatibleMethodologyCreditType

/-- `issue_bond`, with the new bond's id. -/
def issueBond (caller : Address) (config : BondConfig) (nonce : Nat) :
    Outcome BondError (BondIssuer × Nat) := do
  requireAuth env caller
  let s₁ ← s.consumeNonce caller nonce
  s₁.requireAdmin caller
  reject (config.faceValue ≤ 0) .zeroAmount
  reject (config.totalSupply ≤ 0 ∨ maxSupply < config.totalSupply) .invalidSupply
  reject (config.maturityDate ≤ clock.timestamp) .overflow
  reject (config.couponSchedule = []) .zeroAmount
  reject (∃ couponDate ∈ config.couponSchedule, config.maturityDate ≤ couponDate) .zeroAmount
  s₁.checkProject env config
  let range : SerialRange := ⟨config.serialNumberStart, config.serialNumberEnd⟩
  let ranges := s.committedRanges config.projectId config.creditVintage
  reject (range.end < range.start) .invalidSupply
  reject (∃ r ∈ ranges, range.Overlaps r) .invalidSupply
  let bondId ← orTrap (u64 (s.bondCount + 1))
  pure ({ s₁ with
    committedRanges := update s.committedRanges config.projectId
      (update (s.committedRanges config.projectId) config.creditVintage (ranges ++ [range]))
    bondCount := bondId
    bond := update s.bond bondId ((s.bond bondId).issued clock config) }, bondId)

/-- `issue_auction`. -/
def issueAuction (caller : Address) (config : BondConfig) (auction : AuctionConfig) (nonce : Nat) :
    Outcome BondError (BondIssuer × Nat) := do
  reject (auction.openLedger ≤ clock.sequence ∨ auction.cutoffLedger ≤ auction.openLedger ∨
    auction.identityCap ≤ 0 ∨ maxSupply < auction.identityCap ∨ auction.treasury = s.self ∨
    i128 (config.totalSupply * config.faceValue) = none) .invalidAuction
  let (s₁, bondId) ← s.issueBond env clock caller config nonce
  pure (s₁.setBond bondId ((s₁.bond bondId).withAuction auction), bondId)

/-! ## Subscriptions, transfers and the auction -/

/-- `subscribe`. The investor's authorization is not required. -/
def subscribe (clock : Clock) (s : BondIssuer) (investor : Address) (bondId : Nat) (amount : Int)
    (nonce : Nat) : Outcome BondError BondIssuer := do
  reject ((s.bond bondId).subscriptionAuctionRequired = true) .auctionRequired
  let s₁ ← s.consumeNonce investor nonce
  let b ← (s.bond bondId).subscribe clock investor amount
  pure (s₁.setBond bondId b)

def transfer (env : Env) (clock : Clock) (s : BondIssuer) (source target : Address) (bondId : Nat)
    (amount : Int) (nonce : Nat) : Outcome BondError BondIssuer := do
  requireAuth env source
  let s₁ ← s.consumeNonce source nonce
  let b ← (s.bond bondId).transfer s.transferBlocked clock source target amount
  pure (s₁.setBond bondId b)

def grantSubscription (env : Env) (clock : Clock) (s : BondIssuer) (caller : Address) (bondId : Nat)
    (wallet : Address) (identity : Bytes32) (nonce : Nat) : Outcome BondError BondIssuer := do
  requireAuth env caller
  s.requireAdmin caller
  let s₁ ← s.consumeNonce caller nonce
  let b ← (s.bond bondId).grantSubscription clock s.self wallet identity
  pure (s₁.setBond bondId b)

def commitSubscription (env : Env) (clock : Clock) (s : BondIssuer) (investor : Address)
    (bondId : Nat) (amount : Int) (nonce : Nat) : Outcome BondError BondIssuer := do
  requireAuth env investor
  let s₁ ← s.consumeNonce investor nonce
  let (b, tokens) ← (s.bond bondId).commitSubscription env clock s.self s.tokenBalance investor amount
  pure { s₁.setBond bondId b with tokenBalance := tokens }

def settleSubscription (env : Env) (clock : Clock) (s : BondIssuer) (bondId : Nat) :
    Outcome BondError (BondIssuer × AuctionState) := do
  let (b, tokens, auction) ← (s.bond bondId).settleSubscription env clock s.self s.tokenBalance
  pure ({ s.setBond bondId b with tokenBalance := tokens }, auction)

/-! ## Maturity and redemption -/

def matureBond (caller : Address) (bondId : Nat) (nonce : Nat) : Outcome BondError BondIssuer := do
  requireAuth env caller
  let s₁ ← s.consumeNonce caller nonce
  s₁.requireAdmin caller
  let b ← (s.bond bondId).mature clock
  pure (s₁.setBond bondId b)

def fundRedemption (caller : Address) (bondId : Nat) (amount : Int) (nonce : Nat) :
    Outcome BondError BondIssuer := do
  requireAuth env caller
  let s₁ ← s.consumeNonce caller nonce
  s₁.requireAdmin caller
  let b ← (s.bond bondId).fund amount
  pure (s₁.setBond bondId b)

def configureRedemptionBudget (caller : Address) (bondId : Nat) (principalPerCycle : Int)
    (ledgersPerCycle nonce : Nat) : Outcome BondError BondIssuer := do
  requireAuth env caller
  s.requireAdmin caller
  let b ← (s.bond bondId).configureBudget principalPerCycle ledgersPerCycle
  let s₁ ← s.consumeNonce caller nonce
  pure (s₁.setBond bondId b)

/-- `request_redemption`, with the queue id. -/
def requestRedemption (holder : Address) (bondId : Nat) (amount : Int) (requestKey : Bytes32)
    (nonce : Nat) : Outcome BondError (BondIssuer × Nat) := do
  requireAuth env holder
  s.enqueue clock holder bondId amount requestKey nonce

/-- `process_redemptions`, with the number of completed requests. -/
def processRedemptions (bondId limit : Nat) : Outcome BondError (BondIssuer × Nat) := do
  let (b, completed) ← (s.bond bondId).process clock limit
  pure (s.setBond bondId b, completed)

/-- `redeem`: queue the request under the hash of the nonce and process it at once. -/
def redeem (holder : Address) (bondId : Nat) (amount : Int) (nonce : Nat) :
    Outcome BondError BondIssuer := do
  requireAuth env holder
  reject (nonce ≠ s.nonce holder) .invalidNonce
  (s.bond bondId).redeemable clock holder amount
  let (s₁, id) ← s.enqueue clock holder bondId amount (env.sha256 nonce) nonce
  reject (id ≤ (s.bond bondId).redemptionTail) .duplicateRedemptionRequest
  let (s₂, completed) ← s₁.processRedemptions clock bondId 1
  reject (completed ≠ 1) .redemptionQueueRequired
  pure s₂

/-! ## Historical reads and the reads of other contracts -/

def getBond (bondId : Nat) : Outcome BondError BondConfig :=
  okOr (s.bond bondId).config .bondNotFound

def getHolderBalance (bondId : Nat) (holder : Address) : Int :=
  (s.bond bondId).holderBalance holder

def getNonce (address : Address) : Nat := s.nonce address

/-- `check_transfer`: the checks of `transfer`, without the nonce. -/
def checkTransfer (source target : Address) (bondId : Nat) (amount : Int) :
    Outcome BondError Unit :=
  (s.bond bondId).validateTransfer s.transferBlocked clock source target amount

def getRedemptionPool (bondId : Nat) : Int := (s.bond bondId).redemptionPool

def getBalanceVersion (bondId : Nat) : Outcome BondError Nat := do
  reject ((s.bond bondId).state.isSome = false) .bondNotFound
  pure (s.bond bondId).balanceVersion

def getHolderBalanceAtVersion (bondId : Nat) (holder : Address) (version : Nat) :
    Outcome BondError Int := do
  let current ← s.getBalanceVersion bondId
  reject (current < version) .invalidBalanceSnapshot
  (s.bond bondId).holderBalanceAtVersion holder version

def totalSubscribedAtVersion (s : BondIssuer) (bondId : Nat) (version : Nat) :
    Outcome BondError Int := do
  let current ← s.getBalanceVersion bondId
  reject (current < version) .invalidBalanceSnapshot
  (s.bond bondId).totalSubscribedAtVersion version

end BondIssuer

/-! ## Calls -/

inductive IssuerCall where
  | setAdmin (currentAdmin newAdmin : Address) (nonce : Nat)
  | proposeAdmin (currentAdmin proposed : Address) (nonce ttlLedgers : Nat)
  | acceptAdmin (proposed : Address) (nonce : Nat)
  | cancelAdminProposal (currentAdmin : Address) (nonce : Nat)
  | setProjectRegistry (caller registry : Address) (nonce : Nat)
  | setTransferBlocked (caller holder : Address) (blocked : Bool) (nonce : Nat)
  | issueBond (caller : Address) (config : BondConfig) (nonce : Nat)
  | issueAuction (caller : Address) (config : BondConfig) (auction : AuctionConfig) (nonce : Nat)
  | subscribe (investor : Address) (bondId : Nat) (amount : Int) (nonce : Nat)
  | transfer (source target : Address) (bondId : Nat) (amount : Int) (nonce : Nat)
  | grantSubscription (caller : Address) (bondId : Nat) (wallet : Address) (identity : Bytes32)
      (nonce : Nat)
  | commitSubscription (investor : Address) (bondId : Nat) (amount : Int) (nonce : Nat)
  | settleSubscription (bondId : Nat)
  | matureBond (caller : Address) (bondId : Nat) (nonce : Nat)
  | fundRedemption (caller : Address) (bondId : Nat) (amount : Int) (nonce : Nat)
  | configureRedemptionBudget (caller : Address) (bondId : Nat) (principalPerCycle : Int)
      (ledgersPerCycle nonce : Nat)
  | requestRedemption (holder : Address) (bondId : Nat) (amount : Int) (requestKey : Bytes32)
      (nonce : Nat)
  | processRedemptions (bondId limit : Nat)
  | redeem (holder : Address) (bondId : Nat) (amount : Int) (nonce : Nat)
  deriving DecidableEq, Repr

/-- What a successful call returns. -/
inductive IssuerReply where
  | unit
  | number (n : Nat)
  | auction (state : AuctionState)
  deriving DecidableEq, Repr

/-- The fields fit their types. -/
def BondConfig.WellTyped (config : BondConfig) : Prop :=
  InI128 config.faceValue ∧ InI128 config.totalSupply ∧ InI128 config.serialNumberStart ∧
    InI128 config.serialNumberEnd ∧ config.maturityDate ≤ u64Max ∧
    config.creditVintage ≤ u64Max ∧ ∀ couponDate ∈ config.couponSchedule, couponDate ≤ u64Max

instance (config : BondConfig) : Decidable config.WellTyped :=
  inferInstanceAs (Decidable (_ ∧ _))

/-- The arguments fit the types of the entry point's signature. The host refuses to decode any
others. -/
def IssuerCall.WellTyped : IssuerCall → Prop
  | .setAdmin _ _ nonce => nonce ≤ u64Max
  | .proposeAdmin _ _ nonce ttlLedgers => nonce ≤ u64Max ∧ ttlLedgers ≤ u32Max
  | .acceptAdmin _ nonce => nonce ≤ u64Max
  | .cancelAdminProposal _ nonce => nonce ≤ u64Max
  | .setProjectRegistry _ _ nonce => nonce ≤ u64Max
  | .setTransferBlocked _ _ _ nonce => nonce ≤ u64Max
  | .issueBond _ config nonce => config.WellTyped ∧ nonce ≤ u64Max
  | .issueAuction _ config auction nonce =>
      config.WellTyped ∧ InI128 auction.identityCap ∧ auction.openLedger ≤ u32Max ∧
        auction.cutoffLedger ≤ u32Max ∧ nonce ≤ u64Max
  | .subscribe _ bondId amount nonce => bondId ≤ u64Max ∧ InI128 amount ∧ nonce ≤ u64Max
  | .transfer _ _ bondId amount nonce => bondId ≤ u64Max ∧ InI128 amount ∧ nonce ≤ u64Max
  | .grantSubscription _ bondId _ _ nonce => bondId ≤ u64Max ∧ nonce ≤ u64Max
  | .commitSubscription _ bondId amount nonce => bondId ≤ u64Max ∧ InI128 amount ∧ nonce ≤ u64Max
  | .settleSubscription bondId => bondId ≤ u64Max
  | .matureBond _ bondId nonce => bondId ≤ u64Max ∧ nonce ≤ u64Max
  | .fundRedemption _ bondId amount nonce => bondId ≤ u64Max ∧ InI128 amount ∧ nonce ≤ u64Max
  | .configureRedemptionBudget _ bondId principalPerCycle ledgersPerCycle nonce =>
      bondId ≤ u64Max ∧ InI128 principalPerCycle ∧ ledgersPerCycle ≤ u32Max ∧ nonce ≤ u64Max
  | .requestRedemption _ bondId amount _ nonce => bondId ≤ u64Max ∧ InI128 amount ∧ nonce ≤ u64Max
  | .processRedemptions bondId limit => bondId ≤ u64Max ∧ limit ≤ u32Max
  | .redeem _ bondId amount nonce => bondId ≤ u64Max ∧ InI128 amount ∧ nonce ≤ u64Max

instance IssuerCall.decidableWellTyped : DecidablePred IssuerCall.WellTyped := fun call =>
  match call with
  | .setAdmin .. | .acceptAdmin .. | .cancelAdminProposal .. | .setProjectRegistry ..
  | .setTransferBlocked .. | .settleSubscription .. => inferInstanceAs (Decidable (_ ≤ (_ : Nat)))
  | .proposeAdmin .. | .issueBond .. | .issueAuction .. | .subscribe .. | .transfer ..
  | .grantSubscription .. | .commitSubscription .. | .matureBond .. | .fundRedemption ..
  | .configureRedemptionBudget .. | .requestRedemption .. | .processRedemptions .. | .redeem .. =>
      inferInstanceAs (Decidable (_ ∧ _))

/-- A call that returns nothing. -/
def IssuerReply.ofUnit (x : Outcome BondError BondIssuer) :
    Outcome BondError (BondIssuer × IssuerReply) := do
  let s ← x
  pure (s, .unit)

/-- A call that returns an id or a count. -/
def IssuerReply.ofNumber (x : Outcome BondError (BondIssuer × Nat)) :
    Outcome BondError (BondIssuer × IssuerReply) := do
  let (s, n) ← x
  pure (s, .number n)

/-- A call that returns an auction. -/
def IssuerReply.ofAuction (x : Outcome BondError (BondIssuer × AuctionState)) :
    Outcome BondError (BondIssuer × IssuerReply) := do
  let (s, a) ← x
  pure (s, .auction a)

namespace BondIssuer

open IssuerReply (ofUnit ofNumber ofAuction)

/-- The entry point a call names. -/
def dispatch (env : Env) (clock : Clock) (s : BondIssuer) :
    IssuerCall → Outcome BondError (BondIssuer × IssuerReply)
  | .setAdmin currentAdmin newAdmin nonce => ofUnit (s.setAdmin env currentAdmin newAdmin nonce)
  | .proposeAdmin currentAdmin proposed nonce ttlLedgers =>
      ofUnit (s.proposeAdmin env clock currentAdmin proposed nonce ttlLedgers)
  | .acceptAdmin proposed nonce => ofUnit (s.acceptAdmin env clock proposed nonce)
  | .cancelAdminProposal currentAdmin nonce => ofUnit (s.cancelAdminProposal env currentAdmin nonce)
  | .setProjectRegistry caller registry nonce =>
      ofUnit (s.setProjectRegistry env caller registry nonce)
  | .setTransferBlocked caller holder blocked nonce =>
      ofUnit (s.setTransferBlocked env caller holder blocked nonce)
  | .issueBond caller config nonce => ofNumber (s.issueBond env clock caller config nonce)
  | .issueAuction caller config auction nonce =>
      ofNumber (s.issueAuction env clock caller config auction nonce)
  | .subscribe investor bondId amount nonce =>
      ofUnit (s.subscribe clock investor bondId amount nonce)
  | .transfer source target bondId amount nonce =>
      ofUnit (s.transfer env clock source target bondId amount nonce)
  | .grantSubscription caller bondId wallet identity nonce =>
      ofUnit (s.grantSubscription env clock caller bondId wallet identity nonce)
  | .commitSubscription investor bondId amount nonce =>
      ofUnit (s.commitSubscription env clock investor bondId amount nonce)
  | .settleSubscription bondId => ofAuction (s.settleSubscription env clock bondId)
  | .matureBond caller bondId nonce => ofUnit (s.matureBond env clock caller bondId nonce)
  | .fundRedemption caller bondId amount nonce =>
      ofUnit (s.fundRedemption env caller bondId amount nonce)
  | .configureRedemptionBudget caller bondId principalPerCycle ledgersPerCycle nonce =>
      ofUnit (s.configureRedemptionBudget env caller bondId principalPerCycle ledgersPerCycle nonce)
  | .requestRedemption holder bondId amount requestKey nonce =>
      ofNumber (s.requestRedemption env clock holder bondId amount requestKey nonce)
  | .processRedemptions bondId limit => ofNumber (s.processRedemptions clock bondId limit)
  | .redeem holder bondId amount nonce => ofUnit (s.redeem env clock holder bondId amount nonce)

end BondIssuer

variable {s : BondIssuer} {reply : IssuerReply}

@[simp] theorem IssuerReply.ofUnit_ok_iff {x : Outcome BondError BondIssuer} :
    ofUnit x = .ok (s, reply) ↔ x = .ok s ∧ .unit = reply := by
  simp [ofUnit, bind_ok_iff]

@[simp] theorem IssuerReply.ofNumber_ok_iff {x : Outcome BondError (BondIssuer × Nat)} :
    ofNumber x = .ok (s, reply) ↔ ∃ n, x = .ok (s, n) ∧ .number n = reply := by
  simp [ofNumber, bind_ok_iff]

@[simp] theorem IssuerReply.ofAuction_ok_iff {x : Outcome BondError (BondIssuer × AuctionState)} :
    ofAuction x = .ok (s, reply) ↔ ∃ a, x = .ok (s, a) ∧ .auction a = reply := by
  simp [ofAuction, bind_ok_iff]

namespace BondIssuer

/-- Decode the arguments and run the entry point. -/
def exec (env : Env) (clock : Clock) (s : BondIssuer) (call : IssuerCall) :
    Outcome BondError (BondIssuer × IssuerReply) := do
  hostRequire call.WellTyped
  s.dispatch env clock call

end BondIssuer

/-! ## What a successful call did -/

namespace Bond

variable {b b' : Bond}

theorem mature_ok {clock : Clock} (h : b.mature clock = .ok b') :
    ∃ config state, b.config = some config ∧ b.state = some state ∧ state.status = .active ∧
      config.maturityDate ≤ clock.timestamp ∧
      b' = { b with state := some { state with status := .matured } } := by
  simp only [mature, bind_ok_iff, okOr_ok_iff, reject_ok_iff, pure_ok_iff, exists_unit_iff,
    not_not, not_lt] at h
  obtain ⟨config, hc, state, hs, hact, hmat, rfl⟩ := h
  exact ⟨config, state, hc, hs, hact, hmat, rfl⟩

theorem fund_ok {amount : Int} (h : b.fund amount = .ok b') :
    ∃ config, b.config = some config ∧ 0 < amount ∧ InI128 (b.redemptionPool + amount) ∧
      b' = { b with redemptionPool := b.redemptionPool + amount } := by
  simp only [fund, bind_ok_iff, okOr_ok_iff, reject_ok_iff, pure_ok_iff, exists_unit_iff,
    i128_eq_some, not_le] at h
  obtain ⟨hpos, config, hc, _, ⟨hin, rfl⟩, rfl⟩ := h
  exact ⟨config, hc, hpos, hin, rfl⟩

theorem configureBudget_ok {principalPerCycle : Int} {ledgersPerCycle : Nat}
    (h : b.configureBudget principalPerCycle ledgersPerCycle = .ok b') :
    ∃ config, b.config = some config ∧ config.faceValue ≤ principalPerCycle ∧
      ledgersPerCycle ≠ 0 ∧ b.redemptionTail = 0 ∧
      b' = { b with redemptionBudget := some ⟨principalPerCycle, ledgersPerCycle⟩ } := by
  simp only [configureBudget, bind_ok_iff, okOr_ok_iff, reject_ok_iff, pure_ok_iff,
    exists_unit_iff, not_or, not_lt, not_not] at h
  obtain ⟨config, hc, ⟨hface, hl⟩, htail, rfl⟩ := h
  exact ⟨config, hc, hface, hl, htail, rfl⟩

end Bond

namespace BondIssuer

/-- The contract after `a` used up a nonce. -/
def signedBy (s : BondIssuer) (a : Address) : BondIssuer :=
  { s with nonce := update s.nonce a (s.nonce a + 1) }

variable {env : Env} {s s' : BondIssuer} {currentAdmin proposed caller holder investor : Address}
  {nonce id bondId : Nat} {clock : Clock} {config : BondConfig} {amount : Int}

theorem setAdmin_ok {newAdmin : Address} (h : s.setAdmin env currentAdmin newAdmin nonce = .ok s') :
    env.authorized currentAdmin = true ∧ s.admin = some currentAdmin ∧
      nonce = s.nonce currentAdmin ∧
      s' = { s.signedBy currentAdmin with admin := some newAdmin } := by
  simp only [setAdmin, bind_ok_iff, requireAuth_ok_iff, pure_ok_iff, exists_unit_iff] at h
  obtain ⟨hauth, s₁, hn, hadm, rfl⟩ := h
  obtain ⟨hnonce, rfl⟩ := consumeNonce_ok hn
  exact ⟨hauth, requireAdmin_ok hadm, hnonce, rfl⟩

theorem proposeAdmin_ok {ttlLedgers : Nat}
    (h : s.proposeAdmin env clock currentAdmin proposed nonce ttlLedgers = .ok s') :
    env.authorized currentAdmin = true ∧ s.admin = some currentAdmin ∧
      nonce = s.nonce currentAdmin ∧ (∀ expiry ∈ s.pendingAdminExpiry, expiry < clock.sequence) ∧
      s' = { s.signedBy currentAdmin with
        pendingAdmin := some proposed
        pendingAdminExpiry := some (min (clock.sequence + ttlLedgers) u32Max) } := by
  simp only [proposeAdmin, bind_ok_iff, requireAuth_ok_iff, reject_ok_iff, pure_ok_iff,
    exists_unit_iff, not_exists, not_and, not_le] at h
  obtain ⟨hauth, s₁, hn, hadm, hclear, rfl⟩ := h
  obtain ⟨hnonce, rfl⟩ := consumeNonce_ok hn
  exact ⟨hauth, requireAdmin_ok hadm, hnonce, hclear, rfl⟩

theorem acceptAdmin_ok (h : s.acceptAdmin env clock proposed nonce = .ok s') :
    env.authorized proposed = true ∧ nonce = s.nonce proposed ∧ s.pendingAdmin = some proposed ∧
      (∃ expiry ∈ s.pendingAdminExpiry, clock.sequence ≤ expiry) ∧
      s' = { s.signedBy proposed with
        admin := some proposed, pendingAdmin := none, pendingAdminExpiry := none } := by
  simp only [acceptAdmin, bind_ok_iff, requireAuth_ok_iff, okOr_ok_iff, reject_ok_iff, pure_ok_iff,
    exists_unit_iff, not_not, not_lt] at h
  obtain ⟨hauth, s₁, hn, _, hpending, expiry, hexpiry, rfl, hlive, -, -, rfl⟩ := h
  obtain ⟨hnonce, rfl⟩ := consumeNonce_ok hn
  exact ⟨hauth, hnonce, hpending, ⟨expiry, hexpiry, hlive⟩, rfl⟩

theorem cancelAdminProposal_ok (h : s.cancelAdminProposal env currentAdmin nonce = .ok s') :
    env.authorized currentAdmin = true ∧ s.admin = some currentAdmin ∧
      nonce = s.nonce currentAdmin ∧
      s' = { s.signedBy currentAdmin with pendingAdmin := none, pendingAdminExpiry := none } := by
  simp only [cancelAdminProposal, bind_ok_iff, requireAuth_ok_iff, pure_ok_iff, exists_unit_iff] at h
  obtain ⟨hauth, s₁, hn, hadm, rfl⟩ := h
  obtain ⟨hnonce, rfl⟩ := consumeNonce_ok hn
  exact ⟨hauth, requireAdmin_ok hadm, hnonce, rfl⟩

theorem setProjectRegistry_ok {registry : Address}
    (h : s.setProjectRegistry env caller registry nonce = .ok s') :
    env.authorized caller = true ∧ s.admin = some caller ∧ nonce = s.nonce caller ∧
      s' = { s.signedBy caller with projectRegistry := some registry } := by
  simp only [setProjectRegistry, bind_ok_iff, requireAuth_ok_iff, pure_ok_iff, exists_unit_iff] at h
  obtain ⟨hauth, s₁, hn, hadm, rfl⟩ := h
  obtain ⟨hnonce, rfl⟩ := consumeNonce_ok hn
  exact ⟨hauth, requireAdmin_ok hadm, hnonce, rfl⟩

theorem setTransferBlocked_ok {blocked : Bool}
    (h : s.setTransferBlocked env caller holder blocked nonce = .ok s') :
    env.authorized caller = true ∧ s.admin = some caller ∧ nonce = s.nonce caller ∧
      s' = { s.signedBy caller with
        transferBlocked := update s.transferBlocked holder blocked } := by
  simp only [setTransferBlocked, bind_ok_iff, requireAuth_ok_iff, pure_ok_iff, exists_unit_iff] at h
  obtain ⟨hauth, hadm, s₁, hn, rfl⟩ := h
  obtain ⟨hnonce, rfl⟩ := consumeNonce_ok hn
  exact ⟨hauth, requireAdmin_ok hadm, hnonce, rfl⟩

/-- The state a new bond leaves. -/
theorem issueBond_ok (h : s.issueBond env clock caller config nonce = .ok (s', id)) :
    env.authorized caller = true ∧ s.admin = some caller ∧ nonce = s.nonce caller ∧
      0 < config.faceValue ∧ 0 < config.totalSupply ∧ config.totalSupply ≤ maxSupply ∧
      clock.timestamp < config.maturityDate ∧ id = s.bondCount + 1 ∧
      s' = { s with
        nonce := update s.nonce caller (s.nonce caller + 1)
        committedRanges := s'.committedRanges
        bondCount := id
        bond := update s.bond id ((s.bond id).issued clock config) } := by
  simp only [issueBond, bind_ok_iff, requireAuth_ok_iff, reject_ok_iff, orTrap_ok_iff,
    u64_eq_some, pure_ok_iff, exists_unit_iff, not_le, not_or, not_lt, Prod.mk.injEq] at h
  obtain ⟨hauth, s₁, hn, hadm, hface, ⟨hpos, hmax⟩, hmat, -, -, -, -, -, _, ⟨-, rfl⟩, rfl, rfl⟩ := h
  obtain ⟨hnonce, rfl⟩ := consumeNonce_ok hn
  exact ⟨hauth, requireAdmin_ok hadm, hnonce, hface, hpos, hmax, hmat, rfl, rfl⟩

/-- The serial range of a new bond is not empty, overlaps no range on the list of its project and
vintage, and is added to it. -/
theorem issueBond_ranges (h : s.issueBond env clock caller config nonce = .ok (s', id)) :
    config.serialNumberStart ≤ config.serialNumberEnd ∧
      (∀ r ∈ s.committedRanges config.projectId config.creditVintage,
        ¬ config.serialRange.Overlaps r) ∧
      s'.committedRanges = update s.committedRanges config.projectId
        (update (s.committedRanges config.projectId) config.creditVintage
          (s.committedRanges config.projectId config.creditVintage ++ [config.serialRange])) := by
  simp only [issueBond, bind_ok_iff, reject_ok_iff, pure_ok_iff, exists_unit_iff, not_lt, not_exists,
    not_and, Prod.mk.injEq] at h
  obtain ⟨-, s₁, -, -, -, -, -, -, -, -, hrange, hapart, _, -, rfl, -⟩ := h
  exact ⟨hrange, hapart, rfl⟩

/-- The state a new auctioned bond leaves. -/
theorem issueAuction_ok {auction : AuctionConfig}
    (h : s.issueAuction env clock caller config auction nonce = .ok (s', id)) :
    ∃ s₁, s.issueBond env clock caller config nonce = .ok (s₁, id) ∧
      clock.sequence < auction.openLedger ∧ auction.openLedger < auction.cutoffLedger ∧
      auction.treasury ≠ s.self ∧
      s' = s₁.setBond id ((s₁.bond id).withAuction auction) := by
  simp only [issueAuction, bind_ok_iff, reject_ok_iff, pure_ok_iff, exists_unit_iff, not_le, not_or,
    Prod.mk.injEq, Prod.exists] at h
  obtain ⟨⟨hopen, hcut, -, -, htre, -⟩, s₁, _, h1, rfl, rfl⟩ := h
  exact ⟨s₁, h1, hopen, hcut, htre, rfl⟩

theorem subscribe_ok (h : s.subscribe clock investor bondId amount nonce = .ok s') :
    (s.bond bondId).subscriptionAuctionRequired = false ∧ nonce = s.nonce investor ∧
      ∃ b, (s.bond bondId).subscribe clock investor amount = .ok b ∧
        s' = { s with nonce := update s.nonce investor (s.nonce investor + 1)
                      bond := update s.bond bondId b } := by
  simp only [subscribe, bind_ok_iff, reject_ok_iff, pure_ok_iff, exists_unit_iff,
    Bool.not_eq_true] at h
  obtain ⟨hreq, s₁, hn, b, hb, rfl⟩ := h
  obtain ⟨hnonce, rfl⟩ := consumeNonce_ok hn
  exact ⟨hreq, hnonce, b, hb, rfl⟩

theorem transfer_ok {source target : Address}
    (h : s.transfer env clock source target bondId amount nonce = .ok s') :
    env.authorized source = true ∧ nonce = s.nonce source ∧
      ∃ b, (s.bond bondId).transfer s.transferBlocked clock source target amount = .ok b ∧
        s' = { s with nonce := update s.nonce source (s.nonce source + 1)
                      bond := update s.bond bondId b } := by
  simp only [transfer, bind_ok_iff, requireAuth_ok_iff, pure_ok_iff, exists_unit_iff] at h
  obtain ⟨hauth, s₁, hn, b, hb, rfl⟩ := h
  obtain ⟨hnonce, rfl⟩ := consumeNonce_ok hn
  exact ⟨hauth, hnonce, b, hb, rfl⟩

theorem grantSubscription_ok {wallet : Address} {identity : Bytes32}
    (h : s.grantSubscription env clock caller bondId wallet identity nonce = .ok s') :
    env.authorized caller = true ∧ s.admin = some caller ∧ nonce = s.nonce caller ∧
      ∃ b, (s.bond bondId).grantSubscription clock s.self wallet identity = .ok b ∧
        s' = { s with nonce := update s.nonce caller (s.nonce caller + 1)
                      bond := update s.bond bondId b } := by
  simp only [grantSubscription, bind_ok_iff, requireAuth_ok_iff, pure_ok_iff, exists_unit_iff] at h
  obtain ⟨hauth, hadm, s₁, hn, b, hb, rfl⟩ := h
  obtain ⟨hnonce, rfl⟩ := consumeNonce_ok hn
  exact ⟨hauth, requireAdmin_ok hadm, hnonce, b, hb, rfl⟩

theorem commitSubscription_ok
    (h : s.commitSubscription env clock investor bondId amount nonce = .ok s') :
    env.authorized investor = true ∧ nonce = s.nonce investor ∧
      ∃ b tokens, (s.bond bondId).commitSubscription env clock s.self s.tokenBalance investor amount
          = .ok (b, tokens) ∧
        s' = { s with nonce := update s.nonce investor (s.nonce investor + 1)
                      bond := update s.bond bondId b
                      tokenBalance := tokens } := by
  simp only [commitSubscription, bind_ok_iff, requireAuth_ok_iff, pure_ok_iff, exists_unit_iff,
    Prod.exists] at h
  obtain ⟨hauth, s₁, hn, b, tokens, hb, rfl⟩ := h
  obtain ⟨hnonce, rfl⟩ := consumeNonce_ok hn
  exact ⟨hauth, hnonce, b, tokens, hb, rfl⟩

theorem settleSubscription_ok {auction : AuctionState}
    (h : s.settleSubscription env clock bondId = .ok (s', auction)) :
    ∃ b tokens, (s.bond bondId).settleSubscription env clock s.self s.tokenBalance
        = .ok (b, tokens, auction) ∧
      s' = { s with bond := update s.bond bondId b, tokenBalance := tokens } := by
  simp only [settleSubscription, bind_ok_iff, pure_ok_iff, Prod.exists, Prod.mk.injEq] at h
  obtain ⟨b, tokens, _, hb, rfl, rfl⟩ := h
  exact ⟨b, tokens, hb, rfl⟩

theorem matureBond_ok (h : s.matureBond env clock caller bondId nonce = .ok s') :
    env.authorized caller = true ∧ s.admin = some caller ∧ nonce = s.nonce caller ∧
      ∃ b, (s.bond bondId).mature clock = .ok b ∧
        s' = { s with nonce := update s.nonce caller (s.nonce caller + 1)
                      bond := update s.bond bondId b } := by
  simp only [matureBond, bind_ok_iff, requireAuth_ok_iff, pure_ok_iff, exists_unit_iff] at h
  obtain ⟨hauth, s₁, hn, hadm, b, hb, rfl⟩ := h
  obtain ⟨hnonce, rfl⟩ := consumeNonce_ok hn
  exact ⟨hauth, requireAdmin_ok hadm, hnonce, b, hb, rfl⟩

theorem fundRedemption_ok (h : s.fundRedemption env caller bondId amount nonce = .ok s') :
    env.authorized caller = true ∧ s.admin = some caller ∧ nonce = s.nonce caller ∧
      ∃ b, (s.bond bondId).fund amount = .ok b ∧
        s' = { s with nonce := update s.nonce caller (s.nonce caller + 1)
                      bond := update s.bond bondId b } := by
  simp only [fundRedemption, bind_ok_iff, requireAuth_ok_iff, pure_ok_iff, exists_unit_iff] at h
  obtain ⟨hauth, s₁, hn, hadm, b, hb, rfl⟩ := h
  obtain ⟨hnonce, rfl⟩ := consumeNonce_ok hn
  exact ⟨hauth, requireAdmin_ok hadm, hnonce, b, hb, rfl⟩

theorem configureRedemptionBudget_ok {principalPerCycle : Int} {ledgersPerCycle : Nat}
    (h : s.configureRedemptionBudget env caller bondId principalPerCycle ledgersPerCycle nonce
      = .ok s') :
    env.authorized caller = true ∧ s.admin = some caller ∧ nonce = s.nonce caller ∧
      ∃ b, (s.bond bondId).configureBudget principalPerCycle ledgersPerCycle = .ok b ∧
        s' = { s with nonce := update s.nonce caller (s.nonce caller + 1)
                      bond := update s.bond bondId b } := by
  simp only [configureRedemptionBudget, bind_ok_iff, requireAuth_ok_iff, pure_ok_iff,
    exists_unit_iff] at h
  obtain ⟨hauth, hadm, b, hb, s₁, hn, rfl⟩ := h
  obtain ⟨hnonce, rfl⟩ := consumeNonce_ok hn
  exact ⟨hauth, requireAdmin_ok hadm, hnonce, b, hb, rfl⟩

/-- A successful request replays a known one and changes nothing, or queues a new one. -/
theorem requestRedemption_ok {requestKey : Bytes32}
    (h : s.requestRedemption env clock holder bondId amount requestKey nonce = .ok (s', id)) :
    env.authorized holder = true ∧
      s.enqueue clock holder bondId amount requestKey nonce = .ok (s', id) := by
  simpa only [requestRedemption, bind_ok_iff, requireAuth_ok_iff, exists_unit_iff] using h

theorem processRedemptions_ok {limit completed : Nat}
    (h : s.processRedemptions clock bondId limit = .ok (s', completed)) :
    ∃ b, (s.bond bondId).process clock limit = .ok (b, completed) ∧ s' = s.setBond bondId b := by
  simp only [processRedemptions, bind_ok_iff, pure_ok_iff, Prod.exists, Prod.mk.injEq] at h
  obtain ⟨b, _, hb, rfl, rfl⟩ := h
  exact ⟨b, hb, rfl⟩

theorem redeem_ok (h : s.redeem env clock holder bondId amount nonce = .ok s') :
    env.authorized holder = true ∧ nonce = s.nonce holder ∧
      (s.bond bondId).redeemable clock holder amount = .ok () ∧
      ∃ s₁ id, s.enqueue clock holder bondId amount (env.sha256 nonce) nonce = .ok (s₁, id) ∧
        (s.bond bondId).redemptionTail < id ∧
        s₁.processRedemptions clock bondId 1 = .ok (s', 1) := by
  simp only [redeem, bind_ok_iff, requireAuth_ok_iff, reject_ok_iff, pure_ok_iff, exists_unit_iff,
    Prod.exists, not_not, not_le] at h
  obtain ⟨hauth, hn, hred, s₁, id, h1, hid, s₂, _, h2, rfl, rfl⟩ := h
  exact ⟨hauth, hn, hred, s₁, id, h1, hid, h2⟩

end BondIssuer

/-! ## Runs -/

/-- The contract and the ledger it lives in. -/
structure IssuerWorld where
  clock : Clock
  issuer : BondIssuer

inductive IssuerInput where
  /-- Anyone calls an entry point. -/
  | call (env : Env) (call : IssuerCall)
  /-- The ledger closes: its number and its time move on. -/
  | close (ledgers seconds : Nat)
  /-- Tokens move outside the contract. -/
  | tokens (balances : TokenBalances)

/-- The contract just deployed at `self`. -/
def IssuerWorld.deploy (clock : Clock) (self admin : Address) : IssuerWorld :=
  ⟨clock, BondIssuer.deploy self admin⟩

/-- One input. A failed call answers `none` and changes nothing. -/
def IssuerWorld.step (w : IssuerWorld) : IssuerInput → IssuerWorld × Option IssuerReply
  | .call env call =>
      match w.issuer.exec env w.clock call with
      | .ok (issuer, reply) => ({ w with issuer := issuer }, some reply)
      | .error _ => (w, none)
  | .close ledgers seconds =>
      ({ w with clock := ⟨w.clock.sequence + ledgers, w.clock.timestamp + seconds⟩ }, none)
  | .tokens balances => ({ w with issuer := { w.issuer with tokenBalance := balances } }, none)

/-- The issuer as a machine. -/
def issuerMachine : Machine IssuerWorld IssuerInput (Option IssuerReply) := ⟨IssuerWorld.step⟩

end VerdantBond
