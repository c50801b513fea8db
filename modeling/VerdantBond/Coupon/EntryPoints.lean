import VerdantBond.Coupon.Distribution
import VerdantBond.Coupon.Waterfall

set_option autoImplicit false

/-! # CouponEngine: entry points

The state-changing entry points of the contract and its credit views. What an entry point does to
the bond it names is a function on that bond's record; here it gets its authority and its nonce.
-/

namespace VerdantBond

open Function

namespace CouponBond

/-! ## Records -/

variable (b : CouponBond)

/-- The record `register_bond` leaves. -/
def register (projectId : Bytes32) (creditType : CreditType) : CouponBond :=
  { b with bondProject := some projectId, bondCreditType := some creditType }

/-- The record `submit_true_up_adjustment` leaves. -/
def addTrueUp (adjustment : TrueUpAdjustment) : Outcome BondError CouponBond := do
  let count ← orTrap (u32 (b.trueUpCount + 1))
  pure { b with
    trueUpAdjustment := update b.trueUpAdjustment b.trueUpCount (some adjustment)
    trueUpCount := count }

/-- The record `confirm_retirement` leaves, and `revert_payout` too. -/
def debit (holder : Address) (amount : Int) : Outcome BondError CouponBond := do
  let a ← (b.account holder).debitCombined amount
  pure { b with account := update b.account holder a }

/-- The record `claim_credits` leaves, with the amount it returns. -/
def claim (b : CouponBond) (caller : Address) : Outcome BondError (CouponBond × Int) := do
  b.requireNoMigrationWindow
  pure ({ b with account := update b.account caller ((b.account caller).claim b.periodCount) },
    (b.account caller).escrowedCredits)

/-- The record `consume_credits` leaves. -/
def consume (b : CouponBond) (holder : Address) (amount : Int) : Outcome BondError CouponBond := do
  reject (amount ≤ 0) .zeroAmount
  b.requireNoMigrationWindow
  let a ← (b.account holder).consume b.periodCount amount
  pure { b with account := update b.account holder a }

/-- The record `sweep_undistributed` leaves, with the amount it returns. -/
def sweep : CouponBond × Int :=
  ({ b with undistributedTotal := 0 }, b.undistributedTotal)

/-- The record `clear_performance_flag` leaves. -/
def clearFlag : Outcome BondError CouponBond := do
  reject (b.performanceFlag.isSome = false) .bondNotFound
  pure { b with performanceFlag := none }

/-- The record `begin_migration` leaves, with the window. -/
def beginMigration (clock : Clock) (b : CouponBond) :
    Outcome BondError (CouponBond × MigrationWindow) := do
  reject (b.migrationWindow.isSome = true) .overflow
  let window : MigrationWindow := ⟨clock.timestamp, b.undistributedTotal, b.periodCount⟩
  pure ({ b with migrationWindow := some window }, window)

/-- The record `finalize_migration` leaves. -/
def finalizeMigration : Outcome BondError CouponBond := do
  reject (b.migrationWindow.isSome = false) .bondNotFound
  pure { b with migrationWindow := none }

/-- The record `rollback_migration` leaves, with the window. -/
def rollbackMigration : Outcome BondError (CouponBond × MigrationWindow) := do
  let window ← okOr b.migrationWindow .bondNotFound
  reject (b.undistributedTotal ≠ window.snapshotUndistributed ∨
    b.periodCount ≠ window.snapshotPeriodCount) .overflow
  pure ({ b with migrationWindow := none }, window)

/-! ## Views -/

/-- One line of `claimable_credit_details`: a positive entry of a period that has its record. -/
def claimableCreditDetail (holder : Address) (periodIndex : Nat) (t : CreditType) :
    Option ClaimableCreditDetail :=
  let amount := (b.account holder).periodHolder periodIndex t
  if amount ≤ 0 then none
  else (b.periodInfo periodIndex).map fun info =>
    ⟨periodIndex, info.reportId, info.startTime, info.endTime, t, amount⟩

/-- `claimable_credit_details`. -/
def claimableCreditDetails (holder : Address) : List ClaimableCreditDetail :=
  (List.range b.periodCount).flatMap fun p => paidTypes.filterMap (b.claimableCreditDetail holder p)

end CouponBond

namespace CouponEngine

/-- `escrowed_credits`. -/
def escrowedCredits (s : CouponEngine) (bondId : Nat) (holder : Address) : Int :=
  ((s.bond bondId).account holder).escrowedCredits

variable (env : Env) (s : CouponEngine)

/-- `claimable_credits`. -/
def claimableCredits (bondId : Nat) (holder : Address) : Int :=
  s.escrowedCredits bondId holder

/-! ## Entry points -/

/-- The head of most administrative entry points: authorization, nonce, admin. -/
def asAdmin (caller : Address) (nonce : Nat) : Outcome BondError CouponEngine := do
  requireAuth env caller
  let s₁ ← s.consumeNonce caller nonce
  s₁.requireAdmin caller
  pure s₁

def registerBond (issuer : BondIssuer) (s : CouponEngine) (caller : Address) (bondId : Nat)
    (projectId : Bytes32) (nonce : Nat) : Outcome BondError CouponEngine := do
  let s₁ ← s.asAdmin env caller nonce
  let config ← invoke (issuer.getBond bondId)
  pure (s₁.setBond bondId ((s.bond bondId).register projectId config.creditType))

def submitTrueUpAdjustment (clock : Clock) (s : CouponEngine) (caller : Address)
    (bondId periodIndex : Nat) (adjustmentAmount : Int) (reason : Symbol)
    (ipfsEvidenceHash : Bytes32) (nonce : Nat) : Outcome BondError CouponEngine := do
  let s₁ ← s.asAdmin env caller nonce
  let b ← (s.bond bondId).addTrueUp
    ⟨bondId, periodIndex, adjustmentAmount, reason, ipfsEvidenceHash, clock.timestamp, false⟩
  pure (s₁.setBond bondId b)

def settleWaterfall (env : Env) (issuer : BondIssuer) (s : CouponEngine) (caller : Address)
    (bondId : Nat) (tranches : List WaterfallTranche)
    (carbonAvailable biodiversityAvailable : Int) (nonce : Nat) :
    Outcome BondError (CouponEngine × WaterfallResult) := do
  let s₁ ← s.asAdmin env caller nonce
  let (b, result) ←
    (s.bond bondId).settleWaterfall issuer tranches carbonAvailable biodiversityAvailable
  pure (s₁.setBond bondId b, result)

def claimWaterfall (env : Env) (issuer : BondIssuer) (s : CouponEngine) (holder : Address)
    (bondId settlementIndex priority nonce : Nat) :
    Outcome BondError (CouponEngine × Int × Int) := do
  requireAuth env holder
  let s₁ ← s.consumeNonceChecked holder nonce
  let (b, carbon, biodiversity) ←
    (s.bond bondId).claimWaterfall issuer holder settlementIndex priority
  pure (s₁.setBond bondId b, carbon, biodiversity)

def distributeCouponBatch (clock : Clock) (issuer : BondIssuer) (s : CouponEngine)
    (batch : CouponBatch) : Outcome BondError (CouponEngine × CouponResult) := do
  let s₁ ← s.asAdmin env batch.caller batch.nonce
  let (b, result) ← s.distribute env clock issuer batch
  pure (s₁.setBond batch.bondId b, result)

/-- `confirm_retirement`. -/
def confirmRetirement (caller : Address) (bondId : Nat) (holder : Address) (amount : Int)
    (nonce : Nat) : Outcome BondError CouponEngine := do
  let s₁ ← s.asAdmin env caller nonce
  let b ← (s.bond bondId).debit holder amount
  pure (s₁.setBond bondId b)

/-- `revert_payout`: the same body as `confirm_retirement`. -/
def revertPayout (caller : Address) (bondId : Nat) (holder : Address) (amount : Int) (nonce : Nat) :
    Outcome BondError CouponEngine := do
  let s₁ ← s.asAdmin env caller nonce
  let b ← (s.bond bondId).debit holder amount
  pure (s₁.setBond bondId b)

def claimCredits (caller : Address) (bondId nonce : Nat) :
    Outcome BondError (CouponEngine × Int) := do
  requireAuth env caller
  let s₁ ← s.consumeNonce caller nonce
  let (b, accrued) ← (s.bond bondId).claim caller
  pure (s₁.setBond bondId b, accrued)

/-- `consume_credits`: it takes no nonce, the caller's was spent in the retirement contract. -/
def consumeCredits (holder : Address) (bondId : Nat) (amount : Int) :
    Outcome BondError CouponEngine := do
  requireAuth env holder
  let b ← (s.bond bondId).consume holder amount
  pure (s.setBond bondId b)

def sweepUndistributed (caller : Address) (bondId nonce : Nat) :
    Outcome BondError (CouponEngine × Int) := do
  let s₁ ← s.asAdmin env caller nonce
  let (b, total) := (s.bond bondId).sweep
  pure (s₁.setBond bondId b, total)

def setAdmin (currentAdmin newAdmin : Address) (nonce : Nat) : Outcome BondError CouponEngine := do
  let s₁ ← s.asAdmin env currentAdmin nonce
  pure { s₁ with admin := some newAdmin }

def setMinPerformanceAttestations (caller : Address) (minAttestations nonce : Nat) :
    Outcome BondError CouponEngine := do
  let s₁ ← s.asAdmin env caller nonce
  reject (minAttestations = 0) .zeroAmount
  pure { s₁ with minPerformanceAttestations := minAttestations }

def clearPerformanceFlag (caller : Address) (bondId nonce : Nat) :
    Outcome BondError CouponEngine := do
  let s₁ ← s.asAdmin env caller nonce
  let b ← (s.bond bondId).clearFlag
  pure (s₁.setBond bondId b)

def beginMigration (env : Env) (clock : Clock) (s : CouponEngine) (caller : Address)
    (bondId nonce : Nat) : Outcome BondError (CouponEngine × MigrationWindow) := do
  let s₁ ← s.asAdmin env caller nonce
  let (b, window) ← (s.bond bondId).beginMigration clock
  pure (s₁.setBond bondId b, window)

def finalizeMigration (env : Env) (s : CouponEngine) (caller : Address) (bondId nonce : Nat) :
    Outcome BondError CouponEngine := do
  let s₁ ← s.asAdmin env caller nonce
  let b ← (s.bond bondId).finalizeMigration
  pure (s₁.setBond bondId b)

def rollbackMigration (env : Env) (s : CouponEngine) (caller : Address) (bondId nonce : Nat) :
    Outcome BondError (CouponEngine × MigrationWindow) := do
  let s₁ ← s.asAdmin env caller nonce
  let (b, window) ← (s.bond bondId).rollbackMigration
  pure (s₁.setBond bondId b, window)

def configureCovenant (env : Env) (s : CouponEngine) (caller : Address) (bondId : Nat)
    (config : CovenantConfig) (nonce : Nat) : Outcome BondError CouponEngine := do
  requireAuth env caller
  s.requireAdmin caller
  reject (nonce ≠ s.nonce caller) .invalidNonce
  let b ← (s.bond bondId).configureCovenant config
  let s₁ ← s.consumeNonceChecked caller nonce
  pure (s₁.setBond bondId b)

end CouponEngine

/-! ## Calls -/

inductive CouponCall where
  | registerBond (caller : Address) (bondId : Nat) (projectId : Bytes32) (nonce : Nat)
  | submitTrueUpAdjustment (caller : Address) (bondId periodIndex : Nat) (adjustmentAmount : Int)
      (reason : Symbol) (ipfsEvidenceHash : Bytes32) (nonce : Nat)
  | settleWaterfall (caller : Address) (bondId : Nat) (tranches : List WaterfallTranche)
      (carbonAvailable biodiversityAvailable : Int) (nonce : Nat)
  | claimWaterfall (holder : Address) (bondId settlementIndex priority nonce : Nat)
  | distributeCoupon (caller : Address) (bondId periodIndex : Nat) (holders : List Address)
      (reportId nonce : Nat)
  | distributeCouponBatch (batch : CouponBatch)
  | confirmRetirement (caller : Address) (bondId : Nat) (holder : Address) (amount : Int)
      (nonce : Nat)
  | revertPayout (caller : Address) (bondId : Nat) (holder : Address) (amount : Int) (nonce : Nat)
  | claimCredits (caller : Address) (bondId nonce : Nat)
  | consumeCredits (holder : Address) (bondId : Nat) (amount : Int)
  | sweepUndistributed (caller : Address) (bondId nonce : Nat)
  | setAdmin (currentAdmin newAdmin : Address) (nonce : Nat)
  | setMinPerformanceAttestations (caller : Address) (minAttestations nonce : Nat)
  | clearPerformanceFlag (caller : Address) (bondId nonce : Nat)
  | beginMigration (caller : Address) (bondId nonce : Nat)
  | finalizeMigration (caller : Address) (bondId nonce : Nat)
  | rollbackMigration (caller : Address) (bondId nonce : Nat)
  | configureCovenant (caller : Address) (bondId : Nat) (config : CovenantConfig) (nonce : Nat)
  | setEquivalenceGovernance (caller governance : Address) (nonce : Nat)
  | publishEquivalence (caller : Address) (expectedVersion : Nat)
      (factors : List EquivalenceFactor) (rationaleHash : Bytes32) (nonce : Nat)
  deriving DecidableEq, Repr

namespace CouponCall

/-- The batch a distribution pays. `distribute_coupon` is one batch over the whole list. -/
def batch : CouponCall → Option CouponBatch
  | .distributeCoupon caller bondId periodIndex holders reportId nonce =>
      some ⟨caller, bondId, periodIndex, holders, reportId, 0, holders.length, nonce⟩
  | .distributeCouponBatch batch => some batch
  | _ => none

/-- The bond whose record a call writes. -/
def target : CouponCall → Option Nat
  | .registerBond _ bondId _ _ => some bondId
  | .submitTrueUpAdjustment _ bondId _ _ _ _ _ => some bondId
  | .settleWaterfall _ bondId _ _ _ _ => some bondId
  | .claimWaterfall _ bondId _ _ _ => some bondId
  | .distributeCoupon _ bondId _ _ _ _ => some bondId
  | .distributeCouponBatch batch => some batch.bondId
  | .confirmRetirement _ bondId _ _ _ => some bondId
  | .revertPayout _ bondId _ _ _ => some bondId
  | .claimCredits _ bondId _ => some bondId
  | .consumeCredits _ bondId _ => some bondId
  | .sweepUndistributed _ bondId _ => some bondId
  | .setAdmin _ _ _ => none
  | .setMinPerformanceAttestations _ _ _ => none
  | .clearPerformanceFlag _ bondId _ => some bondId
  | .beginMigration _ bondId _ => some bondId
  | .finalizeMigration _ bondId _ => some bondId
  | .rollbackMigration _ bondId _ => some bondId
  | .configureCovenant _ bondId _ _ => some bondId
  | .setEquivalenceGovernance _ _ _ => none
  | .publishEquivalence _ _ _ _ _ => none

end CouponCall

/-- What a successful call returns. -/
inductive CouponReply where
  | unit
  | number (n : Nat)
  | amount (n : Int)
  | amounts (carbon biodiversity : Int)
  | coupon (result : CouponResult)
  | waterfall (result : WaterfallResult)
  | window (window : MigrationWindow)
  deriving DecidableEq, Repr

/-- The fields fit their types. -/
def WaterfallTranche.WellTyped (t : WaterfallTranche) : Prop :=
  t.priority ≤ u32Max ∧ t.trancheBondId ≤ u64Max ∧ InI128 t.carbonDue ∧ InI128 t.biodiversityDue

instance (t : WaterfallTranche) : Decidable t.WellTyped := inferInstanceAs (Decidable (_ ∧ _))

def CouponBatch.WellTyped (batch : CouponBatch) : Prop :=
  batch.bondId ≤ u64Max ∧ batch.periodIndex ≤ u32Max ∧ batch.holders.length ≤ u32Max ∧
    batch.reportId ≤ u64Max ∧ batch.offset ≤ u32Max ∧ batch.limit ≤ u32Max ∧ batch.nonce ≤ u64Max

instance (batch : CouponBatch) : Decidable batch.WellTyped := inferInstanceAs (Decidable (_ ∧ _))

def CovenantConfig.WellTyped (config : CovenantConfig) : Prop :=
  InI128 config.minPerformance ∧ InI128 config.minRedemptionFunding ∧
    config.breachCycles ≤ u32Max ∧ config.recoveryCycles ≤ u32Max ∧
    config.steppedCouponBps ≤ u32Max

instance (config : CovenantConfig) : Decidable config.WellTyped :=
  inferInstanceAs (Decidable (_ ∧ _))

def EquivalenceFactor.WellTyped (factor : EquivalenceFactor) : Prop :=
  InI128 factor.numerator ∧ InI128 factor.denominator

instance (factor : EquivalenceFactor) : Decidable factor.WellTyped :=
  inferInstanceAs (Decidable (_ ∧ _))

/-- The arguments fit the types of the entry point's signature. The host refuses to decode any
others. -/
def CouponCall.WellTyped : CouponCall → Prop
  | .registerBond _ bondId _ nonce => bondId ≤ u64Max ∧ nonce ≤ u64Max
  | .submitTrueUpAdjustment _ bondId periodIndex adjustmentAmount _ _ nonce =>
      bondId ≤ u64Max ∧ periodIndex ≤ u32Max ∧ InI128 adjustmentAmount ∧ nonce ≤ u64Max
  | .settleWaterfall _ bondId tranches carbonAvailable biodiversityAvailable nonce =>
      bondId ≤ u64Max ∧ (∀ t ∈ tranches, t.WellTyped) ∧ InI128 carbonAvailable ∧
        InI128 biodiversityAvailable ∧ nonce ≤ u64Max
  | .claimWaterfall _ bondId settlementIndex priority nonce =>
      bondId ≤ u64Max ∧ settlementIndex ≤ u32Max ∧ priority ≤ u32Max ∧ nonce ≤ u64Max
  | .distributeCoupon _ bondId periodIndex holders reportId nonce =>
      bondId ≤ u64Max ∧ periodIndex ≤ u32Max ∧ holders.length ≤ u32Max ∧ reportId ≤ u64Max ∧
        nonce ≤ u64Max
  | .distributeCouponBatch batch => batch.WellTyped
  | .confirmRetirement _ bondId _ amount nonce =>
      bondId ≤ u64Max ∧ InI128 amount ∧ nonce ≤ u64Max
  | .revertPayout _ bondId _ amount nonce => bondId ≤ u64Max ∧ InI128 amount ∧ nonce ≤ u64Max
  | .claimCredits _ bondId nonce => bondId ≤ u64Max ∧ nonce ≤ u64Max
  | .consumeCredits _ bondId amount => bondId ≤ u64Max ∧ InI128 amount
  | .sweepUndistributed _ bondId nonce => bondId ≤ u64Max ∧ nonce ≤ u64Max
  | .setAdmin _ _ nonce => nonce ≤ u64Max
  | .setMinPerformanceAttestations _ minAttestations nonce =>
      minAttestations ≤ u32Max ∧ nonce ≤ u64Max
  | .clearPerformanceFlag _ bondId nonce => bondId ≤ u64Max ∧ nonce ≤ u64Max
  | .beginMigration _ bondId nonce => bondId ≤ u64Max ∧ nonce ≤ u64Max
  | .finalizeMigration _ bondId nonce => bondId ≤ u64Max ∧ nonce ≤ u64Max
  | .rollbackMigration _ bondId nonce => bondId ≤ u64Max ∧ nonce ≤ u64Max
  | .configureCovenant _ bondId config nonce =>
      bondId ≤ u64Max ∧ config.WellTyped ∧ nonce ≤ u64Max
  | .setEquivalenceGovernance _ _ nonce => nonce ≤ u64Max
  | .publishEquivalence _ expectedVersion factors _ nonce =>
      expectedVersion ≤ u32Max ∧ (∀ factor ∈ factors, factor.WellTyped) ∧ nonce ≤ u64Max

instance CouponCall.decidableWellTyped : DecidablePred CouponCall.WellTyped := fun call =>
  match call with
  | .setAdmin .. | .setEquivalenceGovernance .. => inferInstanceAs (Decidable (_ ≤ (_ : Nat)))
  | .distributeCouponBatch batch => inferInstanceAs (Decidable batch.WellTyped)
  | .registerBond .. | .submitTrueUpAdjustment .. | .settleWaterfall .. | .claimWaterfall ..
  | .distributeCoupon .. | .confirmRetirement .. | .revertPayout .. | .claimCredits ..
  | .consumeCredits .. | .sweepUndistributed .. | .setMinPerformanceAttestations ..
  | .clearPerformanceFlag .. | .beginMigration .. | .finalizeMigration .. | .rollbackMigration ..
  | .configureCovenant .. | .publishEquivalence .. => inferInstanceAs (Decidable (_ ∧ _))

namespace CouponReply

/-- A call that returns nothing. -/
def ofUnit (x : Outcome BondError CouponEngine) : Outcome BondError (CouponEngine × CouponReply) := do
  let s ← x
  pure (s, .unit)

/-- A call with a result of some type. -/
def ofResult {α : Type} (reply : α → CouponReply) (x : Outcome BondError (CouponEngine × α)) :
    Outcome BondError (CouponEngine × CouponReply) := do
  let (s, r) ← x
  pure (s, reply r)

end CouponReply

namespace CouponEngine

open CouponReply (ofUnit ofResult)

/-- The entry point a call names. -/
def dispatch (env : Env) (clock : Clock) (issuer : BondIssuer) (s : CouponEngine) :
    CouponCall → Outcome BondError (CouponEngine × CouponReply)
  | .registerBond caller bondId projectId nonce =>
      ofUnit (s.registerBond env issuer caller bondId projectId nonce)
  | .submitTrueUpAdjustment caller bondId periodIndex adjustmentAmount reason hash nonce =>
      ofUnit (s.submitTrueUpAdjustment env clock caller bondId periodIndex adjustmentAmount reason
        hash nonce)
  | .settleWaterfall caller bondId tranches carbonAvailable biodiversityAvailable nonce =>
      ofResult .waterfall (s.settleWaterfall env issuer caller bondId tranches carbonAvailable
        biodiversityAvailable nonce)
  | .claimWaterfall holder bondId settlementIndex priority nonce =>
      ofResult (fun r => .amounts r.1 r.2)
        (s.claimWaterfall env issuer holder bondId settlementIndex priority nonce)
  | .distributeCoupon caller bondId periodIndex holders reportId nonce =>
      ofResult .coupon (s.distributeCouponBatch env clock issuer
        ⟨caller, bondId, periodIndex, holders, reportId, 0, holders.length, nonce⟩)
  | .distributeCouponBatch batch =>
      ofResult .coupon (s.distributeCouponBatch env clock issuer batch)
  | .confirmRetirement caller bondId holder amount nonce =>
      ofUnit (s.confirmRetirement env caller bondId holder amount nonce)
  | .revertPayout caller bondId holder amount nonce =>
      ofUnit (s.revertPayout env caller bondId holder amount nonce)
  | .claimCredits caller bondId nonce =>
      ofResult .amount (s.claimCredits env caller bondId nonce)
  | .consumeCredits holder bondId amount => ofUnit (s.consumeCredits env holder bondId amount)
  | .sweepUndistributed caller bondId nonce =>
      ofResult .amount (s.sweepUndistributed env caller bondId nonce)
  | .setAdmin currentAdmin newAdmin nonce => ofUnit (s.setAdmin env currentAdmin newAdmin nonce)
  | .setMinPerformanceAttestations caller minAttestations nonce =>
      ofUnit (s.setMinPerformanceAttestations env caller minAttestations nonce)
  | .clearPerformanceFlag caller bondId nonce =>
      ofUnit (s.clearPerformanceFlag env caller bondId nonce)
  | .beginMigration caller bondId nonce =>
      ofResult .window (s.beginMigration env clock caller bondId nonce)
  | .finalizeMigration caller bondId nonce => ofUnit (s.finalizeMigration env caller bondId nonce)
  | .rollbackMigration caller bondId nonce =>
      ofResult .window (s.rollbackMigration env caller bondId nonce)
  | .configureCovenant caller bondId config nonce =>
      ofUnit (s.configureCovenant env caller bondId config nonce)
  | .setEquivalenceGovernance caller governance nonce =>
      ofUnit (s.setEquivalenceGovernance env caller governance nonce)
  | .publishEquivalence caller expectedVersion factors rationaleHash nonce =>
      ofResult .number
        (s.publishEquivalence env clock caller expectedVersion factors rationaleHash nonce)

/-- One call: its arguments decode, and its entry point succeeds. -/
def exec (env : Env) (clock : Clock) (issuer : BondIssuer) (s : CouponEngine) (call : CouponCall) :
    Outcome BondError (CouponEngine × CouponReply) := do
  hostRequire call.WellTyped
  s.dispatch env clock issuer call

end CouponEngine

end VerdantBond
