import VerdantBond.Coupon.Accounts
import VerdantBond.Coupon.Equivalence

set_option autoImplicit false

/-! # CouponEngine: coupon distribution

`distribute_coupon_batch`, stage by stage: what the oracle is asked, the performance bounds, the
pools the report earns, the staleness discount, the true-ups, the covenants, the pinned calculation,
and the loop that credits the holders of one batch.
-/

namespace VerdantBond

open Function

/-- The arguments of `distribute_coupon_batch`. -/
structure CouponBatch where
  caller : Address
  bondId : Nat
  periodIndex : Nat
  holders : List Address
  reportId : Nat
  offset : Nat
  limit : Nat
  nonce : Nat
  deriving DecidableEq, Repr

variable (creditType : CreditType) (batch : CouponBatch)

/-- The holders a batch pays: those from the offset on, as many as the limit says. -/
def CouponBatch.slice : List Address :=
  (batch.holders.drop batch.offset).take batch.limit

/-- The batch reaches the end of its list, which completes the period. -/
def CouponBatch.Complete : Prop :=
  batch.offset + batch.limit = batch.holders.length

instance (batch : CouponBatch) : Decidable batch.Complete := inferInstanceAs (Decidable (_ = _))

/-- The record of the period that a batch leaves. -/
def CouponBatch.info (report : Report) (cumulative undistributed : Int) : PeriodInfo where
  periodIndex := batch.periodIndex
  startTime := report.periodStart
  endTime := report.periodEnd
  totalCreditsEarned := cumulative
  distributed := decide batch.Complete
  reportId := batch.reportId
  undistributed := undistributed

/-! ## Performance bounds -/

/-- A change in basis points of the previous value. -/
def changeBps (delta previous : Int) : Outcome BondError Int := do
  let scaled ← okOr (i128 (delta * 10000)) .overflow
  okOr (checkedDiv scaled previous) .overflow

/-- `validate_performance_update`: the flag to raise, if the report is out of bounds. -/
def CouponBond.validatePerformanceUpdate (clock : Clock) (b : CouponBond) (reportId : Nat)
    (carbonSequestered : Int) : Outcome BondError (Option PerformanceFlag) :=
  match b.performanceHistory.getLast? with
  | none => .ok none
  | some previous =>
      let flag (reason : PerformanceAnomaly) : PerformanceFlag :=
        ⟨reportId, reason, previous.carbonSequestered, carbonSequestered, clock.timestamp⟩
      if previous.carbonSequestered ≤ 0 then .ok none
      else if previous.carbonSequestered < carbonSequestered then do
        let delta ← orTrap (i128 (carbonSequestered - previous.carbonSequestered))
        let increase ← changeBps delta previous.carbonSequestered
        pure (if increase ≤ maxPerformanceIncreaseBps then none else some (flag .spike))
      else if carbonSequestered < previous.carbonSequestered then do
        let drop ← orTrap (i128 (previous.carbonSequestered - carbonSequestered))
        let decrease ← changeBps drop previous.carbonSequestered
        pure (if decrease ≤ maxPerformanceDecreaseBps then none else some (flag .drop))
      else .ok none

/-- `append_performance_record`: the trailing records, at most eight. -/
def appendPerformanceRecord (history : List PerformanceRecord) (record : PerformanceRecord) :
    List PerformanceRecord :=
  let history := history ++ [record]
  history.drop (history.length - trailingHistoryPeriods)

/-! ## The pools of a report -/

/-- `compute_biodiversity_credits`. -/
def computeBiodiversityCredits : BiodiversityMetrics → Outcome BondError Int
  | .absent => .ok 0
  | .present habitat species units => do
      reject (habitat < 0 ∨ species < 0 ∨ units < 0) .invalidReport
      let habitatCredits ← okOr (i128 (habitat * habitatCreditRate)) .overflow
      let speciesCredits ← okOr (i128 (species * speciesCreditRate)) .overflow
      let both ← okOr (i128 (habitatCredits + speciesCredits)) .overflow
      let unitCredits ← okOr (i128 (units * unitCreditRate)) .overflow
      let all ← okOr (i128 (both + unitCredits)) .overflow
      let scaled ← okOr (i128 (all * creditMinorUnits)) .overflow
      okOr (checkedDiv scaled habitatCreditRate) .overflow

/-- The biodiversity pool of a bond that pays one: a report without metrics is invalid. -/
def biodiversityTotal (report : Report) : Outcome BondError Int := do
  reject (report.biodiversity = .absent) .invalidReport
  computeBiodiversityCredits report.biodiversity

/-- The pools a report earns, by the bond's credit type. -/
def creditPools (report : Report) (normalizedCarbon : Int) : Outcome BondError Pools := do
  let credits ← okOr (checkedDiv normalizedCarbon creditDivisor) .overflow
  let carbonTotal ← okOr (i128 (credits * creditMinorUnits)) .overflow
  match creditType with
  | .carbon | .blueCarbon => pure ⟨carbonTotal, 0⟩
  | .biodiversity => do
      let total ← biodiversityTotal report
      pure ⟨0, total⟩
  | .basket => do
      let total ← biodiversityTotal report
      pure ⟨carbonTotal, total⟩

/-- The conservatism discount of a tier-one staleness state. -/
def discountPools (staleness : StalenessState) (pools : Pools) : Outcome BondError Pools :=
  if staleness.currentTier = 1 ∧ 0 < staleness.discountBps then do
    let multiplier ← okOr (i128 (10000 - staleness.discountBps)) .overflow
    let carbon ← checkedRatio pools.carbon multiplier 10000
    let biodiversity ← checkedRatio pools.biodiversity multiplier 10000
    pure ⟨carbon, biodiversity⟩
  else .ok pools

/-- The loop state of the true-ups. -/
structure TrueUps where
  adjustment : Nat → Option TrueUpAdjustment
  accumulated : Int

/-- One adjustment: an unapplied one is added up and marked. -/
def TrueUps.take (t : TrueUps) (i : Nat) : Outcome BondError TrueUps :=
  match t.adjustment i with
  | none => .ok t
  | some adjustment =>
      if adjustment.applied then .ok t
      else do
        let accumulated ← okOr (i128 (t.accumulated + adjustment.adjustmentAmount)) .overflow
        pure ⟨update t.adjustment i (some { adjustment with applied := true }), accumulated⟩

/-- The true-ups of a first batch; a later batch takes none. -/
def CouponBond.takeTrueUps (b : CouponBond) (first : Bool) : Outcome BondError (CouponBond × Int) :=
  if first then do
    let t ← (List.range b.trueUpCount).foldlM TrueUps.take ⟨b.trueUpAdjustment, 0⟩
    pure ({ b with trueUpAdjustment := t.adjustment }, t.accumulated)
  else .ok (b, 0)

/-- The pool true-ups go to, cut off at zero. -/
def adjustPools (trueUp : Int) (pools : Pools) : Outcome BondError Pools :=
  if trueUp = 0 then .ok pools
  else if creditType = .biodiversity then do
    let total ← okOr (i128 (pools.biodiversity + trueUp)) .overflow
    pure { pools with biodiversity := max total 0 }
  else do
    let total ← okOr (i128 (pools.carbon + trueUp)) .overflow
    pure { pools with carbon := max total 0 }

/-! ## The holders of a batch -/

/-- `appears_before`. -/
def appearsBefore (holders : List Address) (holder : Address) (endExclusive : Nat) : Bool :=
  (List.range endExclusive).any (fun i => holders[i]? = some holder)

/-- The loop state of the batch: the accounts and the two running totals. -/
structure Payout where
  account : Address → Account
  totalHolderCredits : Int
  holderCount : Nat

/-- The credits a holder with `balance` earns of each type. A bond of one type pays the whole pool
in it. -/
def holderShares (calculation : CouponCalculation) (totalCredits balance : Int) :
    Outcome BondError Pools :=
  match creditType with
  | .carbon | .blueCarbon => do
      let carbon ← checkedRatio totalCredits balance calculation.totalSubscribed
      pure ⟨carbon, 0⟩
  | .biodiversity => do
      let biodiversity ← checkedRatio totalCredits balance calculation.totalSubscribed
      pure ⟨0, biodiversity⟩
  | .basket => do
      let carbon ← checkedRatio calculation.carbonPool balance calculation.totalSubscribed
      let biodiversity ←
        checkedRatio calculation.biodiversityPool balance calculation.totalSubscribed
      pure ⟨carbon, biodiversity⟩

/-- `escrow_credits`, for a positive amount only. -/
def Account.escrowPositive (a : Account) (periodIndex : Nat) (t : CreditType) (amount : Int) :
    Outcome BondError Account :=
  if 0 < amount then a.escrowCredits periodIndex t amount else .ok a

namespace Payout

/-- Credit one holder with its shares, if they come to anything. -/
def payShares (period : Nat) (p : Payout) (holder : Address) (shares : Pools) :
    Outcome BondError Payout := do
  let holderCredits ← okOr (i128 (shares.carbon + shares.biodiversity)) .overflow
  if 0 < holderCredits then do
    let total ← okOr (i128 (p.totalHolderCredits + holderCredits)) .overflow
    let a₁ ← (p.account holder).escrowPositive period .carbon shares.carbon
    let a₂ ← a₁.escrowPositive period .biodiversity shares.biodiversity
    let count ← orTrap (u32 (p.holderCount + 1))
    pure ⟨update p.account holder a₂, total, count⟩
  else .ok p

/-- Credit one holder on its balance at the pinned version. -/
def payHolder (issuer : BondIssuer) (bondId period : Nat) (creditType : CreditType)
    (calculation : CouponCalculation) (totalCredits : Int) (p : Payout) (holder : Address) :
    Outcome BondError Payout := do
  let balance ← invoke (issuer.getHolderBalanceAtVersion bondId holder calculation.balanceVersion)
  if 0 < balance then do
    let shares ← holderShares creditType calculation totalCredits balance
    p.payShares period holder shares
  else .ok p

/-- The loop over the holders from index `i` on, `remaining` rounds. -/
def payHolders (issuer : BondIssuer) (bondId period : Nat) (creditType : CreditType)
    (calculation : CouponCalculation) (totalCredits : Int) (holders : List Address) :
    (remaining i : Nat) → Payout → Outcome BondError Payout
  | 0, _, p => .ok p
  | n + 1, i, p => do
      let holder ← okOr holders[i]? .overflow
      reject (appearsBefore holders holder i = true) .overflow
      let p₁ ← p.payHolder issuer bondId period creditType calculation totalCredits holder
      payHolders issuer bondId period creditType calculation totalCredits holders n (i + 1) p₁

end Payout

/-! ## One batch -/

/-- The informational rate of a result. -/
def creditsPerToken (totalCredits totalSubscribed : Int) : Outcome BondError Int :=
  if 0 < totalSubscribed then checkedRatio totalCredits fixedPoint totalSubscribed else .ok 0

/-- What a completed period leaves undistributed; an incomplete one leaves nothing yet. -/
def undistributedOf (totalCredits cumulative : Int) : Outcome BondError Int :=
  if batch.Complete then okOr (i128 (totalCredits - cumulative)) .overflow else .ok 0

namespace CouponBond

/-- The pools of the report on the state before the batch: converted, discounted and adjusted by
the true-ups, of which a first batch takes all that are open. -/
def batchPools (b : CouponBond) (batch : CouponBatch) (creditType : CreditType)
    (staleness : StalenessState) (report : Report) (conversion : CouponCalculation) :
    Outcome BondError (CouponBond × Int × Pools) := do
  let raw ← creditPools creditType report conversion.normalizedCarbon
  let discounted ← discountPools staleness raw
  let (b₁, trueUp) ←
    b.takeTrueUps (batch.offset = 0 ∧ (b.periodInfo batch.periodIndex).isSome = false)
  let pools ← adjustPools creditType trueUp discounted
  pure (b₁, trueUp, pools)

/-- A positive remainder joins the bond's undistributed total. -/
def addUndistributed (b : CouponBond) (undistributed : Int) : Outcome BondError Int :=
  if 0 < undistributed then okOr (i128 (b.undistributedTotal + undistributed)) .overflow
  else .ok b.undistributedTotal

/-- The bookkeeping of a batch that reaches the end of its list. -/
def completePeriod (b : CouponBond) (record : PerformanceRecord) (undistributed : Int) :
    Outcome BondError CouponBond := do
  let total ← b.addUndistributed undistributed
  let count ← orTrap (u32 (b.periodCount + 1))
  pure { b with
    undistributedTotal := total
    periodCount := count
    performanceHistory := appendPerformanceRecord b.performanceHistory record }

/-- The bookkeeping of a batch. -/
def closeBatch (b : CouponBond) (batch : CouponBatch) (report : Report) (undistributed : Int) :
    Outcome BondError CouponBond :=
  if batch.Complete then
    b.completePeriod ⟨batch.periodIndex, batch.reportId, report.carbonSequestered⟩ undistributed
  else .ok b

/-- The second half of `distribute_coupon_batch`: credit the holders of the batch from the pinned
calculation. -/
def payBatch (issuer : BondIssuer) (b : CouponBond) (batch : CouponBatch) (creditType : CreditType)
    (report : Report) (calculation : CouponCalculation) :
    Outcome BondError (CouponBond × CouponResult) := do
  let totalCredits ← okOr (i128 (calculation.carbonPool + calculation.biodiversityPool)) .overflow
  reject (maxCouponPool < totalCredits) .overflow
  let perToken ← creditsPerToken totalCredits calculation.totalSubscribed
  reject (maxCouponBatchSize < batch.limit ∨ batch.holders.length < batch.offset) .overflow
  let endIndex ← okOr (u32 (batch.offset + batch.limit)) .overflow
  reject (batch.holders.length < endIndex) .overflow
  reject (batch.offset ≠ b.periodBatchCursor batch.periodIndex) .overflow
  let p ← Payout.payHolders issuer batch.bondId batch.periodIndex creditType calculation
    totalCredits batch.holders batch.limit batch.offset ⟨b.account, 0, 0⟩
  let previous := ((b.periodInfo batch.periodIndex).map PeriodInfo.totalCreditsEarned).getD 0
  let cumulative ← okOr (i128 (previous + p.totalHolderCredits)) .overflow
  let undistributed ← undistributedOf batch totalCredits cumulative
  let b' ← closeBatch
    { b with
      account := p.account
      periodInfo := update b.periodInfo batch.periodIndex
        (some (batch.info report cumulative undistributed))
      periodBatchCursor := update b.periodBatchCursor batch.periodIndex endIndex }
    batch report undistributed
  pure (b', ⟨batch.bondId, batch.periodIndex, cumulative, p.holderCount, perToken⟩)

end CouponBond

namespace CouponEngine

/-- What `distribute_coupon_batch` asks the oracle, with its checks. -/
def readOracle (env : Env) (clock : Clock) (s : CouponEngine) (b : CouponBond) (reportId : Nat) :
    Outcome BondError (StalenessState × Report) := do
  let projectId ← okOr b.bondProject .bondNotFound
  let disputed ← orTrap (env.isProjectDisputed projectId)
  reject (disputed = true) .projectDisputedAndFrozen
  let staleness ← orTrap (env.getProjectStalenessState projectId clock.timestamp)
  reject (staleness.currentTier = 2) .oracleStaleManualInterventionRequired
  let report ← orTrap (env.getReport reportId)
  reject (report.status ≠ .verified) .reportNotVerified
  reject (report.projectId ≠ projectId) .bondNotFound
  reject (b.performanceFlag.isSome = true) .performanceFlagged
  let attestations ← orTrap (env.getVerificationCount reportId)
  reject (attestations < s.minPerformanceAttestations) .insufficientAttestations
  pure (staleness, report)

/-- The first half of `distribute_coupon_batch` for a report within bounds: the calculation the
batch pays from, pinned now or earlier, and the record it leaves. -/
def prepareBatch (s : CouponEngine) (issuer : BondIssuer) (b : CouponBond) (batch : CouponBatch)
    (staleness : StalenessState) (report : Report) :
    Outcome BondError (CouponBond × CreditType × CouponCalculation) := do
  let period := batch.periodIndex
  reject (∃ info ∈ b.periodInfo period, info.distributed = true) .overflow
  reject (∃ info ∈ b.periodInfo period, info.reportId ≠ batch.reportId) .invalidReport
  b.validateCycle period report (b.periodInfo period).isSome
  let creditType ← okOr b.bondCreditType .bondNotFound
  let conversion ← s.conversion b period report creditType
  let (b₁, trueUp, pools) ← b.batchPools batch creditType staleness report conversion
  let (b₂, terms) ← b₁.applyTerms issuer batch.bondId period report pools
  let discount := if staleness.currentTier = 1 then staleness.discountBps else 0
  let (b₃, calculation) ← b₂.pinCalculation issuer batch.bondId period conversion terms discount
    trueUp
  pure (b₃, creditType, calculation)

/-- `distribute_coupon_batch` on the bond's record. A report out of bounds raises the flag and pays
nothing; the call still succeeds. -/
def distribute (env : Env) (clock : Clock) (issuer : BondIssuer) (s : CouponEngine)
    (batch : CouponBatch) : Outcome BondError (CouponBond × CouponResult) := do
  let b := s.bond batch.bondId
  b.requireNoMigrationWindow
  let (staleness, report) ← s.readOracle env clock b batch.reportId
  let flagged ← b.validatePerformanceUpdate clock batch.reportId report.carbonSequestered
  match flagged with
  | some flag =>
      pure ({ b with performanceFlag := some flag }, ⟨batch.bondId, batch.periodIndex, 0, 0, 0⟩)
  | none => do
      let (b₁, creditType, calculation) ← s.prepareBatch issuer b batch staleness report
      b₁.payBatch issuer batch creditType report calculation

end CouponEngine

end VerdantBond
