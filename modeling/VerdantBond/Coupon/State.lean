import VerdantBond.Shared

set_option autoImplicit false

/-! # CouponEngine: storage

The storage of `contracts/coupon-engine`. As in the issuer, every key that carries a bond id is a
field of that bond's record `CouponBond`. The keys that carry a bond id and a holder are further
grouped into one `Account` for each holder: the combined balance, the balance for each credit
type, and the itemized entries that say where the credits came from.

The addresses of the issuer and the oracle consumer are fixed by the constructor. The issuer is
the modelled one and is passed to the functions that read it; the oracle's answers are part of
the environment of a call.
-/

namespace VerdantBond

open Function

/-! ## Constants -/

def fixedPoint : Int := 10000000
def creditDivisor : Int := 1000
def creditMinorUnits : Int := 1000000
def habitatCreditRate : Int := 1000000
def speciesCreditRate : Int := 100000
def unitCreditRate : Int := 1000000
def maxCouponBatchSize : Nat := 100
def maxWaterfallTranches : Nat := 100
def maxCouponPool : Int := 1000000000000000000
def maxPerformanceIncreaseBps : Int := 10000
def maxPerformanceDecreaseBps : Int := 9000
def minPerformanceAttestationsDefault : Nat := 2
def trailingHistoryPeriods : Nat := 8
def maxEquivalenceEntries : Nat := 32
def maxEquivalenceFactor : Int := 1000000000

/-! ## Records -/

structure PeriodInfo where
  periodIndex : Nat
  startTime : Nat
  endTime : Nat
  totalCreditsEarned : Int
  distributed : Bool
  reportId : Nat
  undistributed : Int
  deriving DecidableEq, Repr

structure CouponResult where
  bondId : Nat
  periodIndex : Nat
  totalCredits : Int
  holderCount : Nat
  creditsPerToken : Int
  deriving DecidableEq, Repr

/-- An obligation of one waterfall priority; a lower priority is senior. -/
structure WaterfallTranche where
  priority : Nat
  trancheBondId : Nat
  carbonDue : Int
  biodiversityDue : Int
  deriving DecidableEq, Repr

structure WaterfallAllocation where
  priority : Nat
  trancheBondId : Nat
  snapshotVersion : Nat
  carbonDue : Int
  carbonPaid : Int
  biodiversityDue : Int
  biodiversityPaid : Int
  deriving DecidableEq, Repr

structure WaterfallResult where
  allocations : List WaterfallAllocation
  carry : List WaterfallTranche
  carbonRemaining : Int
  biodiversityRemaining : Int
  deriving DecidableEq, Repr

structure ClaimableCreditDetail where
  periodIndex : Nat
  reportId : Nat
  startTime : Nat
  endTime : Nat
  creditType : CreditType
  amount : Int
  deriving DecidableEq, Repr

structure PerformanceRecord where
  periodIndex : Nat
  reportId : Nat
  carbonSequestered : Int
  deriving DecidableEq, Repr

inductive PerformanceAnomaly where
  | spike
  | drop
  deriving DecidableEq, Repr

structure PerformanceFlag where
  reportId : Nat
  reason : PerformanceAnomaly
  previousValue : Int
  reportedValue : Int
  flaggedAt : Nat
  deriving DecidableEq, Repr

structure MigrationWindow where
  startedAt : Nat
  snapshotUndistributed : Int
  snapshotPeriodCount : Nat
  deriving DecidableEq, Repr

structure CovenantConfig where
  minPerformance : Int
  minRedemptionFunding : Int
  breachCycles : Nat
  recoveryCycles : Nat
  steppedCouponBps : Nat
  deriving DecidableEq, Repr

structure CovenantState where
  steppedDown : Bool
  consecutiveBreaches : Nat
  consecutiveClean : Nat
  lastPeriodEnd : Nat
  deriving DecidableEq, Repr

structure CovenantCycle where
  reportId : Nat
  performance : Int
  redemptionFunding : Int
  breached : Bool
  state : CovenantState
  couponBps : Nat
  carbonPool : Int
  biodiversityPool : Int
  deriving DecidableEq, Repr

structure EquivalenceFactor where
  methodology : Symbol
  numerator : Int
  denominator : Int
  deriving DecidableEq, Repr

structure EquivalenceTable where
  version : Nat
  factors : List EquivalenceFactor
  rationaleHash : Bytes32
  publishedAt : Nat
  governance : Address
  deriving DecidableEq, Repr

/-- The inputs and the final pools of one coupon, pinned by its first batch. -/
structure CouponCalculation where
  tableVersion : Nat
  reportId : Nat
  methodology : Symbol
  rawCarbon : Int
  normalizedCarbon : Int
  factorNumerator : Int
  factorDenominator : Int
  carbonConversionApplied : Bool
  stalenessDiscountBps : Nat
  trueUpAmount : Int
  covenantBps : Nat
  carbonPool : Int
  biodiversityPool : Int
  balanceVersion : Nat
  totalSubscribed : Int
  deriving DecidableEq, Repr

/-! ## Holder accounts -/

/-- Where a holder's credits are itemized: `period p t` is the key `PeriodHolder(bond, p, holder,
t)` and `waterfall t` is the key `WaterfallAccrued(bond, holder, t)`. -/
inductive Entry where
  | period (periodIndex : Nat) (creditType : CreditType)
  | waterfall (creditType : CreditType)
  deriving DecidableEq, Repr

def Entry.creditType : Entry → CreditType
  | .period _ t => t
  | .waterfall t => t

/-- Everything stored under one bond and one holder. The same credits appear three times: in the
combined balance, in the balance of their type and in the itemized entry they came from. -/
structure Account where
  escrowedCredits : Int
  escrowedCreditsByType : CreditType → Int
  itemized : Entry → Int

namespace Account

def empty : Account where
  escrowedCredits := 0
  escrowedCreditsByType := fun _ => 0
  itemized := fun _ => 0

def periodHolder (a : Account) (periodIndex : Nat) (t : CreditType) : Int :=
  a.itemized (.period periodIndex t)

def waterfallAccrued (a : Account) (t : CreditType) : Int := a.itemized (.waterfall t)

end Account

/-! ## The contract -/

/-- Everything the engine stores under one bond id. `covenantState` is read with a default, the
state before any cycle. -/
structure CouponBond where
  bondProject : Option Bytes32
  bondCreditType : Option CreditType
  periodInfo : Nat → Option PeriodInfo
  periodBatchCursor : Nat → Nat
  periodCount : Nat
  account : Address → Account
  undistributedTotal : Int
  migrationWindow : Option MigrationWindow
  performanceHistory : List PerformanceRecord
  performanceFlag : Option PerformanceFlag
  trueUpAdjustment : Nat → Option TrueUpAdjustment
  trueUpCount : Nat
  waterfallCarry : List WaterfallTranche
  waterfallAllocations : List WaterfallAllocation
  waterfallSettlementCount : Nat
  waterfallSettlementAllocations : Nat → List WaterfallAllocation
  waterfallClaimed : Nat → Nat → Address → Bool
  covenant : Option CovenantConfig
  covenantState : CovenantState
  covenantCycle : Nat → Option CovenantCycle
  covenantLiveCycle : Option (Nat × CovenantCycle)
  couponCalculation : Nat → Option CouponCalculation
  couponLiveCalculation : Option (Nat × CouponCalculation)

/-- A bond id under which the engine stores nothing. -/
def CouponBond.unregistered : CouponBond where
  bondProject := none
  bondCreditType := none
  periodInfo := fun _ => none
  periodBatchCursor := fun _ => 0
  periodCount := 0
  account := fun _ => Account.empty
  undistributedTotal := 0
  migrationWindow := none
  performanceHistory := []
  performanceFlag := none
  trueUpAdjustment := fun _ => none
  trueUpCount := 0
  waterfallCarry := []
  waterfallAllocations := []
  waterfallSettlementCount := 0
  waterfallSettlementAllocations := fun _ => []
  waterfallClaimed := fun _ _ _ => false
  covenant := none
  covenantState := ⟨false, 0, 0, 0⟩
  covenantCycle := fun _ => none
  covenantLiveCycle := none
  couponCalculation := fun _ => none
  couponLiveCalculation := none

/-- The contract's storage and its own address. -/
structure CouponEngine where
  self : Address
  admin : Option Address
  nonce : Address → Nat
  minPerformanceAttestations : Nat
  equivalenceGovernance : Option Address
  equivalenceVersion : Nat
  equivalenceTable : Nat → Option EquivalenceTable
  bond : Nat → CouponBond

/-- `__constructor`. -/
def CouponEngine.deploy (self admin : Address) : CouponEngine where
  self := self
  admin := some admin
  nonce := fun _ => 0
  minPerformanceAttestations := minPerformanceAttestationsDefault
  equivalenceGovernance := none
  equivalenceVersion := 0
  equivalenceTable := fun _ => none
  bond := fun _ => CouponBond.unregistered

/-- `checked_ratio`. -/
def checkedRatio (value multiplier divisor : Int) : Outcome BondError Int := do
  reject (divisor ≤ 0) .overflow
  let product ← okOr (i128 (value * multiplier)) .overflow
  okOr (checkedDiv product divisor) .overflow

variable {value multiplier divisor r : Int}

theorem checkedRatio_ok (h : checkedRatio value multiplier divisor = .ok r) :
    0 < divisor ∧ r = (value * multiplier).tdiv divisor := by
  simp only [checkedRatio, bind_ok_iff, reject_ok_iff, okOr_ok_iff, i128_eq_some,
    checkedDiv_eq_some, exists_unit_iff, not_le] at h
  obtain ⟨hpos, product, ⟨-, rfl⟩, -, -, rfl⟩ := h
  exact ⟨hpos, rfl⟩

/-- A share of a non-negative pool, rounded down. -/
theorem checkedRatio_floor (hv : 0 ≤ value) (hm : 0 ≤ multiplier)
    (h : checkedRatio value multiplier divisor = .ok r) :
    r = value * multiplier / divisor ∧ 0 ≤ r := by
  obtain ⟨hpos, rfl⟩ := checkedRatio_ok h
  have hprod : 0 ≤ value * multiplier := mul_nonneg hv hm
  rw [Int.tdiv_eq_ediv_of_nonneg hprod]
  exact ⟨rfl, Int.ediv_nonneg hprod (le_of_lt hpos)⟩

namespace CouponEngine

variable (s : CouponEngine)

/-- Replace the record of one bond. -/
def setBond (bondId : Nat) (b : CouponBond) : CouponEngine :=
  { s with bond := update s.bond bondId b }

@[simp] theorem setBond_bond_same (bondId : Nat) (b : CouponBond) :
    (s.setBond bondId b).bond bondId = b := update_self ..

theorem setBond_bond_other {bondId id : Nat} (b : CouponBond) (h : id ≠ bondId) :
    (s.setBond bondId b).bond id = s.bond id := update_of_ne h ..

/-! ## Authority and nonces -/

/-- `require_admin`. -/
def requireAdmin (caller : Address) : Outcome BondError Unit := do
  let admin ← okOr s.admin .notInitialized
  reject (caller ≠ admin) .unauthorized

/-- The nonce check at the head of most entry points, with its unchecked increment. -/
def consumeNonce (addr : Address) (nonce : Nat) : Outcome BondError CouponEngine := do
  reject (nonce ≠ s.nonce addr) .invalidNonce
  let next ← orTrap (u64 (s.nonce addr + 1))
  pure { s with nonce := update s.nonce addr next }

/-- The nonce check of the later entry points, whose increment is checked. -/
def consumeNonceChecked (addr : Address) (nonce : Nat) : Outcome BondError CouponEngine := do
  reject (nonce ≠ s.nonce addr) .invalidNonce
  let next ← okOr (u64 (s.nonce addr + 1)) .overflow
  pure { s with nonce := update s.nonce addr next }

variable {s s' : CouponEngine} {addr : Address} {nonce : Nat}

theorem consumeNonce_ok (h : s.consumeNonce addr nonce = .ok s') :
    s' = { s with nonce := update s.nonce addr (s.nonce addr + 1) } := by
  simp only [consumeNonce, bind_ok_iff, reject_ok_iff, orTrap_ok_iff, u64_eq_some, pure_ok_iff] at h
  obtain ⟨-, -, _, ⟨-, rfl⟩, rfl⟩ := h
  rfl

theorem consumeNonceChecked_ok (h : s.consumeNonceChecked addr nonce = .ok s') :
    s' = { s with nonce := update s.nonce addr (s.nonce addr + 1) } := by
  simp only [consumeNonceChecked, bind_ok_iff, reject_ok_iff, okOr_ok_iff, u64_eq_some,
    pure_ok_iff] at h
  obtain ⟨-, -, _, ⟨-, rfl⟩, rfl⟩ := h
  rfl

end CouponEngine

/-- `require_no_migration_window`. -/
def CouponBond.requireNoMigrationWindow (b : CouponBond) : Outcome BondError Unit :=
  reject (b.migrationWindow.isSome = true) .migrationInProgress

theorem CouponBond.requireNoMigrationWindow_ok_iff {b : CouponBond} :
    b.requireNoMigrationWindow = .ok () ↔ b.migrationWindow = none := by
  unfold requireNoMigrationWindow
  rw [reject_ok_iff, Option.not_isSome_iff_eq_none]

end VerdantBond
