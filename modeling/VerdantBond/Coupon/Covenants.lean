import VerdantBond.Coupon.State
import VerdantBond.Issuer.EntryPoints

set_option autoImplicit false

/-! # CouponEngine: covenants

`covenants.rs`: a tranche may carry performance and funding covenants. The first batch of a period
evaluates them once, records the cycle, and while the tranche is stepped down cuts both pools to a
fraction; every later batch of the period reads the recorded cycle.
-/

namespace VerdantBond

open Function

/-- The two credit pools of a coupon, in minor units. -/
structure Pools where
  carbon : Int
  biodiversity : Int
  deriving DecidableEq, Repr

/-- `transition`. Equality with a threshold is clean; the counters saturate at `u32`. -/
def CovenantConfig.transition (config : CovenantConfig) (previous : CovenantState)
    (performance funding : Int) (periodEnd : Nat) : CovenantState × Bool :=
  if performance < config.minPerformance ∨ funding < config.minRedemptionFunding then
    let breaches := min (min (previous.consecutiveBreaches + 1) u32Max) config.breachCycles
    ({ steppedDown := if config.breachCycles ≤ breaches then true else previous.steppedDown
       consecutiveBreaches := breaches
       consecutiveClean := 0
       lastPeriodEnd := periodEnd }, true)
  else
    let clean := min (min (previous.consecutiveClean + 1) u32Max) config.recoveryCycles
    ({ steppedDown := if config.recoveryCycles ≤ clean then false else previous.steppedDown
       consecutiveBreaches := 0
       consecutiveClean := clean
       lastPeriodEnd := periodEnd }, false)

/-- The cycle `apply_terms` records: the transition, and both pools at the coupon rate it leaves. -/
def CovenantConfig.evaluate (config : CovenantConfig) (previous : CovenantState) (report : Report)
    (funding : Int) (pools : Pools) : Outcome BondError CovenantCycle := do
  let (state, breached) := config.transition previous report.carbonSequestered funding
    report.periodEnd
  let couponBps := if state.steppedDown then config.steppedCouponBps else 10000
  let carbonPool ← checkedRatio pools.carbon couponBps 10000
  let biodiversityPool ← checkedRatio pools.biodiversity couponBps 10000
  pure { reportId := report.id, performance := report.carbonSequestered
         redemptionFunding := funding, breached, state, couponBps, carbonPool, biodiversityPool }

theorem CovenantConfig.evaluate_ok {config : CovenantConfig} {previous : CovenantState}
    {report : Report} {funding : Int} {pools : Pools} {cycle : CovenantCycle}
    (h : config.evaluate previous report funding pools = .ok cycle) :
    checkedRatio pools.carbon cycle.couponBps 10000 = .ok cycle.carbonPool ∧
      checkedRatio pools.biodiversity cycle.couponBps 10000 = .ok cycle.biodiversityPool := by
  simp only [evaluate, bind_ok_iff, pure_ok_iff] at h
  obtain ⟨carbonPool, hcarbon, biodiversityPool, hbio, rfl⟩ := h
  exact ⟨hcarbon, hbio⟩

namespace CouponBond

/-- `get_covenant_cycle`: the live cycle if it is the period's, else the stored one. -/
def getCovenantCycle (b : CouponBond) (periodIndex : Nat) : Option CovenantCycle :=
  match b.covenantLiveCycle with
  | some (period, cycle) => if period = periodIndex then some cycle else b.covenantCycle periodIndex
  | none => b.covenantCycle periodIndex

/-- `validate_cycle`: with covenants, periods are paid in order and reports do not overlap. -/
def validateCycle (b : CouponBond) (period : Nat) (report : Report) (existing : Bool) :
    Outcome BondError Unit :=
  match b.covenant with
  | none => .ok ()
  | some _ => do
      reject (period ≠ b.periodCount) .invalidCovenant
      reject (existing = false ∧ (report.periodStart < b.covenantState.lastPeriodEnd ∨
        report.periodEnd ≤ report.periodStart)) .invalidCovenant

/-- `apply_terms`, with the record it leaves. -/
def applyTerms (issuer : BondIssuer) (bondId : Nat) (b : CouponBond) (period : Nat)
    (report : Report) (pools : Pools) : Outcome BondError (CouponBond × Pools) :=
  match b.covenant with
  | none => .ok (b, pools)
  | some config =>
      match b.getCovenantCycle period with
      | some cycle => do
          reject (cycle.reportId ≠ report.id) .invalidCovenant
          pure (b, ⟨cycle.carbonPool, cycle.biodiversityPool⟩)
      | none => do
          let cycle ← config.evaluate b.covenantState report (issuer.getRedemptionPool bondId) pools
          pure ({ b with
            covenantCycle := update b.covenantCycle period (some cycle)
            covenantLiveCycle := some (period, cycle)
            covenantState := cycle.state }, ⟨cycle.carbonPool, cycle.biodiversityPool⟩)

/-- The record `configure_covenant` leaves. -/
def configureCovenant (b : CouponBond) (config : CovenantConfig) : Outcome BondError CouponBond := do
  reject (b.bondProject.isSome = false) .bondNotFound
  reject (config.minPerformance < 0 ∨ config.minRedemptionFunding < 0 ∨ config.breachCycles = 0 ∨
    config.recoveryCycles = 0 ∨ 10000 ≤ config.steppedCouponBps ∨ b.periodCount ≠ 0 ∨
    (b.periodInfo 0).isSome = true ∨ b.covenant.isSome = true) .invalidCovenant
  pure { b with covenant := some config }

/-- What `apply_terms` does: nothing without covenants, reads the recorded cycle if there is one,
and otherwise records the cycle it evaluates, whose pools it returns. -/
theorem applyTerms_ok {issuer : BondIssuer} {bondId : Nat} {b b' : CouponBond} {period : Nat}
    {report : Report} {pools pools' : Pools}
    (h : b.applyTerms issuer bondId period report pools = .ok (b', pools')) :
    (b.covenant = none ∧ b' = b ∧ pools' = pools) ∨
      (∃ cycle, b.getCovenantCycle period = some cycle ∧ b' = b ∧
        pools' = ⟨cycle.carbonPool, cycle.biodiversityPool⟩) ∨
      ∃ cycle : CovenantCycle, b.getCovenantCycle period = none ∧
        checkedRatio pools.carbon cycle.couponBps 10000 = .ok cycle.carbonPool ∧
        checkedRatio pools.biodiversity cycle.couponBps 10000 = .ok cycle.biodiversityPool ∧
        b' = { b with covenantCycle := update b.covenantCycle period (some cycle)
                      covenantLiveCycle := some (period, cycle)
                      covenantState := cycle.state } ∧
        pools' = ⟨cycle.carbonPool, cycle.biodiversityPool⟩ := by
  unfold applyTerms at h
  cases hcov : b.covenant with
  | none =>
      simp only [hcov, Except.ok.injEq, Prod.mk.injEq] at h
      exact .inl ⟨rfl, h.1.symm, h.2.symm⟩
  | some config =>
      refine .inr ?_
      cases hcycle : b.getCovenantCycle period with
      | some cycle =>
          simp only [hcov, hcycle, bind_ok_iff, reject_ok_iff, pure_ok_iff, exists_unit_iff,
            Prod.mk.injEq] at h
          obtain ⟨-, rfl, rfl⟩ := h
          exact .inl ⟨cycle, rfl, rfl, rfl⟩
      | none =>
          simp only [hcov, hcycle, bind_ok_iff, pure_ok_iff, Prod.mk.injEq] at h
          obtain ⟨cycle, hcycle, rfl, rfl⟩ := h
          obtain ⟨hcarbon, hbio⟩ := CovenantConfig.evaluate_ok hcycle
          exact .inr ⟨cycle, rfl, hcarbon, hbio, rfl, rfl⟩

theorem configureCovenant_ok {b b' : CouponBond} {config : CovenantConfig}
    (h : b.configureCovenant config = .ok b') : b' = { b with covenant := some config } := by
  simp only [configureCovenant, bind_ok_iff, reject_ok_iff, pure_ok_iff, exists_unit_iff] at h
  obtain ⟨-, -, rfl⟩ := h
  rfl

end CouponBond

end VerdantBond
