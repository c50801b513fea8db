import VerdantBond.Coupon.Covenants

set_option autoImplicit false

/-! # CouponEngine: methodology equivalence and the pinned calculation

`equivalence.rs`: governance publishes versioned tables of conversion factors. The first batch of a
period converts the report with the table of the moment and pins the inputs, the pools and the
balance snapshot in a `CouponCalculation`; every later batch of the period takes them from there.
-/

namespace VerdantBond

open Function

/-- A factor a table may contain. -/
def EquivalenceFactor.InBounds (factor : EquivalenceFactor) : Prop :=
  0 < factor.numerator ∧ 0 < factor.denominator ∧ factor.numerator ≤ maxEquivalenceFactor ∧
    factor.denominator ≤ maxEquivalenceFactor

instance (factor : EquivalenceFactor) : Decidable factor.InBounds :=
  inferInstanceAs (Decidable (_ ∧ _))

/-- `get_coupon_calculation`: the live calculation if it is the period's, else the stored one. -/
def CouponBond.getCouponCalculation (b : CouponBond) (periodIndex : Nat) :
    Option CouponCalculation :=
  match b.couponLiveCalculation with
  | some (period, calculation) =>
      if period = periodIndex then some calculation else b.couponCalculation periodIndex
  | none => b.couponCalculation periodIndex

/-- Carbon is converted for every bond but a pure biodiversity one. -/
def converts (creditType : CreditType) : Bool := creditType ≠ .biodiversity

namespace CouponEngine

/-- The factor `conversion` uses: the identity before the first table and where nothing is
converted. -/
def factorFor (s : CouponEngine) (report : Report) (creditType : CreditType) :
    Outcome BondError EquivalenceFactor :=
  if s.equivalenceVersion = 0 ∨ converts creditType = false then
    .ok ⟨report.methodology, 1, 1⟩
  else do
    let table ← okOr (s.equivalenceTable s.equivalenceVersion) .invalidEquivalence
    okOr (table.factors.find? (fun factor => factor.methodology = report.methodology))
      .unknownEquivalence

/-- The report's carbon in the reference unit. -/
def normalize (report : Report) (creditType : CreditType) (factor : EquivalenceFactor) :
    Outcome BondError Int :=
  if converts creditType then
    checkedRatio report.carbonSequestered factor.numerator factor.denominator
  else .ok 0

/-- `conversion`: the pinned calculation if there is one, else a fresh one without pools. -/
def conversion (s : CouponEngine) (b : CouponBond) (period : Nat) (report : Report)
    (creditType : CreditType) : Outcome BondError CouponCalculation :=
  match b.getCouponCalculation period with
  | some calculation => do
      reject (calculation.reportId ≠ report.id) .invalidReport
      pure calculation
  | none => do
      -- a period that was started without a calculation is never recomputed
      reject ((b.periodInfo period).isSome = true) .invalidEquivalence
      reject (report.carbonSequestered < 0) .invalidReport
      let factor ← s.factorFor report creditType
      let normalized ← normalize report creditType factor
      pure { tableVersion := s.equivalenceVersion
             reportId := report.id
             methodology := report.methodology
             rawCarbon := report.carbonSequestered
             normalizedCarbon := normalized
             factorNumerator := factor.numerator
             factorDenominator := factor.denominator
             carbonConversionApplied := converts creditType
             stalenessDiscountBps := 0
             trueUpAmount := 0
             covenantBps := 10000
             carbonPool := 0
             biodiversityPool := 0
             balanceVersion := 0
             totalSubscribed := 0 }

end CouponEngine

/-- `pin_calculation`, with the record it leaves. -/
def CouponBond.pinCalculation (issuer : BondIssuer) (bondId : Nat) (b : CouponBond) (period : Nat)
    (calculation : CouponCalculation) (pools : Pools) (discount : Nat) (trueUp : Int) :
    Outcome BondError (CouponBond × CouponCalculation) :=
  match b.getCouponCalculation period with
  | some existing => .ok (b, existing)
  | none => do
      let version ← invoke (issuer.getBalanceVersion bondId)
      let totalSubscribed ← invoke (issuer.totalSubscribedAtVersion bondId version)
      let pinned : CouponCalculation :=
        { calculation with
          balanceVersion := version
          totalSubscribed
          carbonPool := pools.carbon
          biodiversityPool := pools.biodiversity
          stalenessDiscountBps := discount
          trueUpAmount := trueUp
          covenantBps := ((b.getCovenantCycle period).map CovenantCycle.couponBps).getD 10000 }
      pure ({ b with
        couponCalculation := update b.couponCalculation period (some pinned)
        couponLiveCalculation := some (period, pinned) }, pinned)

/-- `replay_coupon_conversion`: the normalization, again, from the recorded factor. -/
def CouponBond.replayCouponConversion (b : CouponBond) (periodIndex : Nat) :
    Outcome BondError Int := do
  let calculation ← okOr (b.getCouponCalculation periodIndex) .invalidEquivalence
  if calculation.carbonConversionApplied then
    checkedRatio calculation.rawCarbon calculation.factorNumerator calculation.factorDenominator
  else .ok 0

namespace CouponEngine

/-- `set_equivalence_governance`: bound once. -/
def setEquivalenceGovernance (env : Env) (s : CouponEngine) (caller governance : Address)
    (nonce : Nat) : Outcome BondError CouponEngine := do
  requireAuth env caller
  s.requireAdmin caller
  reject (nonce ≠ s.nonce caller) .invalidNonce
  reject (s.equivalenceGovernance.isSome = true ∨ governance = s.self) .invalidEquivalence
  let s₁ ← s.consumeNonceChecked caller nonce
  pure { s₁ with equivalenceGovernance := some governance }

/-- `publish_equivalence`, with the new version. The factors are checked one by one, each against
the earlier ones for its methodology; all these checks fail with the same error. -/
def publishEquivalence (env : Env) (clock : Clock) (s : CouponEngine) (caller : Address)
    (expectedVersion : Nat) (factors : List EquivalenceFactor) (rationaleHash : Bytes32)
    (nonce : Nat) : Outcome BondError (CouponEngine × Nat) := do
  requireAuth env caller
  let governance ← okOr s.equivalenceGovernance .notInitialized
  reject (caller ≠ governance) .unauthorized
  reject (nonce ≠ s.nonce caller) .invalidNonce
  reject (s.equivalenceVersion ≠ expectedVersion ∨ factors = [] ∨
    maxEquivalenceEntries < factors.length ∨ rationaleHash = ⟨0⟩) .invalidEquivalence
  reject (¬ ∀ factor ∈ factors, factor.InBounds) .invalidEquivalence
  reject (¬ (factors.map EquivalenceFactor.methodology).Nodup) .invalidEquivalence
  let version ← okOr (u32 (s.equivalenceVersion + 1)) .overflow
  let s₁ ← s.consumeNonceChecked caller nonce
  pure ({ s₁ with
    equivalenceTable := update s.equivalenceTable version
      (some ⟨version, factors, rationaleHash, clock.timestamp, governance⟩)
    equivalenceVersion := version }, version)

/-! ## What they do -/

/-- Every published factor is in bounds. -/
def TablesInBounds (s : CouponEngine) : Prop :=
  ∀ version table, s.equivalenceTable version = some table → ∀ factor ∈ table.factors,
    factor.InBounds

/-- A publication adds a table of factors in bounds, and touches no bond. -/
theorem publishEquivalence_ok {env : Env} {clock : Clock} {s s' : CouponEngine} {caller : Address}
    {expectedVersion : Nat} {factors : List EquivalenceFactor} {rationaleHash : Bytes32}
    {nonce version : Nat}
    (h : s.publishEquivalence env clock caller expectedVersion factors rationaleHash nonce
      = .ok (s', version)) :
    s'.bond = s.bond ∧ (s.TablesInBounds → s'.TablesInBounds) := by
  simp only [publishEquivalence, bind_ok_iff, reject_ok_iff, okOr_ok_iff, pure_ok_iff,
    exists_unit_iff, not_not, Prod.mk.injEq] at h
  obtain ⟨-, governance, -, -, -, -, hbounds, -, next, -, s₁, hnonce, rfl, rfl⟩ := h
  rw [consumeNonceChecked_ok hnonce]
  refine ⟨rfl, fun hs v table htable => ?_⟩
  change update s.equivalenceTable next _ v = some table at htable
  by_cases hv : v = next
  · rw [hv, update_self] at htable
    cases htable
    exact hbounds
  · rw [update_of_ne hv] at htable
    exact hs v table htable

theorem conversion_ok {s : CouponEngine} {b : CouponBond} {period : Nat} {report : Report}
    {creditType : CreditType} {c : CouponCalculation}
    (h : s.conversion b period report creditType = .ok c) :
    b.getCouponCalculation period = some c ∨
      (b.getCouponCalculation period = none ∧ b.periodInfo period = none ∧
        0 ≤ report.carbonSequestered ∧ ∃ factor, s.factorFor report creditType = .ok factor ∧
          normalize report creditType factor = .ok c.normalizedCarbon) := by
  unfold conversion at h
  cases hcalc : b.getCouponCalculation period with
  | some calculation =>
      simp only [hcalc, bind_ok_iff, reject_ok_iff, pure_ok_iff, exists_unit_iff] at h
      exact .inl (congrArg some h.2)
  | none =>
      simp only [hcalc, bind_ok_iff, reject_ok_iff, pure_ok_iff, exists_unit_iff, not_lt] at h
      obtain ⟨hinfo, hraw, factor, hfactor, normalized, hnorm, rfl⟩ := h
      exact .inr ⟨rfl, by simpa using hinfo, hraw, factor, hfactor, hnorm⟩

end CouponEngine

theorem CouponBond.pinCalculation_ok {issuer : BondIssuer} {bondId : Nat} {b b' : CouponBond}
    {period : Nat} {calculation c : CouponCalculation} {pools : Pools} {discount : Nat}
    {trueUp : Int}
    (h : b.pinCalculation issuer bondId period calculation pools discount trueUp = .ok (b', c)) :
    (b.getCouponCalculation period = some c ∧ b' = b) ∨
      (b.getCouponCalculation period = none ∧
        issuer.getBalanceVersion bondId = .ok c.balanceVersion ∧
        issuer.totalSubscribedAtVersion bondId c.balanceVersion = .ok c.totalSubscribed ∧
        c.carbonPool = pools.carbon ∧ c.biodiversityPool = pools.biodiversity ∧
        b' = { b with couponCalculation := update b.couponCalculation period (some c)
                      couponLiveCalculation := some (period, c) }) := by
  unfold pinCalculation at h
  cases hcalc : b.getCouponCalculation period with
  | some existing =>
      simp only [hcalc, Except.ok.injEq, Prod.mk.injEq] at h
      exact .inl ⟨congrArg some h.2, h.1.symm⟩
  | none =>
      simp only [hcalc, bind_ok_iff, invoke_ok_iff, pure_ok_iff, Prod.mk.injEq] at h
      obtain ⟨version, hversion, total, htotal, rfl, rfl⟩ := h
      exact .inr ⟨rfl, hversion, htotal, rfl, rfl, rfl⟩

end VerdantBond
