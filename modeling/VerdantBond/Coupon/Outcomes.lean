import VerdantBond.Coupon.Pinned

set_option autoImplicit false

/-! # CouponEngine: the outcome of a distribution, to the last field

`Coupon/Batches.lean` says what a batch does to the credits. This module says what it does to the rest
of the record, stage by stage: the checks of the covenants, the true-ups a first batch takes, the
cycle it records, the calculation it pins, and the totals a completed period moves. `BatchOutcome` is
the one inversion of `distribute_coupon_batch` from which the facts about true-ups, covenants,
replays and migrations are derived.
-/

namespace VerdantBond

open Function CouponBond TrueUpAdjustment

/-! ## True-ups -/

/-- An adjustment that was taken. -/
def TrueUpAdjustment.taken (a : TrueUpAdjustment) : TrueUpAdjustment := { a with applied := true }

/-- What an adjustment still has to bring. -/
def TrueUpAdjustment.openAmount (a : TrueUpAdjustment) : Int :=
  if a.applied then 0 else a.adjustmentAmount

/-- What the adjustment under an index still has to bring. -/
def openAmountAt (adjustment : Nat → Option TrueUpAdjustment) (i : Nat) : Int :=
  ((adjustment i).map TrueUpAdjustment.openAmount).getD 0

theorem TrueUps.take_ok {t t' : TrueUps} {i : Nat} (h : t.take i = .ok t') :
    t'.adjustment = update t.adjustment i ((t.adjustment i).map taken) ∧
      t'.accumulated = t.accumulated + openAmountAt t.adjustment i := by
  unfold TrueUps.take at h
  cases ha : t.adjustment i with
  | none =>
      simp only [ha, Except.ok.injEq] at h
      subst h
      refine ⟨?_, ?_⟩
      · rw [Option.map_none, ← ha, update_eq_self]
      · simp only [openAmountAt, ha, Option.map_none, Option.getD_none, add_zero]
  | some a =>
      simp only [ha] at h
      by_cases happlied : a.applied = true
      · rw [if_pos happlied, Except.ok.injEq] at h
        subst h
        have hsame : a.taken = a := by
          unfold taken
          rw [← happlied]
        refine ⟨?_, ?_⟩
        · rw [Option.map_some, hsame, ← ha, update_eq_self]
        · simp only [openAmountAt, ha, Option.map_some, Option.getD_some,
            openAmount, if_pos happlied, add_zero]
      · rw [if_neg happlied] at h
        simp only [bind_ok_iff, okOr_ok_iff, i128_eq_some, pure_ok_iff] at h
        obtain ⟨_, ⟨-, rfl⟩, rfl⟩ := h
        refine ⟨rfl, ?_⟩
        simp only [openAmountAt, ha, Option.map_some, Option.getD_some, openAmount, if_neg happlied]

/-- **The loop over the true-ups** takes all of them, and adds up the open ones. -/
theorem TrueUps.foldlM_take_ok {adjustment : Nat → Option TrueUpAdjustment} (n : Nat)
    {t : TrueUps} (h : (List.range n).foldlM TrueUps.take ⟨adjustment, 0⟩ = .ok t) :
    (∀ i, t.adjustment i = if i < n then (adjustment i).map taken else adjustment i) ∧
      t.accumulated = ((List.range n).map (openAmountAt adjustment)).sum := by
  induction n generalizing t with
  | zero =>
      simp only [List.range_zero, List.foldlM_nil, pure_ok_iff] at h
      subst h
      exact ⟨fun i => rfl, rfl⟩
  | succ n ih =>
      simp only [List.range_succ, List.foldlM_append, List.foldlM_cons, List.foldlM_nil,
        bind_ok_iff, pure_ok_iff] at h
      obtain ⟨t₁, h₁, t₂, h₂, rfl⟩ := h
      obtain ⟨hadj₁, hacc₁⟩ := ih h₁
      obtain ⟨hadj₂, hacc₂⟩ := TrueUps.take_ok h₂
      have hn : t₁.adjustment n = adjustment n := by
        rw [hadj₁, if_neg (lt_irrefl n)]
      refine ⟨fun i => ?_, ?_⟩
      · rw [hadj₂]
        by_cases hi : i = n
        · subst hi
          rw [update_self, hn, if_pos (Nat.lt_succ_self i)]
        · rw [update_of_ne hi, hadj₁]
          by_cases hlt : i < n
          · rw [if_pos hlt, if_pos (by omega)]
          · rw [if_neg hlt, if_neg (by omega)]
      · have hopen : openAmountAt t₁.adjustment n = openAmountAt adjustment n := by
          unfold openAmountAt
          rw [hn]
        rw [hacc₂, hacc₁, hopen, List.range_succ, List.map_append, List.sum_append,
          List.map_singleton, List.sum_singleton]

/-! ## Covenants -/

namespace CouponBond

/-- The record with the cycle of a period. -/
def cycled (b : CouponBond) (period : Nat) (cycle : CovenantCycle) : CouponBond :=
  { b with
    covenantCycle := update b.covenantCycle period (some cycle)
    covenantLiveCycle := some (period, cycle)
    covenantState := cycle.state }

/-- The record with the calculation of a period. -/
def withCalculation (b : CouponBond) (period : Nat) (c : CouponCalculation) : CouponBond :=
  { b with
    couponCalculation := update b.couponCalculation period (some c)
    couponLiveCalculation := some (period, c) }

end CouponBond

/-- What the covenants make of the pools of a period: the record after, the pools, and the rate they
are cut to. -/
inductive Terms (issuer : BondIssuer) (bondId : Nat) (b : CouponBond) (period : Nat)
    (report : Report) (pools : Pools) : CouponBond → Pools → Nat → Prop where
  | plain (hcovenant : b.covenant = none) (hcycle : b.covenantCycle period = none) :
      Terms issuer bondId b period report pools b pools 10000
  | orphan {cycle : CovenantCycle} (hcovenant : b.covenant = none)
      (hcycle : b.covenantCycle period = some cycle) :
      Terms issuer bondId b period report pools b pools cycle.couponBps
  | recorded {config : CovenantConfig} {cycle : CovenantCycle}
      (hcovenant : b.covenant = some config) (hcycle : b.covenantCycle period = some cycle)
      (hreport : cycle.reportId = report.id) :
      Terms issuer bondId b period report pools b ⟨cycle.carbonPool, cycle.biodiversityPool⟩
        cycle.couponBps
  | evaluated {config : CovenantConfig} {cycle : CovenantCycle}
      (hcovenant : b.covenant = some config) (hcycle : b.covenantCycle period = none)
      (h : config.evaluate b.covenantState report (issuer.getRedemptionPool bondId) pools
        = .ok cycle) :
      Terms issuer bondId b period report pools (b.cycled period cycle)
        ⟨cycle.carbonPool, cycle.biodiversityPool⟩ cycle.couponBps

variable {issuer : BondIssuer} {bondId period bps : Nat} {b b' : CouponBond} {report : Report}
  {pools pools' : Pools} {s : CouponEngine} {creditType : CreditType} {staleness : StalenessState}
  {c : CouponCalculation} {batch : CouponBatch} {result : CouponResult} {env : Env} {clock : Clock}
  {call : CouponCall}

/-- The covenants write at most a cycle. -/
theorem Terms.record (h : Terms issuer bondId b period report pools b' pools' bps) :
    b' = b ∨ ∃ cycle, b' = b.cycled period cycle := by
  cases h with
  | plain | orphan | recorded => exact .inl rfl
  | evaluated => exact .inr ⟨_, rfl⟩

/-- The rate `pin_calculation` records. -/
def CouponBond.covenantBps (b : CouponBond) (period : Nat) : Nat :=
  ((b.getCovenantCycle period).map CovenantCycle.couponBps).getD 10000

theorem CouponBond.applyTerms_terms (hb : ∀ p, b.getCovenantCycle p = b.covenantCycle p)
    (h : b.applyTerms issuer bondId period report pools = .ok (b', pools')) :
    Terms issuer bondId b period report pools b' pools' (b'.covenantBps period) := by
  unfold applyTerms at h
  split at h
  · next hcov =>
      simp only [Except.ok.injEq, Prod.mk.injEq] at h
      obtain ⟨rfl, rfl⟩ := h
      unfold covenantBps
      rw [hb]
      cases hcycle : b.covenantCycle period with
      | none => exact .plain hcov hcycle
      | some cycle => exact .orphan hcov hcycle
  · next config hcov =>
      split at h
      · next cycle hcycle =>
          simp only [bind_ok_iff, reject_ok_iff, pure_ok_iff, exists_unit_iff, Prod.mk.injEq,
            not_not] at h
          obtain ⟨hreport, rfl, rfl⟩ := h
          unfold covenantBps
          rw [hcycle]
          exact .recorded hcov (by rw [← hb, hcycle]) hreport
      · next hcycle =>
          simp only [bind_ok_iff, pure_ok_iff, Prod.mk.injEq] at h
          obtain ⟨cycle, heval, rfl, rfl⟩ := h
          have hbps : (b.cycled period cycle).covenantBps period = cycle.couponBps := by
            simp only [covenantBps, getCovenantCycle, cycled, if_true, Option.map_some,
              Option.getD_some]
          show Terms issuer bondId b period report pools (b.cycled period cycle) _
            ((b.cycled period cycle).covenantBps period)
          rw [hbps]
          exact .evaluated hcov (by rw [← hb, hcycle]) heval

/-! ## The first batch and the later ones -/

/-- Where the calculation of a first batch comes from, and the record `b'` that pins it. -/
structure FirstBatch (issuer : BondIssuer) (s : CouponEngine) (b : CouponBond) (bondId period : Nat)
    (creditType : CreditType) (staleness : StalenessState) (report : Report)
    (c : CouponCalculation) (b' : CouponBond) : Prop where
  unpinned : b.couponCalculation period = none
  reportId : c.reportId = report.id
  rawCarbon : c.rawCarbon = report.carbonSequestered
  rawNonneg : 0 ≤ report.carbonSequestered
  normalized : ∃ factor, s.factorFor report creditType = .ok factor ∧
    c.factorNumerator = factor.numerator ∧ c.factorDenominator = factor.denominator ∧
    CouponEngine.normalize report creditType factor = .ok c.normalizedCarbon
  applied : c.carbonConversionApplied = converts creditType
  discount : c.stalenessDiscountBps = if staleness.currentTier = 1 then staleness.discountBps else 0
  stages : ∃ raw discounted adjusted t b₁,
    creditPools creditType report c.normalizedCarbon = .ok raw ∧
    discountPools staleness raw = .ok discounted ∧
    (List.range b.trueUpCount).foldlM TrueUps.take ⟨b.trueUpAdjustment, 0⟩ = .ok t ∧
    c.trueUpAmount = t.accumulated ∧
    adjustPools creditType c.trueUpAmount discounted = .ok adjusted ∧
    Terms issuer bondId { b with trueUpAdjustment := t.adjustment } period report adjusted b₁ c.pools
      c.covenantBps ∧
    b' = b₁.withCalculation period c

/-- A later batch pays from the pinned calculation `c`; only a covenant configured in between has it
write anything before the payment. -/
structure LaterBatch (issuer : BondIssuer) (b : CouponBond) (bondId period : Nat) (report : Report)
    (c : CouponCalculation) (b' : CouponBond) : Prop where
  pinned : b.couponCalculation period = some c
  reportId : c.reportId = report.id
  terms : ∃ pools terms bps, Terms issuer bondId b period report pools b' terms bps

/-- The first batch pins the calculation of its period. -/
theorem FirstBatch.couponCalculation
    (h : FirstBatch issuer s b bondId period creditType staleness report c b') :
    b'.couponCalculation = update b.couponCalculation period (some c) := by
  obtain ⟨_, _, _, _, _, -, -, -, -, -, hterms, rfl⟩ := h.stages
  rcases hterms.record with rfl | ⟨_, rfl⟩ <;> rfl

/-- What the stages before the payment leave alone. -/
structure CouponBond.SameAside (b b' : CouponBond) : Prop where
  periodInfo : b'.periodInfo = b.periodInfo
  periodCount : b'.periodCount = b.periodCount
  covenant : b'.covenant = b.covenant
  trueUpCount : b'.trueUpCount = b.trueUpCount
  undistributedTotal : b'.undistributedTotal = b.undistributedTotal
  migrationWindow : b'.migrationWindow = b.migrationWindow

theorem Terms.aside (h : Terms issuer bondId b period report pools b' pools' bps) :
    b.SameAside b' := by
  rcases h.record with rfl | ⟨_, rfl⟩ <;> exact ⟨rfl, rfl, rfl, rfl, rfl, rfl⟩

theorem FirstBatch.aside (h : FirstBatch issuer s b bondId period creditType staleness report c b') :
    b.SameAside b' := by
  obtain ⟨_, _, _, _, _, -, -, -, -, -, hterms, rfl⟩ := h.stages
  exact ⟨hterms.aside.periodInfo, hterms.aside.periodCount, hterms.aside.covenant,
    hterms.aside.trueUpCount, hterms.aside.undistributedTotal, hterms.aside.migrationWindow⟩

theorem LaterBatch.aside (h : LaterBatch issuer b bondId period report c b') : b.SameAside b' := by
  obtain ⟨_, _, _, hterms⟩ := h.terms
  exact hterms.aside

/-- A later batch leaves the calculations. -/
theorem LaterBatch.couponCalculation (h : LaterBatch issuer b bondId period report c b') :
    b'.couponCalculation = b.couponCalculation := by
  obtain ⟨_, _, _, hterms⟩ := h.terms
  rcases hterms.record with rfl | ⟨_, rfl⟩ <;> rfl

namespace CouponEngine

variable {s : CouponEngine} {issuer : BondIssuer} {b b' : CouponBond} {batch : CouponBatch}
  {staleness : StalenessState} {report : Report} {creditType : CreditType} {c : CouponCalculation}

/-- The checks before the pools. -/
theorem prepareBatch_checks
    (h : s.prepareBatch issuer b batch staleness report = .ok (b', creditType, c)) :
    (∀ info, b.periodInfo batch.periodIndex = some info → info.reportId = batch.reportId) ∧
      b.validateCycle batch.periodIndex report (b.periodInfo batch.periodIndex).isSome = .ok () := by
  simp only [prepareBatch, bind_ok_iff, reject_ok_iff, exists_unit_iff] at h
  obtain ⟨-, hreport, hvalid, -⟩ := h
  refine ⟨fun info hinfo => ?_, hvalid⟩
  by_contra hne
  exact hreport ⟨info, hinfo, hne⟩

variable {period : Nat} {c₀ : CouponCalculation}

/-- A conversion without a pinned calculation. -/
theorem conversion_fresh (hnone : b.getCouponCalculation period = none)
    (h : s.conversion b period report creditType = .ok c) :
    c.reportId = report.id ∧ c.rawCarbon = report.carbonSequestered ∧
      0 ≤ report.carbonSequestered ∧ c.carbonConversionApplied = converts creditType ∧
      ∃ factor, s.factorFor report creditType = .ok factor ∧
        c.factorNumerator = factor.numerator ∧ c.factorDenominator = factor.denominator ∧
        normalize report creditType factor = .ok c.normalizedCarbon := by
  simp only [conversion, hnone, bind_ok_iff, reject_ok_iff, pure_ok_iff, exists_unit_iff,
    not_lt] at h
  obtain ⟨-, hraw, factor, hfactor, normalized, hnormalize, rfl⟩ := h
  exact ⟨rfl, rfl, hraw, rfl, factor, hfactor, rfl, rfl, hnormalize⟩

/-- A conversion with a pinned calculation is that calculation. -/
theorem conversion_pinned (hsome : b.getCouponCalculation period = some c₀)
    (h : s.conversion b period report creditType = .ok c) : c = c₀ ∧ c₀.reportId = report.id := by
  simp only [conversion, hsome, bind_ok_iff, reject_ok_iff, pure_ok_iff, exists_unit_iff,
    not_not] at h
  exact ⟨h.2.symm, h.1⟩

/-- The pools of a batch, with what it does to the true-ups. -/
theorem batchPools_trueUps {trueUp : Int} {pools : Pools}
    (h : b.batchPools batch creditType staleness report c = .ok (b', trueUp, pools)) :
    ∃ raw discounted, creditPools creditType report c.normalizedCarbon = .ok raw ∧
      discountPools staleness raw = .ok discounted ∧
      adjustPools creditType trueUp discounted = .ok pools ∧
      b.takeTrueUps (batch.offset = 0 ∧ (b.periodInfo batch.periodIndex).isSome = false)
        = .ok (b', trueUp) := by
  simp only [batchPools, bind_ok_iff, pure_ok_iff, Prod.mk.injEq, Prod.exists] at h
  obtain ⟨raw, hraw, discounted, hdiscounted, b₁, _, htake, _, hadjust, rfl, rfl, rfl⟩ := h
  exact ⟨raw, discounted, hraw, hdiscounted, hadjust, htake⟩

/-- The first batch of a period. -/
theorem prepareBatch_first (hb : b.Pinned)
    (hnone : b.couponCalculation batch.periodIndex = none) (hoffset : batch.offset = 0)
    (h : s.prepareBatch issuer b batch staleness report = .ok (b', creditType, c)) :
    FirstBatch issuer s b batch.bondId batch.periodIndex creditType staleness report c b' := by
  have hget : b.getCouponCalculation batch.periodIndex = none := by rw [hb.calculation, hnone]
  obtain ⟨-, -, conversion, adjustment, pools, b₂, terms, trueUp, hconversion, hpools, hterms, hpin⟩ :=
    prepareBatch_ok h
  obtain ⟨raw, discounted, hraw, hdiscount, hadjust, htake⟩ := batchPools_trueUps hpools
  obtain ⟨hid, hcarbon, hnonneg, happlied, hfactor⟩ := conversion_fresh hget hconversion
  -- nothing was paid for the period yet, so all open true-ups are taken
  have hfirst : decide (batch.offset = 0 ∧ (b.periodInfo batch.periodIndex).isSome = false)
      = true := by
    rw [(hb.unstarted _ hnone).1]
    exact decide_eq_true ⟨hoffset, rfl⟩
  rw [hfirst, takeTrueUps, if_pos rfl] at htake
  simp only [bind_ok_iff, pure_ok_iff, Prod.mk.injEq] at htake
  obtain ⟨t, ht, htaken, rfl⟩ := htake
  rw [← htaken] at hterms
  have hcycle : ∀ p, getCovenantCycle { b with trueUpAdjustment := t.adjustment } p
      = covenantCycle { b with trueUpAdjustment := t.adjustment } p := hb.cycle
  have hterms' := applyTerms_terms hcycle hterms
  have hget₂ : b₂.getCouponCalculation batch.periodIndex = none := by
    obtain ⟨-, hstored, hlive⟩ := applyTerms_same hterms
    rw [getCouponCalculation_congr hstored hlive]
    exact hget
  unfold pinCalculation at hpin
  simp only [hget₂, bind_ok_iff, invoke_ok_iff, pure_ok_iff, Prod.mk.injEq] at hpin
  obtain ⟨version, -, total, -, rfl, rfl⟩ := hpin
  exact ⟨hnone, hid, hcarbon, hnonneg, hfactor, happlied, rfl,
    raw, discounted, pools, t, b₂, hraw, hdiscount, ht, rfl, hadjust, hterms', rfl⟩

/-- A later batch of a period. -/
theorem prepareBatch_later (hb : b.Pinned) (hsome : b.couponCalculation batch.periodIndex = some c₀)
    (h : s.prepareBatch issuer b batch staleness report = .ok (b', creditType, c)) :
    c = c₀ ∧ LaterBatch issuer b batch.bondId batch.periodIndex report c b' := by
  have hget : b.getCouponCalculation batch.periodIndex = some c₀ := by rw [hb.calculation, hsome]
  obtain ⟨-, -, conversion, adjustment, pools, b₂, terms, trueUp, hconversion, hpools, hterms, hpin⟩ :=
    prepareBatch_ok h
  obtain ⟨raw, discounted, -, -, -, htake⟩ := batchPools_trueUps hpools
  obtain ⟨-, hid⟩ := conversion_pinned hget hconversion
  have hlater : (decide (batch.offset = 0 ∧ (b.periodInfo batch.periodIndex).isSome = false))
      = false := by
    rw [hb.started _ c₀ hsome]
    simp
  rw [hlater, takeTrueUps, if_neg (by decide), Except.ok.injEq, Prod.mk.injEq] at htake
  obtain ⟨hsame, rfl⟩ := htake
  rw [← hsame] at hterms
  have hterms' := applyTerms_terms hb.cycle hterms
  have hget₂ : b₂.getCouponCalculation batch.periodIndex = some c₀ := by
    obtain ⟨-, hstored, hlive⟩ := applyTerms_same hterms
    rw [getCouponCalculation_congr hstored hlive]
    exact hget
  simp only [pinCalculation, hget₂, Except.ok.injEq, Prod.mk.injEq] at hpin
  obtain ⟨rfl, rfl⟩ := hpin
  exact ⟨rfl, hsome, hid, _, _, _, hterms'⟩

end CouponEngine

/-! ## The payment -/

/-- What a paid batch does to the part of the record that holds no credits. -/
structure PaidRest (b : CouponBond) (batch : CouponBatch) (report : Report) (info : PeriodInfo)
    (b' : CouponBond) : Prop where
  reportId : info.reportId = batch.reportId
  startTime : info.startTime = report.periodStart
  endTime : info.endTime = report.periodEnd
  undistributedTotal : b'.undistributedTotal
    = b.undistributedTotal + if batch.Complete then max info.undistributed 0 else 0
  migrationWindow : b'.migrationWindow = b.migrationWindow
  trueUpAdjustment : b'.trueUpAdjustment = b.trueUpAdjustment
  trueUpCount : b'.trueUpCount = b.trueUpCount
  covenant : b'.covenant = b.covenant
  covenantState : b'.covenantState = b.covenantState

/-- What is left joins the total, if it is positive. -/
theorem CouponBond.closeBatch_total {undistributed : Int}
    (h : b.closeBatch batch report undistributed = .ok b') :
    b'.undistributedTotal
      = b.undistributedTotal + if batch.Complete then max undistributed 0 else 0 := by
  unfold closeBatch at h
  split at h
  · next hc =>
      simp only [completePeriod, bind_ok_iff, pure_ok_iff] at h
      obtain ⟨total, htotal, _, -, rfl⟩ := h
      rw [if_pos hc]
      unfold addUndistributed at htotal
      split at htotal
      · next hpos =>
          simp only [okOr_ok_iff, i128_eq_some] at htotal
          rw [max_eq_left (le_of_lt hpos), ← htotal.2]
      · next hpos =>
          injection htotal with htotal
          rw [max_eq_right (not_lt.mp hpos), add_zero, ← htotal]
  · next hc =>
      injection h with h
      rw [if_neg hc, add_zero, h]

theorem CouponBond.payBatch_rest {calculation : CouponCalculation}
    (h : b.payBatch issuer batch creditType report calculation = .ok (b', result)) :
    ∃ payout info, PaidBatch issuer b batch creditType calculation payout info b' ∧
      PaidRest b batch report info b' := by
  obtain ⟨payout, info, hpaid⟩ := payBatch_ok h
  refine ⟨payout, info, hpaid, ?_⟩
  have hinfo : b'.periodInfo batch.periodIndex = some info := by rw [hpaid.periodInfo, update_self]
  simp only [payBatch, bind_ok_iff, okOr_ok_iff, reject_ok_iff, pure_ok_iff, exists_unit_iff,
    Prod.mk.injEq] at h
  obtain ⟨_, -, -, _, -, -, _, -, -, -, _, -, cumulative, -, undistributed, -, b₁, hclose, rfl, -⟩ := h
  have htotal := closeBatch_total hclose
  obtain ⟨total, history, rfl⟩ := closeBatch_ok hclose
  have heq : info = batch.info report cumulative undistributed :=
    Option.some.inj (hinfo.symm.trans (update_self ..))
  subst heq
  exact ⟨rfl, rfl, rfl, htotal, rfl, rfl, rfl, rfl, rfl⟩

/-! ## Outcomes -/

/-- **The outcome of a distribution**: the flag is raised, or a first or a later batch is paid. -/
inductive BatchOutcome (env : Env) (clock : Clock) (issuer : BondIssuer) (s : CouponEngine)
    (batch : CouponBatch) (b' : CouponBond) : Prop where
  | flagged (flag : PerformanceFlag)
      (hb' : b' = { s.bond batch.bondId with performanceFlag := some flag })
  | paid {staleness : StalenessState} {report : Report} {creditType : CreditType}
      {c : CouponCalculation} {payout : Payout} {info : PeriodInfo} {b₁ : CouponBond}
      (horacle : s.readOracle env clock (s.bond batch.bondId) batch.reportId
        = .ok (staleness, report))
      (htype : (s.bond batch.bondId).bondCreditType = some creditType)
      (hopen : ∀ old, (s.bond batch.bondId).periodInfo batch.periodIndex = some old →
        old.distributed = false ∧ old.reportId = batch.reportId)
      (hvalid : (s.bond batch.bondId).validateCycle batch.periodIndex report
        ((s.bond batch.bondId).periodInfo batch.periodIndex).isSome = .ok ())
      (hprepared : FirstBatch issuer s (s.bond batch.bondId) batch.bondId batch.periodIndex creditType
          staleness report c b₁ ∨
        LaterBatch issuer (s.bond batch.bondId) batch.bondId batch.periodIndex report c b₁)
      (hpaid : PaidBatch issuer b₁ batch creditType c payout info b')
      (hrest : PaidRest b₁ batch report info b')

theorem CouponEngine.distribute_outcome (hb : (s.bond batch.bondId).Pinned)
    (h : s.distribute env clock issuer batch = .ok (b', result)) :
    (s.bond batch.bondId).migrationWindow = none ∧ BatchOutcome env clock issuer s batch b' := by
  simp only [distribute, bind_ok_iff, requireNoMigrationWindow_ok_iff,
    exists_unit_iff, Prod.exists] at h
  obtain ⟨hwindow, staleness, report, horacle, flagged, -, h⟩ := h
  refine ⟨hwindow, ?_⟩
  cases flagged with
  | some flag =>
      simp only [pure_ok_iff, Prod.mk.injEq] at h
      exact .flagged flag h.1.symm
  | none =>
      simp only [bind_ok_iff, Prod.exists] at h
      obtain ⟨b₁, creditType, c, hprepare, hpay⟩ := h
      obtain ⟨hopen, htype, -⟩ := prepareBatch_ok hprepare
      obtain ⟨hreport, hvalid⟩ := prepareBatch_checks hprepare
      obtain ⟨payout, info, hpaid, hrest⟩ := payBatch_rest hpay
      refine .paid horacle htype (fun old hold => ⟨hopen old hold, hreport old hold⟩) hvalid ?_ hpaid
        hrest
      cases hcalc : (s.bond batch.bondId).couponCalculation batch.periodIndex with
      | none =>
          -- the payment starts at the cursor, which is still at the first holder
          have hoffset : batch.offset = 0 := by
            rw [hpaid.offset, (prepareBatch_same hprepare).periodBatchCursor]
            exact (hb.unstarted _ hcalc).2.1
          exact .inl (prepareBatch_first hb hcalc hoffset hprepare)
      | some c₀ =>
          obtain ⟨rfl, hlater⟩ := prepareBatch_later hb hcalc hprepare
          exact .inr hlater

/-! ## Calls -/

/-- The part of the record that is about true-ups, covenants and migrations is unchanged. -/
structure CouponBond.SameRest (b b' : CouponBond) : Prop where
  trueUpAdjustment : b'.trueUpAdjustment = b.trueUpAdjustment
  trueUpCount : b'.trueUpCount = b.trueUpCount
  covenant : b'.covenant = b.covenant
  covenantState : b'.covenantState = b.covenantState
  undistributedTotal : b'.undistributedTotal = b.undistributedTotal
  migrationWindow : b'.migrationWindow = b.migrationWindow

/-- The adjustment a call submits. -/
def CouponCall.trueUp : CouponCall → Option Int
  | .submitTrueUpAdjustment _ _ _ amount _ _ _ => some amount
  | _ => none

theorem CouponCall.trueUp_of_batch (h : call.batch = some batch) : call.trueUp = none := by
  cases call with
  | submitTrueUpAdjustment => cases h
  | _ => rfl

/-- What a call does to that part of the record. -/
inductive RestStep (env : Env) (clock : Clock) (issuer : BondIssuer) (s : CouponEngine) (id : Nat) :
    CouponCall → CouponBond → CouponBond → Prop where
  | plain {call : CouponCall} {b b' : CouponBond} (htrueUp : call.trueUp = none)
      (hperiods : b.SamePeriods b') (hrest : b.SameRest b') :
      RestStep env clock issuer s id call b b'
  | trueUp {caller : Address} {periodIndex : Nat} {amount : Int} {reason : Symbol} {hash : Bytes32}
      {nonce : Nat} (b : CouponBond) :
      RestStep env clock issuer s id
        (.submitTrueUpAdjustment caller id periodIndex amount reason hash nonce) b
        { b with
          trueUpAdjustment := update b.trueUpAdjustment b.trueUpCount
            (some ⟨id, periodIndex, amount, reason, hash, clock.timestamp, false⟩)
          trueUpCount := b.trueUpCount + 1 }
  | distribute {call : CouponCall} {batch : CouponBatch} {b' : CouponBond}
      (hcall : call.batch = some batch) (hid : batch.bondId = id)
      (hwindow : (s.bond id).migrationWindow = none)
      (h : BatchOutcome env clock issuer s batch b') :
      RestStep env clock issuer s id call (s.bond id) b'
  | sweep {caller : Address} {nonce : Nat} (b : CouponBond) :
      RestStep env clock issuer s id (.sweepUndistributed caller id nonce) b
        { b with undistributedTotal := 0 }
  | migrate {call : CouponCall} {b : CouponBond} {window : Option MigrationWindow}
      (htrueUp : call.trueUp = none)
      (hopen : ∀ x ∈ window,
        b.migrationWindow = none ∧ x = ⟨clock.timestamp, b.undistributedTotal, b.periodCount⟩) :
      RestStep env clock issuer s id call b { b with migrationWindow := window }
  | configure {caller : Address} {config : CovenantConfig} {nonce : Nat} {b : CouponBond}
      (hfresh : b.periodCount = 0 ∧ b.periodInfo 0 = none ∧ b.covenant = none) :
      RestStep env clock issuer s id (.configureCovenant caller id config nonce) b
        { b with covenant := some config }

theorem CouponBond.configureCovenant_fresh {config : CovenantConfig}
    (h : b.configureCovenant config = .ok b') :
    b.periodCount = 0 ∧ b.periodInfo 0 = none ∧ b.covenant = none := by
  simp only [configureCovenant, bind_ok_iff, reject_ok_iff, exists_unit_iff, not_or, not_not,
    Bool.not_eq_true, Option.isSome_eq_false_iff, Option.isNone_iff_eq_none] at h
  obtain ⟨-, ⟨-, -, -, -, -, hcount, hinfo, hcovenant⟩, -⟩ := h
  exact ⟨hcount, hinfo, hcovenant⟩

theorem CouponWrite.rest {id : Nat} {reply : CouponReply} (hb : (s.bond id).Pinned)
    (h : CouponWrite env clock issuer s id call reply b b') :
    RestStep env clock issuer s id call b b' := by
  cases h with
  | register => exact .plain rfl (by constructor <;> rfl) (by constructor <;> rfl)
  | trueUp h =>
      rw [addTrueUp_ok h]
      exact .trueUp b
  | settle h =>
      obtain ⟨_, _, -, rfl⟩ := settleWaterfall_ok h
      exact .plain rfl (by constructor <;> rfl) (by constructor <;> rfl)
  | claimWaterfall h =>
      obtain ⟨-, _, _, rfl⟩ := claimWaterfall_record h
      exact .plain rfl (by constructor <;> rfl) (by constructor <;> rfl)
  | distribute hcall hid h =>
      subst hid
      obtain ⟨hwindow, houtcome⟩ := CouponEngine.distribute_outcome hb h
      exact .distribute hcall rfl hwindow houtcome
  | confirm h | revert h =>
      obtain ⟨_, -, rfl⟩ := debit_ok h
      exact .plain rfl (by constructor <;> rfl) (by constructor <;> rfl)
  | claim h =>
      obtain ⟨-, rfl⟩ := claim_ok h
      exact .plain rfl (by constructor <;> rfl) (by constructor <;> rfl)
  | consume h =>
      obtain ⟨-, _, -, rfl⟩ := consume_ok h
      exact .plain rfl (by constructor <;> rfl) (by constructor <;> rfl)
  | sweep => exact .sweep b
  | clearFlag h =>
      rw [clearFlag_ok h]
      exact .plain rfl (by constructor <;> rfl) (by constructor <;> rfl)
  | beginMigration h =>
      obtain ⟨hnone, hwindow, rfl⟩ := beginMigration_ok h
      refine .migrate rfl (fun x hx => ?_)
      cases hx
      exact ⟨hnone, hwindow⟩
  | finalizeMigration h =>
      rw [finalizeMigration_ok h]
      exact .migrate rfl (fun x hx => by cases hx)
  | rollbackMigration h =>
      rw [rollbackMigration_ok h]
      exact .migrate rfl (fun x hx => by cases hx)
  | configure h =>
      rw [configureCovenant_ok h]
      exact .configure (configureCovenant_fresh h)

end VerdantBond
