import VerdantBond.Coupon.Payments

set_option autoImplicit false

/-! # CouponEngine: the pinned calculation of a period

The first batch of a period pins its calculation, and every later batch pays from it, whatever the
oracle, the tables, the covenants or the issuer say by then. `Pinned` is the invariant of a bond's
record behind this, and `Distributed` is all that a batch that was paid says about the record before
and after it.
-/

namespace VerdantBond

open Function CouponBond

namespace CouponBond

/-- The live copies agree with the stored ones, and a period is started by its calculation. -/
structure Pinned (b : CouponBond) : Prop where
  calculation : ∀ p, b.getCouponCalculation p = b.couponCalculation p
  cycle : ∀ p, b.getCovenantCycle p = b.covenantCycle p
  unstarted : ∀ p, b.couponCalculation p = none →
    b.periodInfo p = none ∧ b.periodBatchCursor p = 0 ∧ b.covenantCycle p = none
  started : ∀ p c, b.couponCalculation p = some c → (b.periodInfo p).isSome = true

theorem pinned_unregistered : unregistered.Pinned where
  calculation := fun _ => rfl
  cycle := fun _ => rfl
  unstarted := fun _ _ => ⟨rfl, rfl, rfl⟩
  started := fun _ _ h => by cases h

variable {b b' : CouponBond} {issuer : BondIssuer} {bondId period : Nat}

theorem getCouponCalculation_congr (hstored : b'.couponCalculation = b.couponCalculation)
    (hlive : b'.couponLiveCalculation = b.couponLiveCalculation) (p : Nat) :
    b'.getCouponCalculation p = b.getCouponCalculation p := by
  unfold getCouponCalculation
  rw [hstored, hlive]

theorem getCovenantCycle_congr (hstored : b'.covenantCycle = b.covenantCycle)
    (hlive : b'.covenantLiveCycle = b.covenantLiveCycle) (p : Nat) :
    b'.getCovenantCycle p = b.getCovenantCycle p := by
  unfold getCovenantCycle
  rw [hstored, hlive]

theorem Pinned.congr (hb : b.Pinned) (h : b.SamePeriods b') : b'.Pinned where
  calculation := fun p => by
    rw [getCouponCalculation_congr h.couponCalculation h.couponLiveCalculation, hb.calculation,
      h.couponCalculation]
  cycle := fun p => by
    rw [getCovenantCycle_congr h.covenantCycle h.covenantLiveCycle, hb.cycle, h.covenantCycle]
  unstarted := fun p hp => by
    rw [h.periodInfo, h.periodBatchCursor, h.covenantCycle]
    exact hb.unstarted p (h.couponCalculation ▸ hp)
  started := fun p c hp => by
    rw [h.periodInfo]
    exact hb.started p c (h.couponCalculation ▸ hp)

/-! ## Pinning -/

/-- The covenants touch the cycle of their period only. -/
theorem applyTerms_cycle {report : Report} {pools pools' : Pools}
    (hb : ∀ p, b.getCovenantCycle p = b.covenantCycle p)
    (h : b.applyTerms issuer bondId period report pools = .ok (b', pools')) :
    (∀ p, b'.getCovenantCycle p = b'.covenantCycle p) ∧
      ∀ p, p ≠ period → b'.covenantCycle p = b.covenantCycle p := by
  rcases applyTerms_ok h with ⟨-, rfl, -⟩ | ⟨_, -, rfl, -⟩ | ⟨cycle, -, -, -, rfl, -⟩
  · exact ⟨hb, fun _ _ => rfl⟩
  · exact ⟨hb, fun _ _ => rfl⟩
  · refine ⟨fun p => ?_, fun p hp => update_of_ne hp ..⟩
    show (if period = p then some cycle else update b.covenantCycle period (some cycle) p)
      = update b.covenantCycle period (some cycle) p
    split
    · next heq => rw [← heq, update_self]
    · rfl

/-- Pinning makes the calculation that of its period and leaves the others. -/
theorem pinCalculation_calculation {calculation c : CouponCalculation} {pools : Pools}
    {discount : Nat} {trueUp : Int} (hb : ∀ p, b.getCouponCalculation p = b.couponCalculation p)
    (h : b.pinCalculation issuer bondId period calculation pools discount trueUp = .ok (b', c)) :
    (∀ p, b'.getCouponCalculation p = b'.couponCalculation p) ∧
      b'.couponCalculation = update b.couponCalculation period (some c) := by
  rcases pinCalculation_ok h with ⟨hsome, rfl⟩ | ⟨-, -, -, -, -, rfl⟩
  · refine ⟨hb, ?_⟩
    rw [hb] at hsome
    rw [← hsome, update_eq_self]
  · refine ⟨fun p => ?_, rfl⟩
    show (if period = p then some c else update b.couponCalculation period (some c) p)
      = update b.couponCalculation period (some c) p
    split
    · next heq => rw [← heq, update_self]
    · rfl

end CouponBond

/-- The calculation of a first batch: it is about the issuer's balances of the moment, and its pools
are those of the bond's credit type. -/
structure FreshCalculation (issuer : BondIssuer) (s : CouponEngine) (bondId : Nat)
    (creditType : CreditType) (staleness : StalenessState) (c : CouponCalculation) : Prop where
  version : issuer.getBalanceVersion bondId = .ok c.balanceVersion
  total : issuer.totalSubscribedAtVersion bondId c.balanceVersion = .ok c.totalSubscribed
  fits : c.pools.Fits creditType
  nonneg : s.TablesInBounds → staleness.DiscountBounded → c.pools.Nonneg

namespace CouponEngine

variable {s : CouponEngine} {issuer : BondIssuer} {batch : CouponBatch} {staleness : StalenessState}
  {report : Report} {creditType : CreditType} {c : CouponCalculation}

/-- A batch pays from the calculation pinned for its period, or pins one now. -/
theorem prepareBatch_calculation {b b' : CouponBond} (hb : b.Pinned)
    (h : s.prepareBatch issuer b batch staleness report = .ok (b', creditType, c)) :
    b.couponCalculation batch.periodIndex = some c ∨
      (b.couponCalculation batch.periodIndex = none ∧
        FreshCalculation issuer s batch.bondId creditType staleness c) := by
  obtain ⟨-, -, conversion, adjustment, pools, b₂, terms, trueUp, hconversion, hpools,
    hterms, hpin⟩ := prepareBatch_ok h
  have hcalc : b₂.getCouponCalculation batch.periodIndex
      = b.couponCalculation batch.periodIndex := by
    obtain ⟨-, hstored, hlive⟩ := applyTerms_same hterms
    rw [getCouponCalculation_congr hstored hlive, ← hb.calculation]
    rfl
  rcases pinCalculation_ok hpin with ⟨hsome, -⟩ |
    ⟨hnone, hversion, htotal, hcarbon, hbio, -⟩
  · exact .inl (hcalc ▸ hsome)
  · rw [hcalc] at hnone
    -- the stages the pools went through, from the report on
    obtain ⟨raw, discounted, _, hraw, hdiscount, hadjust, -⟩ := batchPools_ok hpools
    obtain ⟨hfits₁, hnonneg₁⟩ := creditPools_ok hraw
    obtain ⟨hfits₂, hnonneg₂⟩ := discountPools_ok hfits₁ hdiscount
    obtain ⟨hfits₃, hnonneg₃⟩ := adjustPools_ok hfits₂ hadjust
    have hcycle : getCovenantCycle { b with trueUpAdjustment := adjustment }
        batch.periodIndex = none := by
      rw [← (hb.unstarted _ hnone).2.2, ← hb.cycle]
      rfl
    obtain ⟨hfits₄, hnonneg₄⟩ := applyTerms_fresh hcycle hfits₃ hterms
    have hpinned : c.pools = terms := by
      unfold CouponCalculation.pools
      rw [hcarbon, hbio]
    refine .inr ⟨hnone, hversion, htotal, hpinned ▸ hfits₄, fun htables hbounded => ?_⟩
    rw [hpinned]
    refine hnonneg₄ (hnonneg₃ (hnonneg₂ hbounded (hnonneg₁ ?_)))
    rcases conversion_ok hconversion with hsome | ⟨-, -, hraw, factor, hfactor, hnormalize⟩
    · rw [hb.calculation, hnone] at hsome
      cases hsome
    · exact normalize_nonneg htables hraw hfactor hnormalize

/-- The stages before the payment keep the live copies, and touch nothing pinned but what is of the
batch's period. -/
theorem prepareBatch_pinned {b b' : CouponBond} (hb : b.Pinned)
    (h : s.prepareBatch issuer b batch staleness report = .ok (b', creditType, c)) :
    (∀ p, b'.getCouponCalculation p = b'.couponCalculation p) ∧
      (∀ p, b'.getCovenantCycle p = b'.covenantCycle p) ∧
      b'.couponCalculation = update b.couponCalculation batch.periodIndex (some c) ∧
      ∀ p, p ≠ batch.periodIndex → b'.covenantCycle p = b.covenantCycle p := by
  obtain ⟨-, -, _, adjustment, _, b₂, _, _, -, -, hterms, hpin⟩ := prepareBatch_ok h
  have hcycle₁ : ∀ p, getCovenantCycle { b with trueUpAdjustment := adjustment } p
      = b.covenantCycle p := hb.cycle
  obtain ⟨hcycle₂, hother₂⟩ := applyTerms_cycle hcycle₁ hterms
  obtain ⟨-, hstored₂, hlive₂⟩ := applyTerms_same hterms
  have hcalc₂ : ∀ p, b₂.getCouponCalculation p = b₂.couponCalculation p := by
    intro p
    rw [getCouponCalculation_congr hstored₂ hlive₂, hstored₂]
    exact hb.calculation p
  obtain ⟨hcalc, hstored⟩ := pinCalculation_calculation hcalc₂ hpin
  obtain ⟨-, hcycles, hliveCycle⟩ := pinCalculation_same hpin
  refine ⟨hcalc, fun p => ?_, ?_, fun p hp => ?_⟩
  · rw [getCovenantCycle_congr hcycles hliveCycle, hcycle₂, hcycles]
  · rw [hstored, hstored₂]
  · rw [hcycles, hother₂ p hp]

end CouponEngine

/-! ## A paid batch -/

/-- Everything a batch that was paid says about the record `b` before it and `b'` after it. -/
structure Distributed (env : Env) (clock : Clock) (issuer : BondIssuer) (s : CouponEngine)
    (b : CouponBond) (batch : CouponBatch) (c : CouponCalculation) (payout : Payout)
    (info : PeriodInfo) (b' : CouponBond) : Prop where
  source : ∃ creditType staleness report, b.bondCreditType = some creditType ∧
    s.readOracle env clock b batch.reportId = .ok (staleness, report) ∧
    (b.couponCalculation batch.periodIndex = some c ∨
      (b.couponCalculation batch.periodIndex = none ∧
        FreshCalculation issuer s batch.bondId creditType staleness c)) ∧
    batch.slice.foldlM (Payout.payHolder issuer batch.bondId batch.periodIndex creditType c
      (c.carbonPool + c.biodiversityPool)) ⟨b.account, 0, 0⟩ = .ok payout
  unfinished : ∀ old, b.periodInfo batch.periodIndex = some old → old.distributed = false
  nodup : batch.slice.Nodup
  offset : batch.offset = b.periodBatchCursor batch.periodIndex
  bound : batch.offset + batch.limit ≤ batch.holders.length
  earned : info.totalCreditsEarned
    = ((b.periodInfo batch.periodIndex).map PeriodInfo.totalCreditsEarned).getD 0
      + payout.totalHolderCredits
  distributed : info.distributed = decide batch.Complete
  undistributed : info.undistributed
    = if batch.Complete then c.carbonPool + c.biodiversityPool - info.totalCreditsEarned else 0
  account : b'.account = payout.account
  periodInfo : b'.periodInfo = update b.periodInfo batch.periodIndex (some info)
  periodBatchCursor : b'.periodBatchCursor
    = update b.periodBatchCursor batch.periodIndex (batch.offset + batch.limit)
  couponCalculation : b'.couponCalculation
    = update b.couponCalculation batch.periodIndex (some c)

/-- A distribution keeps the record pinned, and is either out of bounds and pays nothing, or
distributes a batch. -/
theorem CouponEngine.distribute_pinned {env : Env} {clock : Clock} {issuer : BondIssuer}
    {s : CouponEngine} {batch : CouponBatch} {b' : CouponBond} {result : CouponResult}
    (hb : (s.bond batch.bondId).Pinned)
    (h : s.distribute env clock issuer batch = .ok (b', result)) :
    b'.Pinned ∧
      ((¬ s.WithinBounds env clock batch ∧ (s.bond batch.bondId).SamePeriods b' ∧
          b'.account = (s.bond batch.bondId).account) ∨
        (s.WithinBounds env clock batch ∧ ∃ c payout info,
          Distributed env clock issuer s (s.bond batch.bondId) batch c payout info b')) := by
  rcases distribute_ok h with ⟨hout, flag, rfl⟩ |
    ⟨hin, staleness, report, b₁, creditType, c, payout, info, horacle, hprepare, hpaid⟩
  · have hsame : (s.bond batch.bondId).SamePeriods
        { s.bond batch.bondId with performanceFlag := some flag } :=
      ⟨rfl, rfl, rfl, rfl, rfl, rfl, rfl⟩
    exact ⟨hb.congr hsame, .inl ⟨hout, hsame, rfl⟩⟩
  · set b := s.bond batch.bondId with hbond
    obtain ⟨hopen, htype, -⟩ := prepareBatch_ok hprepare
    obtain ⟨hcalc₁, hcycle₁, hstored₁, hother₁⟩ := prepareBatch_pinned hb hprepare
    have hsame := prepareBatch_same hprepare
    have hstored : b'.couponCalculation = update b.couponCalculation batch.periodIndex (some c) := by
      rw [hpaid.couponCalculation, hstored₁]
    have hinfo : b'.periodInfo = update b.periodInfo batch.periodIndex (some info) := by
      rw [hpaid.periodInfo, hsame.periodInfo]
    have hcursor : b'.periodBatchCursor
        = update b.periodBatchCursor batch.periodIndex (batch.offset + batch.limit) := by
      rw [hpaid.periodBatchCursor, hsame.periodBatchCursor]
    obtain ⟨hfold, hnodup, -⟩ := Payout.payHolders_ok _ _ _ _ hpaid.pays
    refine ⟨⟨fun p => ?_, fun p => ?_, fun p hp => ?_, fun p c' hp => ?_⟩, .inr ⟨hin, c, payout,
      info, ⟨⟨creditType, staleness, report, htype, horacle, prepareBatch_calculation hb hprepare,
        ?_⟩, hopen, hnodup, ?_, hpaid.bound, ?_, hpaid.distributed, hpaid.undistributed,
        hpaid.account, hinfo, hcursor, hstored⟩⟩⟩
    · rw [getCouponCalculation_congr hpaid.couponCalculation
        hpaid.couponLiveCalculation, hcalc₁, hpaid.couponCalculation]
    · rw [getCovenantCycle_congr hpaid.covenantCycle hpaid.covenantLiveCycle, hcycle₁,
        hpaid.covenantCycle]
    · -- a period without a calculation is not this one
      have hne : p ≠ batch.periodIndex := by
        rintro rfl
        rw [hstored, update_self] at hp
        cases hp
      rw [hstored, update_of_ne hne] at hp
      rw [hinfo, hcursor, update_of_ne hne, update_of_ne hne, hpaid.covenantCycle, hother₁ p hne]
      exact hb.unstarted p hp
    · rw [hinfo]
      by_cases hne : p = batch.periodIndex
      · rw [hne, update_self]
        rfl
      · rw [hstored, update_of_ne hne] at hp
        rw [update_of_ne hne]
        exact hb.started p c' hp
    · rw [← hsame.account]
      exact hfold
    · rw [hpaid.offset, hsame.periodBatchCursor]
    · rw [hpaid.earned, hsame.periodInfo]

end VerdantBond
