import VerdantBond.Protocol.Stages
import VerdantBond.Protocol.TrueUps
import VerdantBond.Suite.System

set_option autoImplicit false

/-! # Replaying a pinned calculation

A pinned calculation never changes, and its normalization can be replayed from its own records at any
later time. So can the carbon pool of a bond that pays carbon only: the normalized carbon in minor
units, discounted, trued up and clamped at zero, and cut to the covenant's rate. The code clamps only
where it applies a true-up, though, and a discount above the whole makes the pool negative before:
without a true-up the pool is then stored as it is.
-/

namespace VerdantBond

open Function Machine

/-! ## The recomputed pool -/

/-- The bond pays carbon only. -/
def CreditType.CarbonOnly : CreditType → Prop
  | .carbon | .blueCarbon => True
  | .biodiversity | .basket => False

namespace CouponCalculation

/-- The normalized carbon, in minor units and after the recorded discount. -/
def discountedCarbon (c : CouponCalculation) : Int :=
  (c.normalizedCarbon.tdiv creditDivisor * creditMinorUnits
    * (10000 - (c.stalenessDiscountBps : Int))).tdiv 10000

/-- The carbon pool from the records alone: the discounted carbon with the true-up, clamped at zero,
at the covenant's rate. -/
def recomputedCarbonPool (c : CouponCalculation) : Int :=
  (max (c.discountedCarbon + c.trueUpAmount) 0 * c.covenantBps).tdiv 10000

variable {c : CouponCalculation} {creditType : CreditType} {report : Report}
  {raw discounted adjusted : Pools}

/-- The pool as the code computes it: the clamp is part of the true-up. -/
theorem Staged.carbonPool (h : c.Staged creditType report raw discounted adjusted)
    (htype : creditType.CarbonOnly) :
    c.carbonPool = ((if c.trueUpAmount = 0 then c.discountedCarbon
      else max (c.discountedCarbon + c.trueUpAmount) 0) * c.covenantBps).tdiv 10000 := by
  have hraw : raw.carbon = c.normalizedCarbon.tdiv creditDivisor * creditMinorUnits := by
    have hcredited := h.credited
    simp only [creditPools, bind_ok_iff, okOr_ok_iff, checkedDiv_eq_some, i128_eq_some] at hcredited
    obtain ⟨credits, ⟨-, -, rfl⟩, _, ⟨-, rfl⟩, hpools⟩ := hcredited
    cases creditType with
    | carbon | blueCarbon =>
        simp only [pure_ok_iff] at hpools
        rw [← hpools]
    | biodiversity | basket => cases htype
  have hdiscounted : discounted.carbon = c.discountedCarbon := by
    rw [h.rate, discountedCarbon, ← hraw]
    rfl
  have hadjusted : adjusted.carbon = if c.trueUpAmount = 0 then c.discountedCarbon
      else max (c.discountedCarbon + c.trueUpAmount) 0 := by
    have htrueUp := h.trueUp
    unfold adjustPools at htrueUp
    split at htrueUp
    · next hzero =>
        injection htrueUp with htrueUp
        rw [if_pos hzero, ← htrueUp, hdiscounted]
    · next hzero =>
        rw [if_neg hzero]
        split at htrueUp
        · next hbio =>
            subst hbio
            cases htype
        · simp only [bind_ok_iff, okOr_ok_iff, i128_eq_some, pure_ok_iff] at htrueUp
          obtain ⟨_, ⟨-, rfl⟩, rfl⟩ := htrueUp
          rw [← hdiscounted]
  rw [← hadjusted]
  exact congrArg Pools.carbon h.pinned

/-- A discount within the whole leaves nothing negative to clamp. -/
theorem discountedCarbon_nonneg (hcarbon : 0 ≤ c.normalizedCarbon)
    (hdiscount : c.stalenessDiscountBps ≤ 10000) : 0 ≤ c.discountedCarbon := by
  unfold discountedCarbon creditDivisor creditMinorUnits
  have hunits : 0 ≤ c.normalizedCarbon.tdiv 1000 := Int.tdiv_nonneg hcarbon (by decide)
  have hrate : 0 ≤ 10000 - (c.stalenessDiscountBps : Int) := by omega
  exact Int.tdiv_nonneg (mul_nonneg (mul_nonneg hunits (by decide)) hrate) (by decide)

/-- The two agree unless the discount exceeds the whole and no true-up clamps. -/
theorem Staged.recomputed (h : c.Staged creditType report raw discounted adjusted)
    (htype : creditType.CarbonOnly) (hcarbon : 0 ≤ c.normalizedCarbon)
    (hclamped : c.stalenessDiscountBps ≤ 10000 ∨ c.trueUpAmount ≠ 0) :
    c.carbonPool = c.recomputedCarbonPool := by
  rw [h.carbonPool htype, recomputedCarbonPool]
  split
  · next hzero =>
      have hdiscount : c.stalenessDiscountBps ≤ 10000 :=
        hclamped.resolve_right (not_not.mpr hzero)
      rw [hzero, add_zero, max_eq_left (discountedCarbon_nonneg hcarbon hdiscount)]
  · rfl

end CouponCalculation

/-! ## Runs -/

/-- When the event pays the first batch of the period, the oracle's discount is at most the whole, or
the pending true-ups do not cancel out. -/
def Clamped (id period : Nat) (e : ProtocolEvent) : Prop :=
  DiscountsWithin id period e ∨ (e.pre.engine.bond id).pendingTrueUp ≠ 0

/-- What a first batch under the condition records. -/
theorem FirstBatch.clamped {issuer : BondIssuer} {s : CouponEngine} {b b' : CouponBond}
    {bondId period : Nat} {creditType : CreditType} {staleness : StalenessState} {report : Report}
    {c : CouponCalculation}
    (h : FirstBatch issuer s b bondId period creditType staleness report c b')
    (hclamped : staleness.DiscountBounded ∨ b.pendingTrueUp ≠ 0) :
    c.stalenessDiscountBps ≤ 10000 ∨ c.trueUpAmount ≠ 0 := by
  rcases hclamped with hbounded | hpending
  · exact .inl (h.discount_le hbounded)
  · obtain ⟨_, _, _, t, _, -, -, ht, hamount, -⟩ := h.stages
    refine .inr ?_
    rw [hamount, (TrueUps.foldlM_take_ok _ ht).2]
    exact hpending

theorem protocolRun_clamped (d : Deployment) (l : List ProtocolInput) (id period : Nat)
    (hclamped : ∀ e ∈ protocolHistory d l, Clamped id period e) (c : CouponCalculation)
    (hc : ((protocolRun d l).engine.bond id).couponCalculation period = some c) :
    c.stalenessDiscountBps ≤ 10000 ∨ c.trueUpAmount ≠ 0 :=
  protocolRun_pinned d id period
    (fun _ _ _ _ _ _ _ hguard hbounded hfirst => hfirst.clamped (hguard.imp_left hbounded)) l hclamped
    c hc

/-- **A pinned calculation is immutable and can be replayed.** Whatever comes later, whatever the
oracle answers, it stays as it is and its normalization replays; and in every run in which the first
batch of the period finds a discount of at most the whole, or true-ups that do not cancel out, the
carbon pool of a bond that pays carbon only is the one recomputed from the records. -/
theorem pinned_calculation_replays (d : Deployment) (l : List ProtocolInput) (id period : Nat)
    (c : CouponCalculation)
    (hc : ((protocolRun d l).engine.bond id).getCouponCalculation period = some c) :
    (∀ l', ((protocolRun d (l ++ l')).engine.bond id).getCouponCalculation period = some c ∧
        ((protocolRun d (l ++ l')).engine.bond id).replayCouponConversion period
          = .ok c.normalizedCarbon) ∧
      ((∀ e ∈ protocolHistory d l, Clamped id period e) → ∀ config,
        ((protocolRun d l).base.issuer.bond id).config = some config →
        config.creditType.CarbonOnly → c.carbonPool = c.recomputedCarbonPool) := by
  rw [(protocolRun_couponSound d l id).pinned.calculation] at hc
  have hkept := protocolRun_kept d l id hc
  refine ⟨fun l' => ?_, fun hclamped config hconfig htype => ?_⟩
  · have hlater : ((protocolRun d (l ++ l')).engine.bond id).getCouponCalculation period = some c := by
      rw [(protocolRun_couponSound d (l ++ l') id).pinned.calculation]
      exact protocolRun_calculation_kept d l l' id hc
    exact ⟨hlater, (CouponBond.replay_eq hlater).trans hkept.replays⟩
  · obtain ⟨config', report, raw, discounted, adjusted, hconfig', -, hstaged⟩ := hkept.staged
    obtain rfl := Option.some.inj (hconfig.symm.trans hconfig')
    exact hstaged.recomputed htype hkept.nonneg (protocolRun_clamped d l id period hclamped c hc)

/-- The sample coupon replays to five credits of carbon. -/
theorem pinned_calculation_replays_sample :
    ∃ c, ((protocolRun sampleDeployment sampleCoupon).engine.bond 1).getCouponCalculation 0 = some c ∧
      c.carbonPool = c.recomputedCarbonPool ∧
      ((protocolRun sampleDeployment (sampleCoupon ++ [])).engine.bond 1).replayCouponConversion 0
        = .ok c.normalizedCarbon := by
  obtain ⟨c, hc⟩ := Option.isSome_iff_exists.mp (show (((protocolRun sampleDeployment
    sampleCoupon).engine.bond 1).getCouponCalculation 0).isSome = true by decide)
  have hresult := pinned_calculation_replays sampleDeployment sampleCoupon 1 0 c hc
  exact ⟨c, hc, hresult.2 (fun e he => .inl (sampleCoupon_discountsWithin e he)) sampleConfig rfl
    trivial, (hresult.1 []).2⟩

/-- The stored pool is negative, while the records give an empty one. -/
theorem over_discounted_not_recomputed :
    (((suiteRun sampleSuite sampleOverDiscounted).protocol.engine.bond 1).getCouponCalculation 0).map
      (fun c => (c.normalizedCarbon, c.stalenessDiscountBps, c.trueUpAmount, c.covenantBps,
        c.carbonPool, c.recomputedCarbonPool)) = some (5000, 20000, 0, 10000, -5000000, 0) ∧
      (((suiteRun sampleSuite sampleOverDiscounted).protocol.base.issuer.bond 1).config).map
        BondConfig.creditType = some .carbon := by
  decide

end VerdantBond
