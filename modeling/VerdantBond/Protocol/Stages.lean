import VerdantBond.Protocol.OverDistribution

set_option autoImplicit false

/-! # The stages behind a pinned calculation

A calculation records what its pools were computed from: the normalized carbon, the discount, the
true-up and the covenant rate. `Staged` recomputes the pools from these records, in the order of the
code, and holds of every calculation that is pinned in a run. A pinned calculation never changes.
-/

namespace VerdantBond

open Function Machine

/-! ## Stages -/

/-- Both pools, at a rate in basis points. -/
def Pools.scale (pools : Pools) (bps : Int) : Pools :=
  ⟨(pools.carbon * bps).tdiv 10000, (pools.biodiversity * bps).tdiv 10000⟩

theorem mul_tdiv_whole (x : Int) : (x * 10000).tdiv 10000 = x :=
  Int.mul_tdiv_cancel x (by decide)

@[simp] theorem Pools.scale_whole (pools : Pools) : pools.scale 10000 = pools := by
  unfold Pools.scale
  rw [mul_tdiv_whole, mul_tdiv_whole]

variable {staleness : StalenessState} {pools : Pools} {issuer : BondIssuer} {bondId period p : Nat}
  {b : CouponBond} {report : Report} {c : CouponCalculation}

variable {pools' : Pools} {b' : CouponBond}

/-- The discount, from the rate that is recorded for it. -/
theorem discountPools_scale (h : discountPools staleness pools = .ok pools') :
    pools' = pools.scale (10000
      - ((if staleness.currentTier = 1 then staleness.discountBps else 0 : Nat) : Int)) := by
  unfold discountPools at h
  split at h
  · next htier =>
      simp only [bind_ok_iff, okOr_ok_iff, i128_eq_some, pure_ok_iff] at h
      obtain ⟨_, ⟨-, rfl⟩, carbon, hcarbon, biodiversity, hbio, rfl⟩ := h
      rw [if_pos htier.1, (checkedRatio_ok hcarbon).2, (checkedRatio_ok hbio).2]
      rfl
  · next htier =>
      injection h with h
      -- no discount is one of zero
      have hzero : (if staleness.currentTier = 1 then staleness.discountBps else 0) = 0 := by
        split
        · next h₁ =>
            by_contra hpos
            exact htier ⟨h₁, Nat.pos_of_ne_zero hpos⟩
        · rfl
      rw [hzero, Nat.cast_zero, sub_zero, Pools.scale_whole, h]

/-- Without a cycle the covenants scale the pools by the rate they record. -/
theorem Terms.scale {bps : Nat} (hcycle : b.covenantCycle period = none)
    (h : Terms issuer bondId b period report pools b' pools' bps) : pools' = pools.scale bps := by
  cases h with
  | plain => exact (Pools.scale_whole pools).symm
  | orphan _ hsome | recorded _ hsome =>
      rw [hcycle] at hsome
      cases hsome
  | evaluated _ _ heval =>
      obtain ⟨hcarbon, hbio⟩ := CovenantConfig.evaluate_ok heval
      rw [(checkedRatio_ok hcarbon).2, (checkedRatio_ok hbio).2]
      rfl

namespace CouponCalculation

/-- The pools of the calculation, recomputed from its records and the report. -/
structure Staged (c : CouponCalculation) (creditType : CreditType) (report : Report)
    (raw discounted adjusted : Pools) : Prop where
  credited : creditPools creditType report c.normalizedCarbon = .ok raw
  rate : discounted = raw.scale (10000 - (c.stalenessDiscountBps : Int))
  trueUp : adjustPools creditType c.trueUpAmount discounted = .ok adjusted
  pinned : c.pools = adjusted.scale c.covenantBps

/-- What `replay_coupon_conversion` computes from the records. -/
def replay (c : CouponCalculation) : Outcome BondError Int :=
  if c.carbonConversionApplied then checkedRatio c.rawCarbon c.factorNumerator c.factorDenominator
  else .ok 0

/-- Everything a pinned calculation of a bond `ib` of the issuer keeps of its first batch. -/
structure Kept (c : CouponCalculation) (ib : Bond) : Prop where
  replays : c.replay = .ok c.normalizedCarbon
  nonneg : 0 ≤ c.normalizedCarbon
  staged : ∃ config report raw discounted adjusted, ib.config = some config ∧
    report.id = c.reportId ∧ c.Staged config.creditType report raw discounted adjusted

end CouponCalculation

theorem CouponBond.replay_eq (h : b.getCouponCalculation period = some c) :
    b.replayCouponConversion period = c.replay := by
  unfold replayCouponConversion CouponCalculation.replay
  rw [h]
  rfl

namespace FirstBatch

variable {issuer : BondIssuer} {s : CouponEngine} {b b' : CouponBond} {bondId period : Nat}
  {creditType : CreditType} {staleness : StalenessState} {report : Report} {c : CouponCalculation}

theorem replays (h : FirstBatch issuer s b bondId period creditType staleness report c b') :
    c.replay = .ok c.normalizedCarbon := by
  obtain ⟨factor, -, hnumerator, hdenominator, hnormalize⟩ := h.normalized
  unfold CouponCalculation.replay
  rw [h.applied, h.rawCarbon, hnumerator, hdenominator]
  exact hnormalize

theorem staged (h : FirstBatch issuer s b bondId period creditType staleness report c b')
    (hcycle : b.covenantCycle period = none) :
    ∃ raw discounted adjusted, c.Staged creditType report raw discounted adjusted := by
  obtain ⟨raw, discounted, adjusted, t, b₁, hraw, hdiscount, -, -, hadjust, hterms, -⟩ := h.stages
  refine ⟨raw, discounted, adjusted, hraw, ?_, hadjust, ?_⟩
  · rw [h.discount]
    exact discountPools_scale hdiscount
  · exact Terms.scale (b := { b with trueUpAdjustment := t.adjustment }) hcycle hterms

end FirstBatch

/-! ## Calls -/

namespace RestStep

variable {env : Env} {clock : Clock} {issuer : BondIssuer} {s : CouponEngine} {id : Nat}
  {call : CouponCall} {b b' : CouponBond}

variable {c : CouponCalculation}

/-- **A calculation is pinned by the first batch of its period.** -/
theorem pins (h : RestStep env clock issuer s id call b b') {p : Nat}
    (hc : b'.couponCalculation p = some c) :
    b.couponCalculation p = some c ∨
      ∃ batch staleness report creditType b₁, call.batch = some batch ∧ batch.bondId = id ∧
        batch.periodIndex = p ∧ b = s.bond id ∧
        s.readOracle env clock b batch.reportId = .ok (staleness, report) ∧
        b.bondCreditType = some creditType ∧
        FirstBatch issuer s b id p creditType staleness report c b₁ := by
  cases h with
  | plain _ hperiods =>
      rw [hperiods.couponCalculation] at hc
      exact .inl hc
  | trueUp | sweep | migrate | configure => exact .inl hc
  | @distribute _ batch _ hcall hid hwindow houtcome =>
      subst hid
      cases houtcome with
      | flagged flag hb' =>
          subst hb'
          exact .inl hc
      | @paid staleness report creditType c' payout info b₁ horacle htype hopen hvalid hprepared
          hpaid hrest =>
          rw [hpaid.couponCalculation] at hc
          rcases hprepared with hfirst | hlater
          · rw [hfirst.couponCalculation] at hc
            by_cases hp : p = batch.periodIndex
            · subst hp
              rw [update_self] at hc
              cases hc
              exact .inr ⟨batch, staleness, report, creditType, b₁, hcall, rfl, rfl, rfl, horacle,
                htype, hfirst⟩
            · rw [update_of_ne hp] at hc
              exact .inl hc
          · rw [hlater.couponCalculation] at hc
            exact .inl hc

/-- A pinned calculation stays. -/
theorem keeps (h : RestStep env clock issuer s id call b b') {p : Nat}
    (hc : b.couponCalculation p = some c) : b'.couponCalculation p = some c := by
  cases h with
  | plain _ hperiods =>
      rw [hperiods.couponCalculation]
      exact hc
  | trueUp | sweep | migrate | configure => exact hc
  | @distribute _ batch _ hcall hid hwindow houtcome =>
      subst hid
      cases houtcome with
      | flagged flag hb' =>
          subst hb'
          exact hc
      | paid horacle htype hopen hvalid hprepared hpaid hrest =>
          rw [hpaid.couponCalculation]
          rcases hprepared with hfirst | hlater
          · have hne : p ≠ batch.periodIndex := by
              rintro rfl
              rw [hfirst.unpinned] at hc
              cases hc
            rw [hfirst.couponCalculation, update_of_ne hne]
            exact hc
          · rw [hlater.couponCalculation]
            exact hc

end RestStep

/-! ## Runs -/

/-- Whatever comes later, a pinned calculation stays. -/
theorem protocolRun_calculation_kept (d : Deployment) (l l' : List ProtocolInput) (id : Nat)
    (hc : ((protocolRun d l).engine.bond id).couponCalculation p = some c) :
    ((protocolRun d (l ++ l')).engine.bond id).couponCalculation p = some c := by
  induction l' using List.reverseRecOn with
  | nil =>
      rw [List.append_nil]
      exact hc
  | append_singleton l' i ih =>
      rw [← List.append_assoc, protocolRun_snoc]
      rcases protocolRun_rest d (l ++ l') i id with ⟨-, hsame⟩ | ⟨_, _, -, hstep⟩
      · rw [hsame]
        exact ih
      · exact hstep.keeps ih

/-- **Every pinned calculation keeps what its first batch recorded**, in every run. -/
theorem protocolRun_kept (d : Deployment) (l : List ProtocolInput) (id : Nat)
    (hc : ((protocolRun d l).engine.bond id).couponCalculation p = some c) :
    c.Kept ((protocolRun d l).base.issuer.bond id) := by
  induction l using List.reverseRecOn with
  | nil => cases hc
  | append_singleton l i ih =>
      obtain ⟨hpersists, -, -⟩ := protocolRun_issuer_later d l i id
      -- what held of the issuer's bond before the step holds after it
      have hlater : c.Kept ((protocolRun d l).base.issuer.bond id) →
          c.Kept ((protocolRun d (l ++ [i])).base.issuer.bond id) := by
        rintro ⟨hreplays, hnonneg, config, report, raw, discounted, adjusted, hconfig, hrest⟩
        exact ⟨hreplays, hnonneg, config, report, raw, discounted, adjusted,
          hpersists.config config hconfig, hrest⟩
      rw [protocolRun_snoc] at hc
      rcases protocolRun_rest d l i id with ⟨-, hsame⟩ | ⟨_, _, -, hstep⟩
      · rw [hsame] at hc
        exact hlater (ih hc)
      · rcases hstep.pins hc with hold | ⟨batch, staleness, report, creditType, b₁, -, -, -, -, -,
          htype, hfirst⟩
        · exact hlater (ih hold)
        · have hsound := protocolRun_couponSound d l id
          obtain ⟨config, hconfig, rfl⟩ := hsound.creditType creditType htype
          obtain ⟨raw, discounted, adjusted, hstaged⟩ :=
            hfirst.staged (hsound.pinned.unstarted _ hfirst.unpinned).2.2
          obtain ⟨factor, hfactor, -, -, hnormalize⟩ := hfirst.normalized
          exact hlater ⟨hfirst.replays, CouponEngine.normalize_nonneg (protocolRun_tablesInBounds d l)
            hfirst.rawNonneg hfactor hnormalize, config, report, raw, discounted, adjusted, hconfig,
            hfirst.reportId.symm, hstaged⟩

/-- **The rule for pinned calculations.** In a run whose events all meet `G`, every calculation of the
period has what a first batch under `G` gives it. -/
theorem protocolRun_pinned {G : ProtocolEvent → Prop} {Q : CouponCalculation → Prop} (d : Deployment)
    (id period : Nat)
    (hpin : ∀ (w : ProtocolWorld) (i : ProtocolInput) (creditType : CreditType)
      (staleness : StalenessState) (report : Report) (c : CouponCalculation) (b₁ : CouponBond),
      G (protocolMachine.event w i) →
      (DiscountsWithin id period (protocolMachine.event w i) → staleness.DiscountBounded) →
      FirstBatch w.base.issuer w.engine (w.engine.bond id) id period creditType staleness report c
        b₁ → Q c)
    (l : List ProtocolInput) (hG : ∀ e ∈ protocolHistory d l, G e) (c : CouponCalculation)
    (hc : ((protocolRun d l).engine.bond id).couponCalculation period = some c) : Q c := by
  refine protocolHistory_guarded d (P := fun _ w => ∀ c,
    (w.engine.bond id).couponCalculation period = some c → Q c) ?_
    (fun l i h hguard => ?_) l (guarded_of_forall hG) c hc
  · intro c hc
    cases hc
  · intro c hc
    have hsound := protocolRun_couponSound d l id
    rcases protocolRun_rest d l i id with ⟨-, hsame⟩ | ⟨env, call, hcall, hstep⟩
    · have hold : ((protocolRun d l).engine.bond id).couponCalculation period = some c := by
        rw [← hsame]
        exact hc
      exact h c hold
    · rcases hstep.pins hc with hold | ⟨batch, staleness, report, creditType, b₁, hbatch, -, -, -,
        horacle, -, hfirst⟩
      · exact h c hold
      · -- the period was started by this event, so it paid a batch of it
        refine hpin _ i creditType staleness report c b₁ hguard (fun hwithin => ?_) hfirst
        rcases period_event hsound.pinned period i with hidle | ⟨batch', c', payout, info, hpaid⟩
        · have hnone := hidle.couponCalculation.trans hfirst.unpinned
          rw [hnone] at hc
          cases hc
        · obtain ⟨projectId, hproject, hstaleness, -⟩ := CouponEngine.readOracle_ok horacle
          exact hwithin (by rw [hpaid.paid]; rfl) hfirst.unpinned env call projectId staleness
            (couponCall_of_callOn hcall) hproject hstaleness

/-- The recorded discount is at most the whole, in a run whose discounts are. -/
theorem FirstBatch.discount_le {s : CouponEngine} {creditType : CreditType}
    (h : FirstBatch issuer s b bondId period creditType staleness report c b')
    (hbounded : staleness.DiscountBounded) : c.stalenessDiscountBps ≤ 10000 := by
  rw [h.discount]
  split
  · next htier => exact hbounded htier
  · exact Nat.zero_le _

end VerdantBond
