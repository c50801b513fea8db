import VerdantBond.Protocol.BatchedCoupon

set_option autoImplicit false

/-! # No over-distribution

The batches of a period are told apart by a bare index: each must start where the last one stopped,
and its holders are compared with the earlier ones of its own list only. A later batch with another
list can therefore name a holder again, who is then credited again. A second way out of the pool is
a tier-one discount above the whole, which makes the pool negative. In every run without these two
cases nobody is credited twice for a period and the pool is never exceeded.
-/

namespace VerdantBond

open Function Machine

/-! ## Who is credited -/

variable (d : Deployment) (l : List ProtocolInput) (id period : Nat)

/-- The event credits the holder for the period. -/
def CreditsPeriod (holder : Address) (e : ProtocolEvent) : Prop :=
  0 < creditedForIn id period holder .carbon e ∨ 0 < creditedForIn id period holder .biodiversity e

instance (id period : Nat) (holder : Address) (e : ProtocolEvent) :
    Decidable (CreditsPeriod id period holder e) := inferInstanceAs (Decidable (_ ∨ _))

/-- How often a holder was credited for a period. -/
def timesCredited (holder : Address) (es : List ProtocolEvent) : Nat :=
  es.countP fun e => CreditsPeriod id period holder e

variable {c : CouponCalculation}

/-- Only who is in the slice of a paid batch is credited. -/
theorem PeriodPaid.credited_of_not_mem {id period : Nat} {e : ProtocolEvent} {batch : CouponBatch}
    {payout : Payout} {info : PeriodInfo} (h : PeriodPaid id period e batch c payout info)
    {holder : Address} (hholder : holder ∉ slotsIn id period e) (t : CreditType) :
    creditedForIn id period holder t e = 0 := by
  obtain ⟨_, _, -, hd⟩ := h.distributed
  obtain ⟨_, _, _, -, -, -, hfold⟩ := hd.source
  rw [h.slots] at hholder
  rw [h.credited]
  unfold ProtocolWorld.account
  rw [hd.account, Payout.foldlM_payHolder_other hfold hholder, sub_self]

/-- A holder is credited at most once for each slot. -/
theorem protocolRun_timesCredited (holder : Address) :
    timesCredited id period holder (protocolHistory d l)
      ≤ (slots id period (protocolHistory d l)).count holder := by
  refine protocolHistory_induct d (P := fun es _ => timesCredited id period holder es
    ≤ (slots id period es).count holder) (le_refl _) (fun l i h => ?_) l
  unfold timesCredited at h ⊢
  rw [slots_snoc, List.countP_append, List.count_append, List.countP_singleton]
  refine add_le_add h ?_
  split
  · next hcredits =>
      have hcredits := of_decide_eq_true hcredits
      refine List.one_le_count_iff.mpr ?_
      by_contra hnot
      -- a credit outside the slots would be one of zero
      have hzero : ∀ t, creditedForIn id period holder t
          (protocolMachine.event (protocolRun d l) i) = 0 := by
        rcases period_event (protocolRun_couponSound d l id).pinned period i with
          hidle | ⟨batch, c, payout, info, hpaid⟩
        · exact hidle.credited holder
        · exact hpaid.credited_of_not_mem hnot
      unfold CreditsPeriod at hcredits
      rw [hzero, hzero] at hcredits
      omega
  · exact Nat.zero_le _

/-! ## The pools -/

/-- When the event pays the first batch of the period, the oracle's discount is at most the whole. -/
def DiscountsWithin (e : ProtocolEvent) : Prop :=
  (paidBatch id period e).isSome = true →
    (e.pre.engine.bond id).couponCalculation period = none →
    ∀ env call projectId staleness, e.input.couponCall = some (env, call) →
      (e.pre.engine.bond id).bondProject = some projectId →
      env.getProjectStalenessState projectId e.pre.base.clock.timestamp = some staleness →
      staleness.DiscountBounded

/-- The pinned pools are not negative in a run whose discounts stay within the whole. -/
theorem protocolRun_poolsNonneg (hdiscount : ∀ e ∈ protocolHistory d l, DiscountsWithin id period e)
    (c : CouponCalculation)
    (hc : ((protocolRun d l).engine.bond id).couponCalculation period = some c) :
    c.pools.Nonneg := by
  refine protocolHistory_guarded d (P := fun _ w => ∀ c,
    (w.engine.bond id).couponCalculation period = some c → c.pools.Nonneg) ?_
    (fun l i h hguard => ?_) l (guarded_of_forall hdiscount) c hc
  · intro c hc
    cases hc
  · intro c hc
    rcases period_event (protocolRun_couponSound d l id).pinned period i with
      hidle | ⟨batch, c', payout, info, hpaid⟩
    · exact h c (hidle.couponCalculation.symm.trans hc)
    · rw [hpaid.calculation] at hc
      cases hc
      obtain ⟨env, call, hcall, hd⟩ := hpaid.distributed
      obtain ⟨creditType, staleness, report, -, horacle, hsource, -⟩ := hd.source
      rw [hpaid.periodIndex] at hsource
      rcases hsource with hold | ⟨hnone, hfresh⟩
      · exact h c hold
      · obtain ⟨projectId, hproject, hstaleness, -⟩ := CouponEngine.readOracle_ok horacle
        refine hfresh.nonneg (protocolRun_tablesInBounds d l) ?_
        exact hguard (by rw [hpaid.paid]; rfl) hnone env call projectId staleness hcall hproject
          hstaleness

/-- What is due to any holders is within the pools. -/
theorem protocolRun_due_le (hdiscount : ∀ e ∈ protocolHistory d l, DiscountsWithin id period e)
    (hc : ((protocolRun d l).engine.bond id).couponCalculation period = some c)
    {holders : List Address} (hnodup : holders.Nodup) :
    (holders.map fun h => c.dueTotal ((protocolRun d l).balanceAt id c.balanceVersion h)).sum
      ≤ c.carbonPool + c.biodiversityPool := by
  have hof := (protocolRun_couponSound d l id).calculation period c hc
  obtain ⟨-, htotal, hsums⟩ := protocolRun_snapshot d l id hof.version
  exact sum_dueTotal_le (protocolRun_poolsNonneg d l id period hdiscount c hc)
    (hof.total ▸ htotal) (hof.total ▸ hsums holders hnodup)

/-- What is left of a period is not negative, if its slices name no holder twice. -/
theorem protocolRun_undistributed_nonneg (hslots : (slots id period (protocolHistory d l)).Nodup)
    (hdiscount : ∀ e ∈ protocolHistory d l, DiscountsWithin id period e) (info : PeriodInfo)
    (hinfo : ((protocolRun d l).engine.bond id).periodInfo period = some info) :
    0 ≤ info.undistributed := by
  cases hc : ((protocolRun d l).engine.bond id).couponCalculation period with
  | none =>
      rw [((protocolRun_couponSound d l id).pinned.unstarted period hc).1] at hinfo
      cases hinfo
  | some c =>
      obtain ⟨info', hinfo', hundistributed, hbooked⟩ :=
        (protocolRun_books d l id period).started c hc
      rw [hinfo] at hinfo'
      cases hinfo'
      have hearned := hbooked.earned (protocolRun_poolsNonneg d l id period hdiscount c hc)
      have hwithin := protocolRun_due_le d l id period hdiscount hc hslots
      rw [hundistributed]
      split <;> omega

/-! ## The result -/

/-- **No over-distribution.** In every run in which the slices of the paid batches of a period name
no holder twice, and the discount at its first batch is at most the whole: nobody is credited more
than once for the period, what is credited raises the balances and stays within the pinned pool, and
what is left of it is not negative. -/
theorem no_over_distribution (d : Deployment) (l : List ProtocolInput) (id period : Nat)
    (hslots : (slots id period (protocolHistory d l)).Nodup)
    (hdiscount : ∀ e ∈ protocolHistory d l, DiscountsWithin id period e) :
    (∀ holder, timesCredited id period holder (protocolHistory d l) ≤ 1) ∧
      (∀ holder, ∀ e ∈ protocolHistory d l, RaisesBalances id period holder e) ∧
      (∀ c, ((protocolRun d l).engine.bond id).getCouponCalculation period = some c →
        ∀ holders : List Address, holders.Nodup →
          (holders.map fun h => creditedFor id period h .carbon (protocolHistory d l)
            + creditedFor id period h .biodiversity (protocolHistory d l)).sum
          ≤ c.carbonPool + c.biodiversityPool) ∧
      ∀ info, ((protocolRun d l).engine.bond id).periodInfo period = some info →
        0 ≤ info.undistributed := by
  have hsound := protocolRun_couponSound d l id
  have hbooks := protocolRun_books d l id period
  refine ⟨fun holder => ?_, protocolRun_raisesBalances id period d l, fun c hc holders hnodup => ?_,
    protocolRun_undistributed_nonneg d l id period hslots hdiscount⟩
  · exact le_trans (protocolRun_timesCredited d l id period holder)
      (List.nodup_iff_count_le_one.mp hslots holder)
  · rw [hsound.pinned.calculation] at hc
    refine le_trans (List.sum_le_sum fun h _ => ?_)
      (protocolRun_due_le d l id period hdiscount hc hnodup)
    have hnonneg := protocolRun_poolsNonneg d l id period hdiscount c hc
    obtain ⟨_, -, -, hbooked⟩ := hbooks.started c hc
    have hof := hsound.calculation period c hc
    obtain ⟨hbalance, htotal, -⟩ := protocolRun_snapshot d l id hof.version
    have hcount : ((slots id period (protocolHistory d l)).count h : Int) ≤ 1 := by
      exact_mod_cast List.nodup_iff_count_le_one.mp hslots h
    rw [hbooked.credited hnonneg, hbooked.credited hnonneg, ← mul_add]
    calc ((slots id period (protocolHistory d l)).count h : Int)
          * c.dueTotal ((protocolRun d l).balanceAt id c.balanceVersion h)
        ≤ 1 * c.dueTotal ((protocolRun d l).balanceAt id c.balanceVersion h) :=
          mul_le_mul_of_nonneg_right hcount
            (dueTotal_nonneg hnonneg (hof.total ▸ htotal) (hbalance h))
      _ = c.dueTotal ((protocolRun d l).balanceAt id c.balanceVersion h) := one_mul _

/-- The reports of the sample are fresh, so nothing is taken. -/
theorem discountsWithin_of_sampleOracle {l : List ProtocolInput}
    (h : ∀ i ∈ l, ∀ env call, i.couponCall = some (env, call) → env = sampleOracle) :
    ∀ e ∈ protocolHistory sampleDeployment l, DiscountsWithin 1 0 e := by
  intro e he _ _ env call _ _ hcall _ hstaleness htier
  obtain rfl := h e.input (protocolMachine.input_mem_of_mem_history he) env call hcall
  cases hstaleness
  cases htier

theorem sampleCoupon_discountsWithin :
    ∀ e ∈ protocolHistory sampleDeployment sampleCoupon, DiscountsWithin 1 0 e :=
  discountsWithin_of_sampleOracle (by
    simp [sampleCoupon, sampleIssue, sampleSubscription, ProtocolInput.couponCall])

/-- The two holders of the sample are credited once each, within the pool. -/
theorem no_over_distribution_sample :
    (∀ holder, timesCredited 1 0 holder (protocolHistory sampleDeployment sampleBatches) ≤ 1) ∧
      ∀ info, ((protocolRun sampleDeployment sampleBatches).engine.bond 1).periodInfo 0 = some info →
        0 ≤ info.undistributed := by
  have hresult := no_over_distribution sampleDeployment sampleBatches 1 0 (by decide)
    (discountsWithin_of_sampleOracle (by
      simp [sampleBatches, sampleIssue, sampleSubscription, ProtocolInput.couponCall]))
  exact ⟨hresult.1, hresult.2.2.2⟩

/-- The second batch of the period passes another list, in which the holder paid by the first batch
stands at the cursor. -/
def sampleTwice : List ProtocolInput :=
  sampleIssue ++ [
    .coupon sampleOracle (.distributeCouponBatch ⟨⟨1⟩, 1, 0, [⟨2⟩, ⟨3⟩, ⟨4⟩], 1, 0, 1, 1⟩),
    .coupon sampleOracle (.distributeCouponBatch ⟨⟨1⟩, 1, 0, [⟨3⟩, ⟨2⟩], 1, 1, 1, 2⟩)]

/-- The holder is credited twice, twice the pool in all, and the period is left with a negative
remainder. -/
theorem second_list_credits_twice :
    timesCredited 1 0 ⟨2⟩ (protocolHistory sampleDeployment sampleTwice) = 2 ∧
      (((protocolRun sampleDeployment sampleTwice).engine.bond 1).getCouponCalculation 0).map
        (fun c => c.carbonPool + c.biodiversityPool) = some 5000000 ∧
      creditedFor 1 0 ⟨2⟩ .carbon (protocolHistory sampleDeployment sampleTwice) = 10000000 ∧
      (((protocolRun sampleDeployment sampleTwice).engine.bond 1).periodInfo 0).map
        PeriodInfo.undistributed = some (-5000000) := by
  decide

end VerdantBond
