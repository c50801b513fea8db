import VerdantBond.Protocol.Periods

set_option autoImplicit false

/-! # Batched distribution is one pro-rata distribution

When all batches of a period pass the same list of holders, the cursor walks the list once, and a
completed period has paid every holder of it exactly the pro-rata share at the snapshot that the
first batch pinned, whatever happened in between.
-/

namespace VerdantBond

open Function Machine

/-! ## The pinned calculation -/

/-- The calculation that a paid batch of the period left is the period's ever after. -/
def KeepsCalculation (id period : Nat) (es : List ProtocolEvent) (w : ProtocolWorld) : Prop :=
  ∀ e ∈ es, (paidBatch id period e).isSome = true →
    ((e.post.engine.bond id).couponCalculation period).isSome = true ∧
      (e.post.engine.bond id).couponCalculation period
        = (w.engine.bond id).couponCalculation period

variable {id period : Nat} {es : List ProtocolEvent} {e : ProtocolEvent} {batch : CouponBatch}
  {c : CouponCalculation} {payout : Payout} {info : PeriodInfo} {holders : List Address}

theorem KeepsCalculation.idle (h : KeepsCalculation id period es e.pre)
    (hidle : PeriodIdle id period e) : KeepsCalculation id period (es ++ [e]) e.post := by
  intro e' he' hsome
  rcases List.mem_append.mp he' with he' | he'
  · obtain ⟨hpinned, heq⟩ := h e' he' hsome
    exact ⟨hpinned, heq.trans hidle.couponCalculation.symm⟩
  · rw [List.mem_singleton.mp he', hidle.unpaid] at hsome
    cases hsome

theorem KeepsCalculation.pay (h : KeepsCalculation id period es e.pre)
    (hpaid : PeriodPaid id period e batch c payout info) :
    KeepsCalculation id period (es ++ [e]) e.post := by
  intro e' he' hsome
  rcases List.mem_append.mp he' with he' | he'
  · -- an earlier batch was paid, so this one found its calculation
    obtain ⟨hpinned, heq⟩ := h e' he' hsome
    refine ⟨hpinned, heq.trans ?_⟩
    rcases hpaid.source with hold | hnone
    · rw [hold, hpaid.calculation]
    · rw [heq, hnone] at hpinned
      cases hpinned
  · rw [List.mem_singleton.mp he']
    exact ⟨by rw [hpaid.calculation]; rfl, rfl⟩

theorem protocolRun_keepsCalculation (d : Deployment) (l : List ProtocolInput) (id period : Nat) :
    KeepsCalculation id period (protocolHistory d l) (protocolRun d l) := by
  refine protocolHistory_induct d (P := KeepsCalculation id period) ?_ (fun l i h => ?_) l
  · exact fun e he => absurd he List.not_mem_nil
  · rcases period_event (protocolRun_couponSound d l id).pinned period i with
      hidle | ⟨batch, c, payout, info, hpaid⟩
    · exact KeepsCalculation.idle h hidle
    · exact KeepsCalculation.pay h hpaid

/-! ## The walk over the list -/

/-- The slots are the beginning of the list, and all of it once the period is complete. -/
structure Walked (id period : Nat) (holders : List Address) (es : List ProtocolEvent)
    (w : ProtocolWorld) : Prop where
  upTo : slots id period es = holders.take (slots id period es).length
  done : ∀ info, (w.engine.bond id).periodInfo period = some info → info.distributed = true →
    slots id period es = holders

theorem Walked.idle (h : Walked id period holders es e.pre) (hidle : PeriodIdle id period e) :
    Walked id period holders (es ++ [e]) e.post := by
  have hslots : slots id period (es ++ [e]) = slots id period es := by
    rw [slots_snoc, hidle.slots, List.append_nil]
  refine ⟨by rw [hslots]; exact h.upTo, fun info hinfo hdone => ?_⟩
  rw [hidle.periodInfo] at hinfo
  rw [hslots]
  exact h.done info hinfo hdone

/-- A batch continues where the slots end. -/
theorem Walked.pay (h : Walked id period holders es e.pre)
    (hpaid : PeriodPaid id period e batch c payout info) (hbooks : PeriodBooks id period es e.pre)
    (hpinned : (e.pre.engine.bond id).Pinned) (hlist : batch.holders = holders) :
    Walked id period holders (es ++ [e]) e.post := by
  have hcursor := (hbooks.before hpinned hpaid.source).cursor
  obtain ⟨_, _, -, hd⟩ := hpaid.distributed
  have hoffset : batch.offset = (slots id period es).length := by
    rw [hd.offset, hpaid.periodIndex, hcursor]
  have hbound := hd.bound
  rw [hlist] at hbound
  have hslots : slots id period (es ++ [e]) = holders.take (batch.offset + batch.limit) := by
    rw [slots_snoc, hpaid.slots, CouponBatch.slice, hlist, List.take_add, hoffset, ← h.upTo]
  refine ⟨?_, fun info' hinfo hdone => ?_⟩
  · rw [hslots, List.length_take, min_eq_left hbound]
  · rw [hd.periodInfo, hpaid.periodIndex, update_self] at hinfo
    cases hinfo
    have hcomplete : batch.Complete := of_decide_eq_true (hd.distributed.symm.trans hdone)
    unfold CouponBatch.Complete at hcomplete
    rw [hslots, hcomplete, hlist, List.take_length]

/-- Every successful distribution of the period passes the list. -/
def PassesList (id period : Nat) (holders : List Address) (e : ProtocolEvent) : Prop :=
  ∀ batch, e.input.batch = some batch → batch.bondId = id → batch.periodIndex = period →
    e.output.isSome = true → batch.holders = holders

theorem PeriodPaid.passesList (hpaid : PeriodPaid id period e batch c payout info)
    (h : PassesList id period holders e) : batch.holders = holders := by
  obtain ⟨env, call, hcall, hbatch, hid, hperiod, hout, -⟩ := paidBatch_eq_some.mp hpaid.paid
  exact h batch (e.input.batch_of_couponCall hcall hbatch) hid hperiod hout

theorem protocolRun_walked (d : Deployment) (l : List ProtocolInput) (id period : Nat)
    (holders : List Address)
    (hlist : ∀ e ∈ protocolHistory d l, PassesList id period holders e) :
    Walked id period holders (protocolHistory d l) (protocolRun d l) := by
  refine protocolHistory_guarded d (P := Walked id period holders) ?_ (fun l i h hguard => ?_) l
    (guarded_of_forall hlist)
  · exact ⟨rfl, (fun info hinfo => by cases hinfo)⟩
  · have hpinned := (protocolRun_couponSound d l id).pinned
    rcases period_event hpinned period i with hidle | ⟨batch, c, payout, info, hpaid⟩
    · exact Walked.idle h hidle
    · exact Walked.pay h hpaid (protocolRun_books d l id period) hpinned
        (hpaid.passesList hguard)

/-! ## The result -/

/-- **Batched distribution is one pro-rata distribution at the pinned snapshot.** Let all successful
distributions of a period pass the same duplicate-free list. Once the period is distributed, it has
the calculation `c` that its first paid batch pinned, about the issuer's balances and total at the
pinned version; and if its pools are not negative, every listed holder was credited, in each credit
type, exactly its share of the pool rounded down, nobody else anything, and the record shows the sum
of these credits and the rest of the pool. The holder's balances rise by what is credited. -/
theorem batched_coupon_pro_rata (d : Deployment) (l : List ProtocolInput) (id period : Nat)
    (holders : List Address) (hnodup : holders.Nodup)
    (hlist : ∀ e ∈ protocolHistory d l, PassesList id period holders e) (info : PeriodInfo)
    (hinfo : ((protocolRun d l).engine.bond id).periodInfo period = some info)
    (hdone : info.distributed = true) :
    ∃ (c : CouponCalculation) (balance : Address → Int),
      ((protocolRun d l).engine.bond id).getCouponCalculation period = some c ∧
      (∀ e ∈ protocolHistory d l, (paidBatch id period e).isSome = true →
        (e.post.engine.bond id).couponCalculation period = some c) ∧
      (∀ h, ∀ e ∈ protocolHistory d l, RaisesBalances id period h e) ∧
      (protocolRun d l).base.issuer.totalSubscribedAtVersion id c.balanceVersion
        = .ok c.totalSubscribed ∧
      (∀ h, (protocolRun d l).base.issuer.getHolderBalanceAtVersion id h c.balanceVersion
        = .ok (balance h)) ∧
      (0 ≤ c.carbonPool → 0 ≤ c.biodiversityPool →
        (∀ h ∈ holders,
          creditedFor id period h .carbon (protocolHistory d l)
              = c.carbonPool * balance h / c.totalSubscribed ∧
            creditedFor id period h .biodiversity (protocolHistory d l)
              = c.biodiversityPool * balance h / c.totalSubscribed) ∧
        (∀ h ∉ holders, ∀ t, creditedFor id period h t (protocolHistory d l) = 0) ∧
        info.totalCreditsEarned = (holders.map fun h =>
          creditedFor id period h .carbon (protocolHistory d l)
            + creditedFor id period h .biodiversity (protocolHistory d l)).sum ∧
        info.totalCreditsEarned + info.undistributed = c.carbonPool + c.biodiversityPool ∧
        0 ≤ info.undistributed) := by
  have hsound := protocolRun_couponSound d l id
  have hbooks := protocolRun_books d l id period
  have hslots := (protocolRun_walked d l id period holders hlist).done info hinfo hdone
  -- a period with a record has its calculation
  obtain ⟨c, hc⟩ : ∃ c, ((protocolRun d l).engine.bond id).couponCalculation period = some c := by
    refine Option.ne_none_iff_exists'.mp fun hnone => ?_
    rw [(hsound.pinned.unstarted period hnone).1] at hinfo
    cases hinfo
  have hof := hsound.calculation period c hc
  obtain ⟨state, hstate⟩ := Option.isSome_iff_exists.mp hof.issued
  have hledger := (protocolRun_issuer_sound d l id).ledger
  obtain ⟨info', hinfo', hundistributed, hbooked⟩ := hbooks.started c hc
  rw [hinfo] at hinfo'
  cases hinfo'
  rw [if_pos hdone] at hundistributed
  refine ⟨c, (protocolRun d l).balanceAt id c.balanceVersion, ?_, fun e he hpaid => ?_,
    protocolRun_raisesBalances id period d l, ?_, fun h => ?_, fun hcarbon hbio => ?_⟩
  · rw [hsound.pinned.calculation, hc]
  · rw [(protocolRun_keepsCalculation d l id period e he hpaid).2, hc]
  · rw [BondIssuer.totalSubscribedAtVersion_eq hledger hstate hof.version, hof.total]
  · exact BondIssuer.getHolderBalanceAtVersion_eq hledger hstate hof.version h
  · have hnonneg : c.pools.Nonneg := ⟨hcarbon, hbio⟩
    have hcredited := hbooked.credited hnonneg
    have hearned := hbooked.earned hnonneg
    rw [hslots] at hcredited hearned
    have hlisted : ∀ h ∈ holders, ∀ t, creditedFor id period h t (protocolHistory d l)
        = (c.due ((protocolRun d l).balanceAt id c.balanceVersion h)).of t := by
      intro h hh t
      rw [hcredited, List.count_eq_one_of_mem hnodup hh, Nat.cast_one, one_mul]
    obtain ⟨-, htotal, hsums⟩ := protocolRun_snapshot d l id hof.version
    have hdust := sum_dueTotal_le hnonneg (hof.total ▸ htotal) (hof.total ▸ hsums holders hnodup)
    refine ⟨fun h hh => ⟨hlisted h hh .carbon, hlisted h hh .biodiversity⟩, fun h hh t => ?_, ?_,
      ?_, ?_⟩
    · rw [hcredited, List.count_eq_zero_of_not_mem hh, Nat.cast_zero, zero_mul]
    · rw [hearned]
      refine congrArg List.sum (List.map_congr_left fun h hh => ?_)
      rw [hlisted h hh, hlisted h hh]
      rfl
    · rw [hundistributed]
      ring
    · rw [hundistributed, hearned]
      omega

/-- Two holders are paid in two batches, and one sells to the other in between. -/
def sampleBatches : List ProtocolInput :=
  sampleIssue ++ [.issuer (.call sampleEnv (.subscribe ⟨3⟩ 1 2 0)),
    .coupon sampleOracle (.distributeCouponBatch ⟨⟨1⟩, 1, 0, [⟨2⟩, ⟨3⟩], 1, 0, 1, 1⟩),
    .issuer (.call sampleEnv (.transfer ⟨2⟩ ⟨3⟩ 1 4 1)),
    .coupon sampleOracle (.distributeCouponBatch ⟨⟨1⟩, 1, 0, [⟨2⟩, ⟨3⟩], 1, 1, 1, 2⟩)]

/-- Both get their part of five credits on the balances before the sale, five and two. -/
theorem batched_coupon_pro_rata_sample :
    creditedFor 1 0 ⟨2⟩ .carbon (protocolHistory sampleDeployment sampleBatches)
        = 5000000 * 5 / 7 ∧
      creditedFor 1 0 ⟨3⟩ .carbon (protocolHistory sampleDeployment sampleBatches)
        = 5000000 * 2 / 7 := by
  have hlist : ∀ e ∈ protocolHistory sampleDeployment sampleBatches,
      PassesList 1 0 [⟨2⟩, ⟨3⟩] e := by
    intro e he
    simp only [protocolHistory, sampleBatches, sampleIssue, sampleSubscription, List.map_cons,
      List.map_nil, List.cons_append, List.nil_append, Machine.history, List.mem_cons,
      List.not_mem_nil, or_false] at he
    rcases he with rfl | rfl | rfl | rfl | rfl | rfl | rfl
    all_goals
      intro batch hbatch _ _ _
      cases hbatch
    · rfl
    · rfl
  obtain ⟨c, balance, hc, -, -, -, hread, hmain⟩ :=
    batched_coupon_pro_rata sampleDeployment sampleBatches 1 0 [⟨2⟩, ⟨3⟩] (by decide) hlist
      ⟨0, 10, 20, 4999999, true, 1, 1⟩ (by decide) rfl
  have hcalc : (((protocolRun sampleDeployment sampleBatches).engine.bond 1).getCouponCalculation
      0).map (fun c => (c.carbonPool, c.biodiversityPool, c.totalSubscribed, c.balanceVersion))
        = some (5000000, 0, 7, 2) := by decide
  rw [hc] at hcalc
  simp only [Option.map_some, Option.some.injEq, Prod.mk.injEq] at hcalc
  obtain ⟨hcarbon, hbio, htotal, hversion⟩ := hcalc
  have hbalance : ∀ h v, ((protocolRun sampleDeployment
      sampleBatches).base.issuer.getHolderBalanceAtVersion 1 h 2).toOption = some v →
        balance h = v := by
    intro h v hv
    rw [← hversion, hread h] at hv
    exact Option.some.inj hv
  have hcredits := (hmain (by omega) (by omega)).1
  have hfirst := (hcredits ⟨2⟩ (by decide)).1
  have hsecond := (hcredits ⟨3⟩ (by decide)).1
  rw [hbalance ⟨2⟩ 5 (by decide), hcarbon, htotal] at hfirst
  rw [hbalance ⟨3⟩ 2 (by decide), hcarbon, htotal] at hsecond
  exact ⟨hfirst, hsecond⟩

end VerdantBond
