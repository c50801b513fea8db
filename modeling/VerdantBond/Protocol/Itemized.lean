import VerdantBond.Protocol.Spending

set_option autoImplicit false

/-! # The itemized view of claimable credits

`claimable_credit_details` lists the entries below the period count, and `claim_credits` clears
them. Both miss what is itemized at or above the count. In every run that pays a holder within
reach the view adds up to the claimable total, and a claim leaves no entry.
-/

namespace VerdantBond

open Function Relation Machine ClaimableCreditDetail List

/-! ## The view -/

namespace CouponBond

/-- Every period under which the holder has an entry has its record. -/
def EntriesRecorded (b : CouponBond) (holder : Address) : Prop :=
  ∀ p t, (b.account holder).periodHolder p t ≠ 0 → (b.periodInfo p).isSome = true

variable {b : CouponBond} {holder : Address}

/-- A line of the view shows its entry. -/
theorem claimableCreditDetail_amount (hregular : (b.account holder).Regular)
    (hrecorded : b.EntriesRecorded holder) (p : Nat) (t : CreditType) :
    ((b.claimableCreditDetail holder p t).map amount).getD 0
      = (b.account holder).periodHolder p t := by
  have hnonneg : 0 ≤ (b.account holder).periodHolder p t := hregular.itemized_nonneg _
  unfold claimableCreditDetail
  by_cases hzero : (b.account holder).periodHolder p t ≤ 0
  · rw [if_pos hzero]
    exact le_antisymm hnonneg hzero
  · obtain ⟨info, hinfo⟩ := Option.isSome_iff_exists.mp (hrecorded p t (by omega))
    rw [if_neg hzero, hinfo]
    rfl

theorem sum_filterMap_amount {α : Type} (f : α → Option ClaimableCreditDetail) (l : List α) :
    ((l.filterMap f).map amount).sum
      = (l.map fun a => ((f a).map amount).getD 0).sum := by
  induction l with
  | nil => rfl
  | cons a l ih =>
      rw [map_cons, sum_cons, ← ih]
      cases hf : f a with
      | none =>
          rw [filterMap_cons_none hf]
          exact (zero_add _).symm
      | some detail =>
          rw [filterMap_cons_some hf, map_cons, sum_cons]
          rfl

/-- The view adds up to the entries below the count. -/
theorem sum_claimableCreditDetails (hregular : (b.account holder).Regular)
    (hrecorded : b.EntriesRecorded holder) :
    ((b.claimableCreditDetails holder).map amount).sum
      = ∑ p ∈ Finset.range b.periodCount, ((b.account holder).periodHolder p .carbon
        + (b.account holder).periodHolder p .biodiversity) := by
  unfold claimableCreditDetails
  induction b.periodCount with
  | zero => rfl
  | succ n ih =>
      rw [range_succ, flatMap_append, map_append, sum_append, ih,
        Finset.sum_range_succ, flatMap_singleton, sum_filterMap_amount]
      simp only [claimableCreditDetail_amount hregular hrecorded, paidTypes, map_cons,
        map_nil, sum_cons, sum_nil, add_zero]

end CouponBond

/-! ## Runs -/

/-- The account's waterfall entries are empty. -/
def Account.NoWaterfall (a : Account) : Prop := ∀ t, a.waterfallAccrued t = 0

/-- The input is none the itemized view leaves out: no waterfall claim of the holder and no
correction. -/
def NoSideEntry (id : Nat) (holder : Address) (e : ProtocolEvent) : Prop :=
  NoCorrection id holder e ∧ e.input.kind id holder ≠ .waterfall

/-- Records of periods stay. -/
theorem CouponEngine.distribute_periodInfo {env : Env} {clock : Clock} {issuer : BondIssuer}
    {s : CouponEngine} {batch : CouponBatch} {b' : CouponBond} {result : CouponResult}
    (h : s.distribute env clock issuer batch = .ok (b', result)) :
    (b'.account = (s.bond batch.bondId).account ∧
        b'.periodInfo = (s.bond batch.bondId).periodInfo) ∨
      ∃ info, b'.periodInfo
        = update (s.bond batch.bondId).periodInfo batch.periodIndex (some info) := by
  rcases distribute_ok h with ⟨-, flag, rfl⟩ | ⟨-, _, _, b₁, _, _, payout, info, -, hprepare, hpaid⟩
  · exact .inl ⟨rfl, rfl⟩
  · right
    exact ⟨info, by rw [hpaid.periodInfo, (prepareBatch_same hprepare).periodInfo]⟩

theorem ProtocolWorld.step_entriesRecorded {w : ProtocolWorld} {i : ProtocolInput} {id : Nat}
    {holder : Address} (hw : (w.engine.bond id).SettlementsNonneg)
    (hregular : (w.account id holder).Regular)
    (hcorrect : ∀ amount, i.kind id holder ≠ .correction amount)
    (hb : (w.engine.bond id).EntriesRecorded holder) :
    ((w.step i).1.engine.bond id).EntriesRecorded holder := by
  rcases w.step_record i id with heq | ⟨env, call, reply, hcall, -, hstep⟩
  · rw [heq]
    exact hb
  · -- an entry that is new is one of the period distributed now
    have hnew : ∀ p t, i.kind id holder ≠ .distribution p →
        ((w.step i).1.account id holder).periodHolder p t ≠ 0 →
        (w.account id holder).periodHolder p t ≠ 0 := fun p t hkind hne h0 =>
      hne (hregular.itemized_stays_zero (e := .period p t) hcorrect hkind
        (step_moves hw i holder) h0)
    rw [i.kind_of_couponCall hcall] at hnew
    intro p t hne
    cases hbatch : call.batch with
    | none =>
        rw [(hstep.samePeriods hbatch).periodInfo]
        exact hb p t (hnew p t (CouponCall.kind_of_no_batch hbatch id holder p) hne)
    | some batch =>
        obtain ⟨hid, -, result, hdist⟩ := hstep.of_batch hbatch
        subst hid
        rw [CouponCall.kind_of_batch hbatch] at hnew
        rcases CouponEngine.distribute_periodInfo hdist with ⟨haccount, hinfo⟩ | ⟨info, hinfo⟩
        · rw [haccount] at hne
          rw [hinfo]
          exact hb p t hne
        · rw [hinfo]
          by_cases hp : p = batch.periodIndex
          · rw [hp, update_self]
            rfl
          · rw [update_of_ne hp]
            exact hb p t (hnew p t (fun h => hp (CreditKind.distribution.inj h).symm) hne)

/-- What the view needs, in every run that pays the account within reach and credits it in no other
way. -/
theorem protocolRun_itemized (d : Deployment) (l : List ProtocolInput) (id : Nat)
    (holder : Address)
    (hsteps : ∀ e ∈ protocolHistory d l, e.output.isSome = true → NoSideEntry id holder e) :
    ((protocolRun d l).account id holder).NoWaterfall ∧
      ((protocolRun d l).engine.bond id).EntriesRecorded holder := by
  refine (protocolMachine.run_guarded (P := fun w => (w.account id holder).Regular ∧
    (w.account id holder).NoWaterfall ∧ (w.engine.bond id).EntriesRecorded holder)
    (s := ProtocolWorld.deploy d) ⟨Account.regular_empty, fun _ => rfl, fun _ _ h => absurd rfl h⟩
    ?_ l hsteps).2
  rintro l i ⟨hregular, hwaterfall, hrecorded⟩ hguard
  cases hout : ((protocolRun d l).step i).2.isSome with
  | false =>
      show (((protocolRun d l).step i).1.account id holder).Regular ∧
        (((protocolRun d l).step i).1.account id holder).NoWaterfall ∧
          (((protocolRun d l).step i).1.engine.bond id).EntriesRecorded holder
      unfold ProtocolWorld.account
      rw [(ProtocolWorld.step_failed hout).1]
      exact ⟨hregular, hwaterfall, hrecorded⟩
  | true =>
      obtain ⟨hcorrect, hkind⟩ := hguard hout
      have hmoves := protocolRun_moves d l i id holder
      refine ⟨hregular.moves (fun amount h => absurd h (hcorrect amount)) hmoves, fun t => ?_,
        ProtocolWorld.step_entriesRecorded (protocolRun_settlementsNonneg d l id) hregular hcorrect
          hrecorded⟩
      exact hregular.itemized_stays_zero (e := .waterfall t) hcorrect hkind hmoves (hwaterfall t)

/-! ## The claims -/

namespace Account

/-- With every credit below the count, a claim leaves no entry. -/
theorem Consistent.claim_clears {a : Account} (ha : a.Consistent) {periodCount : Nat}
    (hbeyond : a.NothingBeyond periodCount) (p : Nat) (t : CreditType) :
    (a.claim periodCount).periodHolder p t = 0 := by
  have hregular := ha.1.claim periodCount
  by_cases ht : t ∈ paidTypes
  · -- the balance is zero after the claim, and every entry is part of it
    have hagree := (ha.claim hbeyond).ledgersAgree
    have hsum := hagree.byType t ht
    have hle : (a.claim periodCount).periodHolder p t
        ≤ ∑ᶠ q, (a.claim periodCount).periodHolder q t :=
      le_finsum (support_periodHolder hregular.support t)
        (fun q => hregular.itemized_nonneg _) p
    have hnonneg : 0 ≤ (a.claim periodCount).periodHolder p t := hregular.itemized_nonneg _
    have hwaterfall := hagree.waterfall_nonneg t ht
    have hzero : (a.claim periodCount).escrowedCreditsByType t = 0 := by
      have hcombined := hagree.combined
      rw [claim_escrowedCredits] at hcombined
      have hcarbon := hagree.byType_nonneg .carbon (by decide)
      have hbio := hagree.byType_nonneg .biodiversity (by decide)
      have htype : t = .carbon ∨ t = .biodiversity := by simpa [paidTypes] using ht
      rcases htype with rfl | rfl
      · omega
      · omega
    omega
  · exact hregular.unpaid _ ht

end Account

/-- **The itemized view.** In every run that credits the account by distributions alone, each
within the reach of the period count, the view adds up to the claimable total, and a successful
claim leaves no entry under any period. -/
theorem itemized_view_matches (d : Deployment) (l : List ProtocolInput) (id : Nat)
    (holder : Address)
    (hsteps : ∀ e ∈ protocolHistory d l, e.output.isSome = true →
      NoSideEntry id holder e ∧ PaysInReach id holder e) :
    ((((protocolRun d l).engine.bond id).claimableCreditDetails holder).map
        ClaimableCreditDetail.amount).sum = (protocolRun d l).engine.claimableCredits id holder ∧
      ∀ env nonce,
        ((protocolRun d l).step (.coupon env (.claimCredits holder id nonce))).2.isSome = true →
        ∀ p t, (((protocolRun d l).step (.coupon env (.claimCredits holder id nonce))).1.account id
          holder).periodHolder p t = 0 := by
  obtain ⟨hconsistent, hbeyond⟩ := protocolRun_inReach d l id holder
    (fun e he hout => ⟨(hsteps e he hout).1.1, (hsteps e he hout).2⟩)
  obtain ⟨hwaterfall, hrecorded⟩ := protocolRun_itemized d l id holder
    (fun e he hout => (hsteps e he hout).1)
  constructor
  · have hcarbon := hconsistent.2 .carbon (by decide)
    have hbio := hconsistent.2 .biodiversity (by decide)
    have hcombined : (protocolRun d l).engine.claimableCredits id holder
        = ((protocolRun d l).account id holder).typedTotal := hconsistent.1.combined
    unfold Account.itemizedOf at hcarbon hbio
    rw [hwaterfall, add_zero, Account.sum_period_eq hbeyond] at hcarbon hbio
    rw [hcombined, CouponBond.sum_claimableCreditDetails hconsistent.1 hrecorded,
      Finset.sum_add_distrib]
    unfold Account.typedTotal
    rw [hcarbon, hbio]
    rfl
  · intro env nonce hout p t
    rw [(ProtocolWorld.step_claim hout).2]
    exact hconsistent.claim_clears hbeyond p t

/-- The first coupon is listed in full, and a claim of it leaves nothing. -/
theorem itemized_view_matches_sample :
    ((((protocolRun sampleDeployment sampleCoupon).engine.bond 1).claimableCreditDetails ⟨2⟩).map
        ClaimableCreditDetail.amount).sum
      = (protocolRun sampleDeployment sampleCoupon).engine.claimableCredits 1 ⟨2⟩ ∧
      ∀ p t, (((protocolRun sampleDeployment sampleCoupon).step
        (.coupon sampleOracle (.claimCredits ⟨2⟩ 1 0))).1.account 1 ⟨2⟩).periodHolder p t = 0 := by
  have hmatches := itemized_view_matches sampleDeployment sampleCoupon 1 ⟨2⟩ (by
    intro e he _
    unfold NoSideEntry NoCorrection PaysInReach
    rcases sampleCoupon_event he with ⟨hbatch, hkind⟩ | rfl
    · rw [hkind, hbatch]
      exact ⟨⟨(fun _ h => by cases h), (fun h => by cases h)⟩, fun _ h => by cases h⟩
    · refine ⟨⟨(fun _ h => by cases h), (fun h => by cases h)⟩, fun batch h _ _ => ?_⟩
      cases h
      exact .inr ⟨rfl, rfl⟩)
  exact ⟨hmatches.1, hmatches.2 sampleOracle 0 (by decide)⟩

/-- Credits paid under a skipped period index are claimable but not listed, and stay itemized after
the claim that pays them out. -/
theorem skipped_period_not_itemized :
    ((((protocolRun sampleDeployment sampleSkip).engine.bond 1).claimableCreditDetails ⟨2⟩).map
        ClaimableCreditDetail.amount).sum
      ≠ (protocolRun sampleDeployment sampleSkip).engine.claimableCredits 1 ⟨2⟩ ∧
      ((protocolRun sampleDeployment sampleSkip).step
        (.coupon sampleOracle (.claimCredits ⟨2⟩ 1 0))).2
          = some (.coupon (.amount 5000000)) ∧
      (((protocolRun sampleDeployment sampleSkip).step
        (.coupon sampleOracle (.claimCredits ⟨2⟩ 1 0))).1.account 1 ⟨2⟩).periodHolder 5 .carbon
          = 5000000 := by
  decide

end VerdantBond
