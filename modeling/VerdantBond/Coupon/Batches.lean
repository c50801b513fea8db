import VerdantBond.Coupon.Steps

set_option autoImplicit false

/-! # CouponEngine: what a batch does

`distribute_coupon_batch` read backwards. `prepareBatch_ok` splits its first half into the stages
that find the calculation, `PaidBatch` is what its second half did, and `distribute_ok` says that a
successful call either raised the performance flag or paid a batch.
-/

namespace VerdantBond

open Function Relation CouponBond CouponCall CouponEngine

/-! ## The stages before the payment -/

namespace CouponBond

variable {b b' : CouponBond} {trueUp : Int} {report : Report} {pools : Pools} {issuer : BondIssuer}
  {bondId period : Nat}

theorem takeTrueUps_ok {first : Bool} (h : b.takeTrueUps first = .ok (b', trueUp)) :
    ∃ adjustment, b' = { b with trueUpAdjustment := adjustment } := by
  unfold takeTrueUps at h
  split at h
  · simp only [bind_ok_iff, pure_ok_iff, Prod.mk.injEq] at h
    obtain ⟨t, -, rfl, -⟩ := h
    exact ⟨t.adjustment, rfl⟩
  · simp only [Except.ok.injEq, Prod.mk.injEq] at h
    exact ⟨b.trueUpAdjustment, h.1.symm⟩

/-- The stages of the pools. -/
theorem batchPools_ok {batch : CouponBatch} {creditType : CreditType} {staleness : StalenessState}
    {conversion : CouponCalculation}
    (h : b.batchPools batch creditType staleness report conversion = .ok (b', trueUp, pools)) :
    ∃ raw discounted adjustment,
      creditPools creditType report conversion.normalizedCarbon = .ok raw ∧
      discountPools staleness raw = .ok discounted ∧
      adjustPools creditType trueUp discounted = .ok pools ∧
      b' = { b with trueUpAdjustment := adjustment } := by
  simp only [batchPools, bind_ok_iff, pure_ok_iff, Prod.mk.injEq, Prod.exists] at h
  obtain ⟨raw, hraw, discounted, hdiscounted, b₁, trueUp', htake, pools', hadjust, rfl, rfl, rfl⟩ := h
  obtain ⟨adjustment, rfl⟩ := takeTrueUps_ok htake
  exact ⟨raw, discounted, adjustment, hraw, hdiscounted, hadjust, rfl⟩

/-- The fields that the stages before the payment leave alone. -/
structure SameAccounts (b b' : CouponBond) : Prop where
  bondCreditType : b'.bondCreditType = b.bondCreditType
  periodInfo : b'.periodInfo = b.periodInfo
  periodBatchCursor : b'.periodBatchCursor = b.periodBatchCursor
  periodCount : b'.periodCount = b.periodCount
  account : b'.account = b.account
  settlements : b'.waterfallSettlementAllocations = b.waterfallSettlementAllocations
  waterfallBook : b'.waterfallBook = b.waterfallBook

theorem SameAccounts.trans {b'' : CouponBond} (h : b.SameAccounts b') (h' : b'.SameAccounts b'') :
    b.SameAccounts b'' where
  bondCreditType := h'.bondCreditType.trans h.bondCreditType
  periodInfo := h'.periodInfo.trans h.periodInfo
  periodBatchCursor := h'.periodBatchCursor.trans h.periodBatchCursor
  periodCount := h'.periodCount.trans h.periodCount
  account := h'.account.trans h.account
  settlements := h'.settlements.trans h.settlements
  waterfallBook := h'.waterfallBook.trans h.waterfallBook

theorem applyTerms_same {pools' : Pools}
    (h : b.applyTerms issuer bondId period report pools = .ok (b', pools')) :
    b.SameAccounts b' ∧ b'.couponCalculation = b.couponCalculation ∧
      b'.couponLiveCalculation = b.couponLiveCalculation := by
  rcases applyTerms_ok h with ⟨-, rfl, -⟩ | ⟨_, -, rfl, -⟩ | ⟨_, -, -, -, rfl, -⟩
  all_goals exact ⟨⟨rfl, rfl, rfl, rfl, rfl, rfl, rfl⟩, rfl, rfl⟩

theorem pinCalculation_same {calculation c : CouponCalculation} {discount : Nat}
    (h : b.pinCalculation issuer bondId period calculation pools discount trueUp = .ok (b', c)) :
    b.SameAccounts b' ∧ b'.covenantCycle = b.covenantCycle ∧
      b'.covenantLiveCycle = b.covenantLiveCycle := by
  rcases pinCalculation_ok h with ⟨-, rfl⟩ | ⟨-, -, -, -, -, rfl⟩
  all_goals exact ⟨⟨rfl, rfl, rfl, rfl, rfl, rfl, rfl⟩, rfl, rfl⟩

end CouponBond

namespace CouponEngine

variable {s : CouponEngine} {issuer : BondIssuer} {batch : CouponBatch} {staleness : StalenessState}
  {report : Report} {creditType : CreditType} {calculation : CouponCalculation}

/-- The stages that find the calculation of a batch. The true-ups are the only write before the
covenants. -/
theorem prepareBatch_ok {b b' : CouponBond}
    (h : s.prepareBatch issuer b batch staleness report = .ok (b', creditType, calculation)) :
    (∀ info, b.periodInfo batch.periodIndex = some info → info.distributed = false) ∧
      b.bondCreditType = some creditType ∧
      ∃ conversion adjustment pools b₂ terms trueUp,
        s.conversion b batch.periodIndex report creditType = .ok conversion ∧
        b.batchPools batch creditType staleness report conversion
          = .ok ({ b with trueUpAdjustment := adjustment }, trueUp, pools) ∧
        applyTerms issuer batch.bondId { b with trueUpAdjustment := adjustment }
          batch.periodIndex report pools = .ok (b₂, terms) ∧
        b₂.pinCalculation issuer batch.bondId batch.periodIndex conversion terms
          (if staleness.currentTier = 1 then staleness.discountBps else 0) trueUp
          = .ok (b', calculation) := by
  simp only [prepareBatch, bind_ok_iff, reject_ok_iff, okOr_ok_iff, pure_ok_iff, exists_unit_iff,
    Prod.mk.injEq, Prod.exists] at h
  obtain ⟨hopen, -, -, ct, hct, conversion, hconversion, b₁, trueUp, pools, hpools, b₂, terms,
    hterms, b₃, c, hpin, rfl, rfl, rfl⟩ := h
  obtain ⟨_, _, adjustment, -, -, -, rfl⟩ := batchPools_ok hpools
  refine ⟨?_, hct, conversion, adjustment, pools, b₂, terms, trueUp, hconversion, hpools, hterms,
    hpin⟩
  intro info hinfo
  by_contra hdone
  exact hopen ⟨info, hinfo, by simpa using hdone⟩

theorem prepareBatch_same {b b' : CouponBond}
    (h : s.prepareBatch issuer b batch staleness report = .ok (b', creditType, calculation)) :
    b.SameAccounts b' := by
  obtain ⟨-, -, _, adjustment, _, b₂, _, _, -, -, hterms, hpin⟩ := prepareBatch_ok h
  have htrueUps : b.SameAccounts { b with trueUpAdjustment := adjustment } := by
    constructor <;> rfl
  exact (htrueUps.trans (applyTerms_same hterms).1).trans
    (pinCalculation_same hpin).1

end CouponEngine

/-! ## The payment -/

/-- A batch credited its holders from `calculation`: `payout` is the loop's result and `info` the
period's new record. -/
structure PaidBatch (issuer : BondIssuer) (b : CouponBond) (batch : CouponBatch)
    (creditType : CreditType) (calculation : CouponCalculation) (payout : Payout)
    (info : PeriodInfo) (b' : CouponBond) : Prop where
  offset : batch.offset = b.periodBatchCursor batch.periodIndex
  bound : batch.offset + batch.limit ≤ batch.holders.length
  pays : Payout.payHolders issuer batch.bondId batch.periodIndex creditType calculation
    (calculation.carbonPool + calculation.biodiversityPool) batch.holders batch.limit batch.offset
    ⟨b.account, 0, 0⟩ = .ok payout
  earned : info.totalCreditsEarned
    = ((b.periodInfo batch.periodIndex).map PeriodInfo.totalCreditsEarned).getD 0
      + payout.totalHolderCredits
  distributed : info.distributed = decide batch.Complete
  undistributed : info.undistributed
    = if batch.Complete then
        calculation.carbonPool + calculation.biodiversityPool - info.totalCreditsEarned
      else 0
  account : b'.account = payout.account
  periodInfo : b'.periodInfo = update b.periodInfo batch.periodIndex (some info)
  periodBatchCursor : b'.periodBatchCursor
    = update b.periodBatchCursor batch.periodIndex (batch.offset + batch.limit)
  periodCount : b'.periodCount
    = b.periodCount + if batch.Complete then 1 else 0
  bondCreditType : b'.bondCreditType = b.bondCreditType
  settlements : b'.waterfallSettlementAllocations = b.waterfallSettlementAllocations
  waterfallBook : b'.waterfallBook = b.waterfallBook
  covenantCycle : b'.covenantCycle = b.covenantCycle
  covenantLiveCycle : b'.covenantLiveCycle = b.covenantLiveCycle
  couponCalculation : b'.couponCalculation = b.couponCalculation
  couponLiveCalculation : b'.couponLiveCalculation = b.couponLiveCalculation

variable {batch : CouponBatch} {b b' : CouponBond} {report : Report} {issuer : BondIssuer}
  {periodCount id : Nat} {call : CouponCall} {env : Env} {clock : Clock} {s : CouponEngine}
  {reply : CouponReply}

theorem undistributedOf_ok {totalCredits cumulative r : Int}
    (h : undistributedOf batch totalCredits cumulative = .ok r) :
    r = if batch.Complete then totalCredits - cumulative else 0 := by
  unfold undistributedOf at h
  split at h
  · next hc =>
      simp only [okOr_ok_iff, i128_eq_some] at h
      rw [if_pos hc, h.2]
  · next hc =>
      injection h with h
      rw [if_neg hc, h]

/-- Closing a batch moves the period count and the bond's totals, and nothing the credits are in. -/
theorem CouponBond.closeBatch_ok {undistributed : Int}
    (h : b.closeBatch batch report undistributed = .ok b') :
    ∃ total history, b' = { b with
      undistributedTotal := total
      periodCount := b.periodCount + if batch.Complete then 1 else 0
      performanceHistory := history } := by
  unfold closeBatch at h
  split at h
  · next hc =>
      simp only [completePeriod, bind_ok_iff, orTrap_ok_iff, u32_eq_some, pure_ok_iff] at h
      obtain ⟨total, -, _, ⟨-, rfl⟩, rfl⟩ := h
      exact ⟨total, _, by rw [if_pos hc]⟩
  · next hc =>
      injection h with h
      refine ⟨b.undistributedTotal, b.performanceHistory, ?_⟩
      rw [if_neg hc, add_zero, h]

theorem CouponBond.payBatch_ok {creditType : CreditType} {calculation : CouponCalculation}
    {result : CouponResult}
    (h : b.payBatch issuer batch creditType report calculation = .ok (b', result)) :
    ∃ payout info, PaidBatch issuer b batch creditType calculation payout info b' := by
  simp only [payBatch, bind_ok_iff, okOr_ok_iff, i128_eq_some, u32_eq_some, reject_ok_iff,
    pure_ok_iff, exists_unit_iff, not_or, not_lt, not_not, Prod.mk.injEq] at h
  obtain ⟨_, ⟨-, rfl⟩, -, _, -, -, _, ⟨-, rfl⟩, hbound, hoffset, payout, hpays, cumulative,
    ⟨-, hcumulative⟩, undistributed, hund, b₁, hclose, rfl, -⟩ := h
  obtain ⟨total, history, rfl⟩ := closeBatch_ok hclose
  refine ⟨payout, batch.info report cumulative undistributed, ?_⟩
  constructor
  · exact hoffset
  · exact hbound
  · exact hpays
  · exact hcumulative.symm
  · rfl
  · exact undistributedOf_ok hund
  all_goals rfl

/-! ## The call -/

namespace CouponEngine

/-- The report of a batch stays within the performance bounds. -/
def WithinBounds (env : Env) (clock : Clock) (s : CouponEngine) (batch : CouponBatch) : Prop :=
  ∃ report ∈ env.getReport batch.reportId,
    ((s.bond batch.bondId).validatePerformanceUpdate clock batch.reportId
      report.carbonSequestered).toOption = some none

instance (env : Env) (clock : Clock) (s : CouponEngine) (batch : CouponBatch) :
    Decidable (s.WithinBounds env clock batch) :=
  inferInstanceAs (Decidable (∃ report ∈ env.getReport batch.reportId, _))

variable {env : Env} {clock : Clock} {s : CouponEngine}

theorem readOracle_ok {b : CouponBond} {reportId : Nat} {staleness : StalenessState}
    {report : Report} (h : s.readOracle env clock b reportId = .ok (staleness, report)) :
    ∃ projectId, b.bondProject = some projectId ∧
      env.getProjectStalenessState projectId clock.timestamp = some staleness ∧
      env.getReport reportId = some report := by
  simp only [readOracle, bind_ok_iff, okOr_ok_iff, orTrap_ok_iff, reject_ok_iff, pure_ok_iff,
    exists_unit_iff, Prod.mk.injEq] at h
  obtain ⟨projectId, hproject, _, -, -, _, hstaleness, -, _, hreport, -, -, -, _, -, -, rfl, rfl⟩ := h
  exact ⟨projectId, hproject, hstaleness, hreport⟩

/-- **A successful distribution** raises the flag and pays nothing, or pays a batch. -/
theorem distribute_ok {issuer : BondIssuer} {batch : CouponBatch} {b' : CouponBond}
    {result : CouponResult} (h : s.distribute env clock issuer batch = .ok (b', result)) :
    (¬ s.WithinBounds env clock batch ∧
        ∃ flag, b' = { s.bond batch.bondId with performanceFlag := some flag }) ∨
      (s.WithinBounds env clock batch ∧ ∃ staleness report b₁ creditType calculation payout info,
        s.readOracle env clock (s.bond batch.bondId) batch.reportId = .ok (staleness, report) ∧
        s.prepareBatch issuer (s.bond batch.bondId) batch staleness report
          = .ok (b₁, creditType, calculation) ∧
        PaidBatch issuer b₁ batch creditType calculation payout info b') := by
  simp only [distribute, bind_ok_iff, exists_unit_iff, Prod.exists] at h
  obtain ⟨-, staleness, report, horacle, flagged, hflagged, h⟩ := h
  obtain ⟨_, -, -, hreport⟩ := readOracle_ok horacle
  cases flagged with
  | some flag =>
      simp only [pure_ok_iff, Prod.mk.injEq] at h
      refine .inl ⟨?_, flag, h.1.symm⟩
      rintro ⟨report', hreport', hnone⟩
      rw [hreport] at hreport'
      cases hreport'
      rw [hflagged] at hnone
      cases hnone
  | none =>
      simp only [bind_ok_iff, Prod.exists] at h
      obtain ⟨b₁, creditType, calculation, hprepare, hpay⟩ := h
      obtain ⟨payout, info, hpaid⟩ := payBatch_ok hpay
      exact .inr ⟨⟨report, hreport, by rw [hflagged]; rfl⟩, staleness, report, b₁, creditType, calculation,
        payout, info, horacle, hprepare, hpaid⟩

end CouponEngine

/-! ## Accounts -/

theorem accrueWaterfallCredit_moves {a a' : Account} {t : CreditType} {amount : Int}
    (ht : t ∈ paidTypes) (hnonneg : 0 ≤ amount) (h : a.accrueWaterfallCredit t amount = .ok a') :
    AccountMoves periodCount .waterfall a a' := by
  unfold Account.accrueWaterfallCredit at h
  split at h
  · injection h with h
    rw [h]
  · next hne => exact .single (.accrue ht (by omega) h)

/-- A write to one account, seen from any account. -/
theorem moves_update {kind : CreditKind} {account : Address → Account} {holder : Address}
    {a' : Account} (h : AccountMoves periodCount kind (account holder) a') (x : Address) :
    AccountMoves periodCount (if holder = x then kind else .none) (account x)
      (update account holder a' x) := by
  by_cases hx : holder = x
  · subst hx
    rw [if_pos rfl, update_self]
    exact h
  · rw [update_of_ne (fun h => hx h.symm)]

namespace CouponBond

variable {b b' : CouponBond} {holder : Address} {amount : Int}

theorem debit_ok (h : b.debit holder amount = .ok b') :
    ∃ a, (b.account holder).debitCombined amount = .ok a ∧
      b' = { b with account := update b.account holder a } := by
  simp only [debit, bind_ok_iff, pure_ok_iff] at h
  obtain ⟨a, ha, rfl⟩ := h
  exact ⟨a, ha, rfl⟩

theorem claim_ok {caller : Address} {accrued : Int} (h : b.claim caller = .ok (b', accrued)) :
    accrued = (b.account caller).escrowedCredits ∧
      b' = { b with
        account := update b.account caller ((b.account caller).claim b.periodCount) } := by
  simp only [claim, bind_ok_iff, pure_ok_iff, exists_unit_iff, Prod.mk.injEq] at h
  obtain ⟨-, rfl, rfl⟩ := h
  exact ⟨rfl, rfl⟩

theorem consume_ok (h : b.consume holder amount = .ok b') :
    0 < amount ∧ ∃ a, (b.account holder).consume b.periodCount amount = .ok a ∧
      b' = { b with account := update b.account holder a } := by
  simp only [consume, bind_ok_iff, reject_ok_iff, pure_ok_iff, exists_unit_iff, not_le] at h
  obtain ⟨hpos, -, a, ha, rfl⟩ := h
  exact ⟨hpos, a, ha, rfl⟩

/-- A waterfall claim writes the claimed flags and an account. -/
theorem claimWaterfall_record {issuer : BondIssuer} {settlementIndex priority : Nat}
    {carbon biodiversity : Int}
    (h : b.claimWaterfall issuer holder settlementIndex priority = .ok (b', carbon, biodiversity)) :
    b.migrationWindow = none ∧
      ∃ claimed account, b' = { b with waterfallClaimed := claimed, account := account } := by
  simp only [claimWaterfall, requireNoMigrationWindow, bind_ok_iff, reject_ok_iff, pure_ok_iff,
    exists_unit_iff, Prod.mk.injEq, Option.not_isSome_iff_eq_none] at h
  obtain ⟨hwindow, _, -, -, _, -, _, -, -, _, -, _, -, _, -, _, -, rfl, -⟩ := h
  exact ⟨hwindow, _, _, rfl⟩

end CouponBond

/-- The kind of a distribution is the same for every holder. -/
theorem CouponCall.kind_of_batch (hcall : call.batch = some batch) (holder : Address) :
    call.kind batch.bondId holder = .distribution batch.periodIndex := by
  cases call <;> simp_all [CouponCall.batch, CouponCall.kind]
  subst hcall
  simp

theorem CouponCall.target_of_batch (hcall : call.batch = some batch) :
    call.target = some batch.bondId := by
  cases call with
  | distributeCoupon | distributeCouponBatch =>
      cases hcall
      rfl
  | _ => cases hcall

/-- **Accounts move by the kind of the call.** -/
theorem CouponStep.moves (hb : b.SettlementsNonneg)
    (h : CouponStep env clock issuer s id call reply b b') (holder : Address) :
    AccountMoves b.periodCount (call.kind id holder) (b.account holder) (b'.account holder) := by
  cases h with
  | other _ hsame => rw [hsame.account]
  | register => exact .refl
  | settle h =>
      obtain ⟨_, _, -, rfl⟩ := settleWaterfall_ok h
      exact .refl
  | @claimWaterfall claimant _ _ _ _ _ _ _ h =>
      obtain ⟨a₁, a₂, _, hcarbon, hbio, h₁, h₂, rfl⟩ := claimWaterfall_ok hb h
      have hmoves : AccountMoves b.periodCount .waterfall (b.account claimant) a₂ :=
        (accrueWaterfallCredit_moves (by decide) hcarbon h₁).trans
          (accrueWaterfallCredit_moves (by decide) hbio h₂)
      simp only [kind, if_true]
      exact moves_update hmoves holder
  | distribute hcall hid h =>
      subst hid
      rw [kind_of_batch hcall]
      rcases distribute_ok h with ⟨-, flag, rfl⟩ |
        ⟨-, _, _, b₁, _, _, payout, info, -, hprepare, hpaid⟩
      · exact .refl
      · have hsame := prepareBatch_same hprepare
        rw [hpaid.account, ← hsame.account]
        exact Payout.payHolders_moves _ _ _ _ hpaid.pays holder
  | confirm h =>
      obtain ⟨a, ha, rfl⟩ := debit_ok h
      simp only [kind, if_true]
      exact moves_update (.single (.correct ha)) holder
  | revert h =>
      obtain ⟨a, ha, rfl⟩ := debit_ok h
      simp only [kind, if_true]
      exact moves_update (.single (.correct ha)) holder
  | claim h =>
      obtain ⟨-, rfl⟩ := claim_ok h
      simp only [kind, if_true]
      exact moves_update (.single (.claim _)) holder
  | consume h =>
      obtain ⟨hpos, a, ha, rfl⟩ := consume_ok h
      simp only [kind, if_true]
      exact moves_update (.single (.consume hpos ha)) holder

/-- Settled waterfall amounts stay non-negative. -/
theorem CouponStep.settlementsNonneg (hb : b.SettlementsNonneg)
    (h : CouponStep env clock issuer s id call reply b b') : b'.SettlementsNonneg := by
  cases h with
  | other _ hsame =>
      unfold CouponBond.SettlementsNonneg
      rw [hsame.settlements]
      exact hb
  | register => exact hb
  | settle h => exact hb.settle h
  | claimWaterfall h =>
      obtain ⟨_, _, _, -, -, -, -, rfl⟩ := claimWaterfall_ok hb h
      exact hb
  | distribute _ hid h =>
      subst hid
      rcases distribute_ok h with ⟨-, flag, rfl⟩ |
        ⟨-, _, _, b₁, _, _, payout, info, -, hprepare, hpaid⟩
      · exact hb
      · unfold CouponBond.SettlementsNonneg
        rw [hpaid.settlements, (prepareBatch_same hprepare).settlements]
        exact hb
  | confirm h =>
      obtain ⟨a, -, rfl⟩ := debit_ok h
      exact hb
  | revert h =>
      obtain ⟨a, -, rfl⟩ := debit_ok h
      exact hb
  | claim h =>
      obtain ⟨-, rfl⟩ := claim_ok h
      exact hb
  | consume h =>
      obtain ⟨-, a, -, rfl⟩ := consume_ok h
      exact hb

/-! ## Calls that distribute and calls that do not -/

/-- The periods of a bond, with what is pinned for them, are unchanged. -/
structure CouponBond.SamePeriods (b b' : CouponBond) : Prop where
  periodInfo : b'.periodInfo = b.periodInfo
  periodBatchCursor : b'.periodBatchCursor = b.periodBatchCursor
  periodCount : b'.periodCount = b.periodCount
  covenantCycle : b'.covenantCycle = b.covenantCycle
  covenantLiveCycle : b'.covenantLiveCycle = b.covenantLiveCycle
  couponCalculation : b'.couponCalculation = b.couponCalculation
  couponLiveCalculation : b'.couponLiveCalculation = b.couponLiveCalculation

theorem CouponCall.kind_of_no_batch (hcall : call.batch = none) (id : Nat) (holder : Address)
    (q : Nat) : call.kind id holder ≠ .distribution q := by
  cases call with
  | distributeCoupon | distributeCouponBatch => cases hcall
  | claimWaterfall | claimCredits | consumeCredits | confirmRetirement | revertPayout =>
      simp only [kind]
      split_ifs <;> exact fun h => by cases h
  | _ => exact fun h => by cases h

namespace CouponStep

variable {env : Env} {clock : Clock} {issuer : BondIssuer} {s : CouponEngine} {id : Nat}
  {call : CouponCall} {reply : CouponReply} {b b' : CouponBond}

/-- A distribution call makes a distribution step. -/
theorem of_batch {batch : CouponBatch} (hcall : call.batch = some batch)
    (h : CouponStep env clock issuer s id call reply b b') :
    batch.bondId = id ∧ b = s.bond id ∧
      ∃ result, s.distribute env clock issuer batch = .ok (b', result) := by
  cases h with
  | distribute hcall' hid h =>
      rw [hcall] at hcall'
      cases hcall'
      exact ⟨hid, rfl, _, h⟩
  | other hkind =>
      have hnone := hkind batch.bondId batch.caller
      rw [kind_of_batch hcall] at hnone
      cases hnone
  | _ => cases hcall

/-- A claim pays out the combined balance. -/
theorem of_claim {caller : Address} {nonce : Nat}
    (h : CouponStep env clock issuer s id (.claimCredits caller id nonce) reply b b') :
    reply = .amount (b.account caller).escrowedCredits ∧
      b'.account = update b.account caller ((b.account caller).claim b.periodCount) := by
  cases h with
  | other hkind =>
      have hclaim := hkind id caller
      simp only [kind, if_true, reduceCtorEq] at hclaim
  | distribute hcall => cases hcall
  | claim h =>
      obtain ⟨rfl, rfl⟩ := claim_ok h
      exact ⟨rfl, rfl⟩

/-- Every other call leaves the periods alone. -/
theorem samePeriods (hcall : call.batch = none)
    (h : CouponStep env clock issuer s id call reply b b') : b.SamePeriods b' := by
  cases h with
  | other _ hsame =>
      exact ⟨hsame.periodInfo, hsame.periodBatchCursor, hsame.periodCount, hsame.covenantCycle,
        hsame.covenantLiveCycle, hsame.couponCalculation, hsame.couponLiveCalculation⟩
  | register => exact ⟨rfl, rfl, rfl, rfl, rfl, rfl, rfl⟩
  | settle h =>
      obtain ⟨_, _, -, rfl⟩ := settleWaterfall_ok h
      exact ⟨rfl, rfl, rfl, rfl, rfl, rfl, rfl⟩
  | claimWaterfall h =>
      obtain ⟨-, _, _, rfl⟩ := claimWaterfall_record h
      exact ⟨rfl, rfl, rfl, rfl, rfl, rfl, rfl⟩
  | distribute hcall' =>
      rw [hcall] at hcall'
      cases hcall'
  | confirm h | revert h =>
      obtain ⟨a, -, rfl⟩ := debit_ok h
      exact ⟨rfl, rfl, rfl, rfl, rfl, rfl, rfl⟩
  | claim h =>
      obtain ⟨-, rfl⟩ := claim_ok h
      exact ⟨rfl, rfl, rfl, rfl, rfl, rfl, rfl⟩
  | consume h =>
      obtain ⟨-, a, -, rfl⟩ := consume_ok h
      exact ⟨rfl, rfl, rfl, rfl, rfl, rfl, rfl⟩

/-- The credit type of a bond is what the issuer said at a registration. -/
theorem bondCreditType (h : CouponStep env clock issuer s id call reply b b') :
    b'.bondCreditType = b.bondCreditType ∨
      ∃ config, issuer.getBond id = .ok config ∧ b'.bondCreditType = some config.creditType := by
  cases h with
  | other _ hsame => exact .inl hsame.bondCreditType
  | register _ h => exact .inr ⟨_, h, rfl⟩
  | settle h =>
      obtain ⟨_, _, -, rfl⟩ := settleWaterfall_ok h
      exact .inl rfl
  | claimWaterfall h =>
      obtain ⟨-, _, _, rfl⟩ := claimWaterfall_record h
      exact .inl rfl
  | distribute _ hid h =>
      subst hid
      rcases distribute_ok h with ⟨-, flag, rfl⟩ |
        ⟨-, _, _, b₁, _, _, payout, info, -, hprepare, hpaid⟩
      · exact .inl rfl
      · exact .inl (by
          rw [hpaid.bondCreditType, (prepareBatch_same hprepare).bondCreditType])
  | confirm h | revert h =>
      obtain ⟨a, -, rfl⟩ := debit_ok h
      exact .inl rfl
  | claim h =>
      obtain ⟨-, rfl⟩ := claim_ok h
      exact .inl rfl
  | consume h =>
      obtain ⟨-, a, -, rfl⟩ := consume_ok h
      exact .inl rfl

end CouponStep

end VerdantBond
