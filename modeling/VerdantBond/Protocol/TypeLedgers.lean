import VerdantBond.Coupon.AccountLaws
import VerdantBond.Protocol.System

set_option autoImplicit false

/-! # The parallel credit ledgers

The engine keeps the same credits three times: combined, by type, and itemized by period and
waterfall. Most operations write all three alike. Two do not: `confirm_retirement` and
`revert_payout` write the combined balance only, and `claim_credits` clears only the periods below
the period count, while a period's entries are written from its first batch on and under any index
the admin names. In every run without these two cases the ledgers agree.
-/

namespace VerdantBond

open Function Relation Machine

namespace Account

/-- The ledgers of one account agree, and none of their entries is negative. -/
structure LedgersAgree (a : Account) : Prop where
  support : a.itemized.HasFiniteSupport
  combined : a.escrowedCredits
    = a.escrowedCreditsByType .carbon + a.escrowedCreditsByType .biodiversity
  byType : ∀ t ∈ paidTypes,
    a.escrowedCreditsByType t = ∑ᶠ p, a.periodHolder p t + a.waterfallAccrued t
  escrowed_nonneg : 0 ≤ a.escrowedCredits
  byType_nonneg : ∀ t ∈ paidTypes, 0 ≤ a.escrowedCreditsByType t
  periodHolder_nonneg : ∀ p, ∀ t ∈ paidTypes, 0 ≤ a.periodHolder p t
  waterfall_nonneg : ∀ t ∈ paidTypes, 0 ≤ a.waterfallAccrued t

/-- A regular account whose typed balances are itemized in full. -/
def Consistent (a : Account) : Prop :=
  a.Regular ∧ ∀ t ∈ paidTypes, a.escrowedCreditsByType t = a.itemizedOf t

/-- Nothing is itemized under a period that `claim_credits` does not clear. -/
def NothingBeyond (a : Account) (periodCount : Nat) : Prop :=
  ∀ p t, periodCount ≤ p → a.periodHolder p t = 0

variable {a a' : Account} {amount : Int} {periodCount : Nat} {kind : CreditKind}

theorem Consistent.ledgersAgree (ha : a.Consistent) : a.LedgersAgree := by
  obtain ⟨hreg, htyped⟩ := ha
  refine ⟨hreg.support, hreg.combined, htyped, hreg.escrowed_nonneg, fun t ht => ?_,
    fun p t _ => hreg.itemized_nonneg _, fun t _ => hreg.itemized_nonneg _⟩
  have hperiods : 0 ≤ ∑ᶠ p, a.periodHolder p t := finsum_nonneg fun p => hreg.itemized_nonneg _
  have hwaterfall : 0 ≤ a.waterfallAccrued t := hreg.itemized_nonneg _
  rw [htyped t ht, itemizedOf]
  omega

theorem Consistent.credit (ha : a.Consistent) {e : Entry} (he : e.creditType ∈ paidTypes)
    (hpos : 0 < amount) (h : a.credit e amount = .ok a') : a'.Consistent := by
  refine ⟨ha.1.credit he hpos h, fun t ht => ?_⟩
  obtain ⟨-, -, rfl⟩ := credit_ok h
  show (a.post e amount).escrowedCreditsByType t = (a.post e amount).itemizedOf t
  rw [post_byType, post_itemizedOf ha.1.support, ha.2 t ht]

theorem Consistent.claim (ha : a.Consistent) (hbeyond : a.NothingBeyond periodCount) :
    (a.claim periodCount).Consistent := by
  refine ⟨ha.1.claim periodCount, fun t ht => ?_⟩
  by_cases hpos : 0 < a.escrowedCredits
  · -- every entry of the type is cleared, or was empty before
    have hperiod : ∀ p, (a.claim periodCount).periodHolder p t = 0 := by
      intro p
      unfold periodHolder
      rw [claim_itemized hpos]
      split
      · rfl
      · next hnot =>
          exact hbeyond p t (not_lt.mp fun hlt => hnot (period_mem_entries ht hlt))
    have hwaterfall : (a.claim periodCount).waterfallAccrued t = 0 := by
      unfold waterfallAccrued
      rw [claim_itemized hpos, if_pos (waterfall_mem_entries periodCount ht)]
    rw [claim_byType hpos _ ht, itemizedOf, hwaterfall]
    simp only [hperiod, finsum_zero, add_zero]
  · have hzero : a.escrowedCredits = 0 := le_antisymm (not_lt.mp hpos) ha.1.escrowed_nonneg
    have hsame : a.claim periodCount = a := by
      rw [claim_of_nonpos hpos, ← hzero]
    rw [hsame]
    exact ha.2 t ht

theorem Consistent.consume (ha : a.Consistent) (hpos : 0 < amount)
    (h : a.consume periodCount amount = .ok a') : a'.Consistent := by
  refine ⟨ha.1.consume hpos h, fun t ht => ?_⟩
  have hgap : a'.escrowedCreditsByType t - a'.itemizedOf t
      = a.escrowedCreditsByType t - a.itemizedOf t := (consume_drained hpos h).2.gap ha.1.support t
  have := ha.2 t ht
  omega

/-- A claim leaves nothing beyond where there was nothing. -/
theorem NothingBeyond.claim (h : a.NothingBeyond periodCount) (n : Nat) :
    (a.claim n).NothingBeyond periodCount := by
  intro p t hp
  by_cases hpos : 0 < a.escrowedCredits
  · unfold periodHolder
    rw [claim_itemized hpos]
    split
    · rfl
    · exact h p t hp
  · rw [claim_of_nonpos hpos]
    exact h p t hp

/-- What keeps the ledgers together: a correction by nothing, or a claim that clears everything. -/
def Keeps (a : Account) (periodCount : Nat) : CreditKind → Prop
  | .correction amount => amount = 0
  | .claim => a.NothingBeyond periodCount
  | .distribution _ | .waterfall | .consumption _ | .none => True

theorem Consistent.step (ha : a.Consistent) (hkeeps : a.Keeps periodCount kind)
    (h : AccountStep periodCount kind a a') : a'.Consistent ∧ a'.Keeps periodCount kind := by
  cases h with
  | @escrow _ _ p t _ ht hpos h => exact ⟨ha.credit (e := .period p t) ht hpos h, trivial⟩
  | @accrue _ _ t _ ht hpos h => exact ⟨ha.credit (e := .waterfall t) ht hpos h, trivial⟩
  | claim => exact ⟨ha.claim hkeeps, NothingBeyond.claim hkeeps periodCount⟩
  | consume hpos h => exact ⟨ha.consume hpos h, trivial⟩
  | @correct _ _ amount h =>
      have hzero : amount = 0 := hkeeps
      subst hzero
      rw [debitCombined_zero h]
      exact ⟨ha, rfl⟩

theorem Consistent.moves (ha : a.Consistent) (hkeeps : a.Keeps periodCount kind)
    (h : AccountMoves periodCount kind a a') : a'.Consistent := by
  have hboth : a'.Consistent ∧ a'.Keeps periodCount kind := by
    induction h with
    | refl => exact ⟨ha, hkeeps⟩
    | tail _ hstep ih => exact ih.1.step ih.2 hstep
  exact hboth.1

theorem consistent_empty : empty.Consistent := by
  refine ⟨regular_empty, fun t _ => ?_⟩
  unfold itemizedOf
  simp only [periodHolder, waterfallAccrued, empty, finsum_zero, add_zero]

end Account

/-- The step keeps the ledgers of one account together. -/
def KeepsLedgers (id : Nat) (holder : Address) (e : ProtocolEvent) : Prop :=
  (e.pre.account id holder).Keeps (e.pre.engine.bond id).periodCount (e.input.kind id holder)

theorem protocolRun_consistent (d : Deployment) (l : List ProtocolInput) (id : Nat)
    (holder : Address)
    (hsteps : ∀ e ∈ protocolHistory d l, e.output.isSome = true → KeepsLedgers id holder e) :
    ((protocolRun d l).account id holder).Consistent := by
  refine protocolMachine.run_guarded (P := fun w => (w.account id holder).Consistent)
    (s := ProtocolWorld.deploy d) Account.consistent_empty ?_ l hsteps
  intro l i hconsistent hkeeps
  cases hout : ((protocolRun d l).step i).2.isSome with
  | false =>
      have hsame := (ProtocolWorld.step_failed hout).1
      show (((protocolRun d l).step i).1.account id holder).Consistent
      unfold ProtocolWorld.account
      rw [hsame]
      exact hconsistent
  | true => exact hconsistent.moves (hkeeps hout) (protocolRun_moves d l i id holder)

/-- **The credit ledgers agree** in every run in which the corrections of the account are by zero
and each claim finds nothing under a period at or above the count: the combined balance is the sum
of the typed ones, each typed balance is the sum of its entries, and none is negative. -/
theorem type_ledgers_agree (d : Deployment) (l : List ProtocolInput) (id : Nat) (holder : Address)
    (hsteps : ∀ e ∈ protocolHistory d l, e.output.isSome = true → KeepsLedgers id holder e) :
    ((protocolRun d l).account id holder).LedgersAgree :=
  (protocolRun_consistent d l id holder hsteps).ledgersAgree

/-- Two of the five credits of a first coupon are retired. -/
theorem type_ledgers_agree_sample :
    let l := sampleCoupon ++ [.retirement sampleOracle (.retireCredits ⟨2⟩ 1 2000000 .carbon ⟨9⟩ 0)]
    ((protocolRun sampleDeployment l).account 1 ⟨2⟩).escrowedCredits = 3000000 ∧
      ((protocolRun sampleDeployment l).account 1 ⟨2⟩).LedgersAgree := by
  intro l
  have hkeeps : ∀ i ∈ l, ∀ (a : Account) periodCount, a.Keeps periodCount (i.kind 1 ⟨2⟩) := by
    simp [l, sampleCoupon, sampleIssue, sampleSubscription, ProtocolInput.kind,
      ProtocolInput.couponCall, CouponCall.kind, Account.Keeps]
  exact ⟨by decide, type_ledgers_agree sampleDeployment l 1 ⟨2⟩ fun e he _ =>
    hkeeps _ (protocolMachine.input_mem_of_mem_history he) _ _⟩

/-- The admin confirms the retirement of one of the credits of the first coupon. -/
def sampleCorrection : List ProtocolInput :=
  sampleCoupon ++ [.coupon sampleOracle (.confirmRetirement ⟨1⟩ 1 ⟨2⟩ 1 2)]

/-- After a confirmed retirement the combined balance is one short of the typed balances. -/
theorem type_ledgers_disagree_after_confirm :
    ¬ ((protocolRun sampleDeployment sampleCorrection).account 1 ⟨2⟩).LedgersAgree := by
  intro h
  have hcombined := h.combined
  revert hcombined
  decide

end VerdantBond
