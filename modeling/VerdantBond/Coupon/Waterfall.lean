import VerdantBond.Coupon.Accounts
import VerdantBond.Issuer.EntryPoints

set_option autoImplicit false

/-! # CouponEngine: the waterfall

`settle_waterfall` pays aggregate obligations senior-first from two pools and carries what it could
not pay. A holder later claims the pro-rata share of one settled priority, once, on the balances
of the version the settlement saw.
-/

namespace VerdantBond

open Function

/-! ## Settlement -/

/-- The loop of `validate_waterfall_tranches`: positive ids, non-negative dues, strictly increasing
priorities, no tranche named twice. -/
def checkTranches (previous : Option Nat) (seen : List Nat) :
    List WaterfallTranche → Outcome BondError Unit
  | [] => .ok ()
  | tranche :: rest => do
      reject (tranche.trancheBondId = 0 ∨ tranche.carbonDue < 0 ∨ tranche.biodiversityDue < 0)
        .invalidWaterfall
      reject (∃ priority ∈ previous, tranche.priority ≤ priority) .invalidWaterfall
      reject (tranche.trancheBondId ∈ seen) .invalidWaterfall
      checkTranches (some tranche.priority) (seen ++ [tranche.trancheBondId]) rest

/-- `validate_waterfall_tranches`. -/
def validateWaterfallTranches (tranches : List WaterfallTranche) : Outcome BondError Unit := do
  reject (maxWaterfallTranches < tranches.length) .invalidWaterfall
  checkTranches none [] tranches

/-- The rounds of `merge_waterfall_tranches`; each takes from at least one of the two lists. -/
def mergeRounds : Nat → List WaterfallTranche → List WaterfallTranche →
    Outcome BondError (List WaterfallTranche)
  | 0, _, _ => .ok []
  | _ + 1, [], current => .ok current
  | _ + 1, carry, [] => .ok carry
  | n + 1, old :: carry, new :: current =>
      if old.priority = new.priority then do
        reject (old.trancheBondId ≠ new.trancheBondId) .invalidWaterfall
        let carbonDue ← okOr (i128 (old.carbonDue + new.carbonDue)) .overflow
        let biodiversityDue ← okOr (i128 (old.biodiversityDue + new.biodiversityDue)) .overflow
        let rest ← mergeRounds n carry current
        pure (⟨old.priority, old.trancheBondId, carbonDue, biodiversityDue⟩ :: rest)
      else if old.priority < new.priority then do
        let rest ← mergeRounds n carry (new :: current)
        pure (old :: rest)
      else do
        let rest ← mergeRounds n (old :: carry) current
        pure (new :: rest)

/-- `merge_waterfall_tranches`: as many rounds as there are tranches. -/
def mergeWaterfallTranches (carry current : List WaterfallTranche) :
    Outcome BondError (List WaterfallTranche) :=
  mergeRounds (carry.length + current.length) carry current

/-- The loop state of `settle_waterfall`. -/
structure Settlement where
  carbonLeft : Int
  biodiversityLeft : Int
  allocations : List WaterfallAllocation
  carry : List WaterfallTranche

/-- One obligation of `settle_waterfall`. The two credits are funded independently. -/
def Settlement.pay (issuer : BondIssuer) (r : Settlement) (obligation : WaterfallTranche) :
    Outcome BondError Settlement := do
  let snapshotVersion ← invoke (issuer.getBalanceVersion obligation.trancheBondId)
  let carbonPaid := min obligation.carbonDue r.carbonLeft
  let biodiversityPaid := min obligation.biodiversityDue r.biodiversityLeft
  let carbonLeft ← okOr (i128 (r.carbonLeft - carbonPaid)) .overflow
  let biodiversityLeft ← okOr (i128 (r.biodiversityLeft - biodiversityPaid)) .overflow
  let carbonUnpaid ← okOr (i128 (obligation.carbonDue - carbonPaid)) .overflow
  let biodiversityUnpaid ← okOr (i128 (obligation.biodiversityDue - biodiversityPaid)) .overflow
  pure {
    carbonLeft, biodiversityLeft
    allocations := r.allocations ++ [
      { priority := obligation.priority, trancheBondId := obligation.trancheBondId, snapshotVersion
        carbonDue := obligation.carbonDue, carbonPaid
        biodiversityDue := obligation.biodiversityDue, biodiversityPaid }]
    carry := r.carry ++
      if 0 < carbonUnpaid ∨ 0 < biodiversityUnpaid then
        [⟨obligation.priority, obligation.trancheBondId, carbonUnpaid, biodiversityUnpaid⟩]
      else [] }

/-- What a bond has on record about its waterfall. -/
structure WaterfallBook where
  carry : List WaterfallTranche
  settlementCount : Nat
  settlement : Nat → List WaterfallAllocation
  claimed : Nat → Nat → Address → Bool

namespace CouponBond

variable (issuer : BondIssuer) (b : CouponBond)

/-- The waterfall's part of a bond's record. -/
def waterfallBook : WaterfallBook :=
  ⟨b.waterfallCarry, b.waterfallSettlementCount, b.waterfallSettlementAllocations,
    b.waterfallClaimed⟩

/-- `settle_waterfall` on the bond's record. -/
def settleWaterfall (tranches : List WaterfallTranche) (carbonAvailable biodiversityAvailable : Int) :
    
    Outcome BondError (CouponBond × WaterfallResult) := do
  b.requireNoMigrationWindow
  reject (carbonAvailable < 0 ∨ biodiversityAvailable < 0) .invalidWaterfall
  validateWaterfallTranches tranches
  validateWaterfallTranches b.waterfallCarry
  let obligations ← mergeWaterfallTranches b.waterfallCarry tranches
  reject (maxWaterfallTranches < obligations.length) .invalidWaterfall
  validateWaterfallTranches obligations
  let r ← obligations.foldlM (Settlement.pay issuer)
    ⟨carbonAvailable, biodiversityAvailable, [], []⟩
  let count ← okOr (u32 (b.waterfallSettlementCount + 1)) .overflow
  pure ({ b with
    waterfallCarry := r.carry
    waterfallAllocations := r.allocations
    waterfallSettlementAllocations :=
      update b.waterfallSettlementAllocations b.waterfallSettlementCount r.allocations
    waterfallSettlementCount := count },
    ⟨r.allocations, r.carry, r.carbonLeft, r.biodiversityLeft⟩)

/-! ## Claims -/

/-- `waterfall_claimable_for_holder`. -/
def waterfallClaimableForHolder (priority : Nat) (holderBalance trancheSupply : Int) :
    Outcome BondError (Int × Int) := do
  reject (holderBalance < 0 ∨ trancheSupply ≤ 0 ∨ trancheSupply < holderBalance) .invalidWaterfall
  let allocation ← okOr (b.waterfallAllocations.find? (fun a => a.priority = priority))
    .bondNotFound
  let carbon ← checkedRatio allocation.carbonPaid holderBalance trancheSupply
  let biodiversity ← checkedRatio allocation.biodiversityPaid holderBalance trancheSupply
  pure (carbon, biodiversity)

/-- `waterfall_claimable`. -/
def waterfallClaimable (priority : Nat) (holder : Address) : Outcome BondError (Int × Int) := do
  let allocation ← okOr (b.waterfallAllocations.find? (fun a => a.priority = priority))
    .bondNotFound
  let holderBalance ← invoke (issuer.getHolderBalanceAtVersion allocation.trancheBondId holder
    allocation.snapshotVersion)
  let trancheSupply ← invoke (issuer.totalSubscribedAtVersion allocation.trancheBondId
    allocation.snapshotVersion)
  b.waterfallClaimableForHolder priority holderBalance trancheSupply

/-- `claim_waterfall` on the bond's record, with the two amounts. -/
def claimWaterfall (holder : Address) (settlementIndex priority : Nat) :
    Outcome BondError (CouponBond × Int × Int) := do
  b.requireNoMigrationWindow
  let allocation ← okOr ((b.waterfallSettlementAllocations settlementIndex).find?
    (fun a => a.priority = priority)) .bondNotFound
  reject (b.waterfallClaimed settlementIndex priority holder = true) .waterfallAlreadyClaimed
  let holderBalance ← invoke (issuer.getHolderBalanceAtVersion allocation.trancheBondId holder
    allocation.snapshotVersion)
  let trancheSupply ← invoke (issuer.totalSubscribedAtVersion allocation.trancheBondId
    allocation.snapshotVersion)
  reject (holderBalance < 0 ∨ trancheSupply ≤ 0 ∨ trancheSupply < holderBalance) .invalidWaterfall
  let carbon ← checkedRatio allocation.carbonPaid holderBalance trancheSupply
  let biodiversity ← checkedRatio allocation.biodiversityPaid holderBalance trancheSupply
  let a₁ ← (b.account holder).accrueWaterfallCredit .carbon carbon
  let a₂ ← a₁.accrueWaterfallCredit .biodiversity biodiversity
  pure ({ b with
    waterfallClaimed := update b.waterfallClaimed settlementIndex
      (update (b.waterfallClaimed settlementIndex) priority
        (update (b.waterfallClaimed settlementIndex priority) holder true))
    account := update b.account holder a₂ }, carbon, biodiversity)

end CouponBond

/-! ## Settled amounts are never negative -/

theorem checkTranches_nonneg {previous : Option Nat} {seen : List Nat}
    {tranches : List WaterfallTranche} {u : Unit} (h : checkTranches previous seen tranches = .ok u) :
    ∀ t ∈ tranches, 0 ≤ t.carbonDue ∧ 0 ≤ t.biodiversityDue := by
  induction tranches generalizing previous seen with
  | nil => simp
  | cons tranche rest ih =>
      simp only [checkTranches, bind_ok_iff, reject_ok_iff, exists_unit_iff, not_or, not_lt] at h
      obtain ⟨⟨-, hcarbon, hbio⟩, -, -, hrest⟩ := h
      intro t ht
      rcases List.mem_cons.mp ht with rfl | ht
      · exact ⟨hcarbon, hbio⟩
      · exact ih hrest t ht

/-- What an allocation paid is not negative. -/
def WaterfallAllocation.PaysNonneg (a : WaterfallAllocation) : Prop :=
  0 ≤ a.carbonPaid ∧ 0 ≤ a.biodiversityPaid

/-- What is left, and everything paid so far, is not negative. -/
def Settlement.Nonneg (r : Settlement) : Prop :=
  0 ≤ r.carbonLeft ∧ 0 ≤ r.biodiversityLeft ∧ ∀ a ∈ r.allocations, a.PaysNonneg

variable {issuer : BondIssuer}

theorem Settlement.Nonneg.pay {r r' : Settlement} (hr : r.Nonneg) {obligation : WaterfallTranche}
    (hcarbon : 0 ≤ obligation.carbonDue) (hbio : 0 ≤ obligation.biodiversityDue)
    (h : r.pay issuer obligation = .ok r') : r'.Nonneg := by
  obtain ⟨hc, hb, ha⟩ := hr
  simp only [Settlement.pay, bind_ok_iff, invoke_ok_iff, okOr_ok_iff, i128_eq_some,
    pure_ok_iff] at h
  obtain ⟨version, -, _, ⟨-, rfl⟩, _, ⟨-, rfl⟩, _, ⟨-, rfl⟩, _, ⟨-, rfl⟩, rfl⟩ := h
  have hcp : min obligation.carbonDue r.carbonLeft ≤ r.carbonLeft := min_le_right _ _
  have hbp : min obligation.biodiversityDue r.biodiversityLeft ≤ r.biodiversityLeft :=
    min_le_right _ _
  refine ⟨?_, ?_, ?_⟩
  · show 0 ≤ r.carbonLeft - min obligation.carbonDue r.carbonLeft
    omega
  · show 0 ≤ r.biodiversityLeft - min obligation.biodiversityDue r.biodiversityLeft
    omega
  · intro a hmem
    rcases List.mem_append.mp hmem with hold | hnew
    · exact ha a hold
    · rw [List.mem_singleton.mp hnew]
      exact ⟨le_min hcarbon hc, le_min hbio hb⟩

theorem Settlement.Nonneg.foldlM {obligations : List WaterfallTranche} {r r' : Settlement}
    (hr : r.Nonneg) (ho : ∀ t ∈ obligations, 0 ≤ t.carbonDue ∧ 0 ≤ t.biodiversityDue)
    (h : obligations.foldlM (Settlement.pay issuer) r = .ok r') : r'.Nonneg := by
  induction obligations generalizing r with
  | nil =>
      simp only [List.foldlM_nil, pure_ok_iff] at h
      rwa [← h]
  | cons t rest ih =>
      simp only [List.foldlM_cons, bind_ok_iff] at h
      obtain ⟨r₁, hpay, hrest⟩ := h
      obtain ⟨hcarbon, hbio⟩ := ho t List.mem_cons_self
      exact ih (hr.pay hcarbon hbio hpay) (fun t ht => ho t (List.mem_cons_of_mem _ ht)) hrest

namespace CouponBond

/-- Every settlement on record paid non-negative amounts. -/
def SettlementsNonneg (b : CouponBond) : Prop :=
  ∀ i, ∀ a ∈ b.waterfallSettlementAllocations i, a.PaysNonneg

variable {issuer : BondIssuer} {b b' : CouponBond} {tranches : List WaterfallTranche} {carbon : Int}
  {result : WaterfallResult}

theorem settleWaterfall_ok {bio : Int}
    (h : b.settleWaterfall issuer tranches carbon bio = .ok (b', result)) :
    ∃ (carry : List WaterfallTranche) (allocations : List WaterfallAllocation),
      (∀ a ∈ allocations, a.PaysNonneg) ∧
      b' = { b with
        waterfallCarry := carry
        waterfallAllocations := allocations
        waterfallSettlementAllocations :=
          update b.waterfallSettlementAllocations b.waterfallSettlementCount allocations
        waterfallSettlementCount := b.waterfallSettlementCount + 1 } := by
  simp only [settleWaterfall, validateWaterfallTranches, requireNoMigrationWindow, bind_ok_iff,
    reject_ok_iff, okOr_ok_iff, u32_eq_some, pure_ok_iff, exists_unit_iff, not_or, not_lt,
    Prod.mk.injEq] at h
  obtain ⟨-, ⟨hc, hb⟩, -, -, obligations, -, -, ⟨-, hchecked⟩, r, hloop, _, ⟨-, rfl⟩, rfl, -⟩ := h
  have hstart : Settlement.Nonneg ⟨carbon, bio, [], []⟩ := ⟨hc, hb, by simp⟩
  have hend := hstart.foldlM (checkTranches_nonneg hchecked) hloop
  exact ⟨r.carry, r.allocations, hend.2.2, rfl⟩

theorem SettlementsNonneg.settle (hb : b.SettlementsNonneg) {bio : Int}
    (h : b.settleWaterfall issuer tranches carbon bio = .ok (b', result)) :
    b'.SettlementsNonneg := by
  obtain ⟨carry, allocations, hpaid, rfl⟩ := settleWaterfall_ok h
  intro i a ha
  by_cases hi : i = b.waterfallSettlementCount
  · subst hi
    simp only [update_self] at ha
    exact hpaid a ha
  · simp only [update_of_ne hi] at ha
    exact hb i a ha

/-- A waterfall claim credits the holder's account with two non-negative amounts. -/
theorem claimWaterfall_ok (hb : b.SettlementsNonneg) {holder : Address}
    {settlementIndex priority : Nat} {biodiversity : Int}
    (h : b.claimWaterfall issuer holder settlementIndex priority = .ok (b', carbon, biodiversity)) :
    ∃ a₁ a₂ claimed, 0 ≤ carbon ∧ 0 ≤ biodiversity ∧
      (b.account holder).accrueWaterfallCredit .carbon carbon = .ok a₁ ∧
      a₁.accrueWaterfallCredit .biodiversity biodiversity = .ok a₂ ∧
      b' = { b with waterfallClaimed := claimed, account := update b.account holder a₂ } := by
  simp only [claimWaterfall, requireNoMigrationWindow, bind_ok_iff, reject_ok_iff, okOr_ok_iff,
    invoke_ok_iff, pure_ok_iff, exists_unit_iff, not_or, not_lt, not_le, Prod.mk.injEq] at h
  obtain ⟨-, allocation, hfind, -, balance, -, supply, -, ⟨hbal, hsupply, -⟩, carbon', hcarbon,
    biodiversity', hbio, a₁, ha₁, a₂, ha₂, rfl, rfl, rfl⟩ := h
  obtain ⟨hcp, hbp⟩ := hb settlementIndex allocation (List.mem_of_find?_eq_some hfind)
  exact ⟨a₁, a₂, _, (checkedRatio_floor hcp hbal hcarbon).2, (checkedRatio_floor hbp hbal hbio).2,
    ha₁, ha₂, rfl⟩

end CouponBond

end VerdantBond
