import VerdantBond.Coupon.Batches

set_option autoImplicit false

/-! # CouponEngine: the pools of a coupon

What a report earns goes through the staleness discount, the true-ups and the covenants before it
is pinned. All stages keep two facts about the pools: a bond that pays one credit type has nothing
in the other pool, and no pool is negative, unless the oracle's discount exceeds the whole.
-/

namespace VerdantBond

open Function

/-- The pool of one credit type. -/
def Pools.of (pools : Pools) : CreditType → Int
  | .carbon => pools.carbon
  | .biodiversity => pools.biodiversity
  | .basket | .blueCarbon => 0

/-- The pools are those a bond of the credit type earns: a bond that pays one type has nothing in
the other pool. -/
def Pools.Fits (pools : Pools) : CreditType → Prop
  | .carbon | .blueCarbon => pools.biodiversity = 0
  | .biodiversity => pools.carbon = 0
  | .basket => True

def Pools.Nonneg (pools : Pools) : Prop := 0 ≤ pools.carbon ∧ 0 ≤ pools.biodiversity

def CouponCalculation.pools (c : CouponCalculation) : Pools := ⟨c.carbonPool, c.biodiversityPool⟩

/-! ## Scaling -/

variable {r carbon biodiversity : Int}

theorem checkedRatio_zero {multiplier divisor : Int} (h : checkedRatio 0 multiplier divisor = .ok r) :
    r = 0 := by
  obtain ⟨-, rfl⟩ := checkedRatio_ok h
  rw [zero_mul, Int.zero_tdiv]

variable {pools pools' : Pools} {creditType : CreditType} {m d : Int} {report : Report}

/-- Scaling both pools leaves an empty pool empty. -/
theorem Pools.Fits.scale (h : pools.Fits creditType)
    (hcarbon : checkedRatio pools.carbon m d = .ok carbon)
    (hbio : checkedRatio pools.biodiversity m d = .ok biodiversity) :
    Pools.Fits ⟨carbon, biodiversity⟩ creditType := by
  cases creditType with
  | carbon | blueCarbon =>
      have hzero : pools.biodiversity = 0 := h
      rw [hzero] at hbio
      exact checkedRatio_zero hbio
  | biodiversity =>
      have hzero : pools.carbon = 0 := h
      rw [hzero] at hcarbon
      exact checkedRatio_zero hcarbon
  | basket => trivial

theorem Pools.Nonneg.scale (h : pools.Nonneg) (hm : 0 ≤ m)
    (hcarbon : checkedRatio pools.carbon m d = .ok carbon)
    (hbio : checkedRatio pools.biodiversity m d = .ok biodiversity) :
    Pools.Nonneg ⟨carbon, biodiversity⟩ :=
  ⟨(checkedRatio_floor h.1 hm hcarbon).2, (checkedRatio_floor h.2 hm hbio).2⟩

/-! ## The report -/

theorem computeBiodiversityCredits_nonneg {metrics : BiodiversityMetrics}
    (h : computeBiodiversityCredits metrics = .ok r) : 0 ≤ r := by
  cases metrics with
  | absent =>
      injection h with h
      omega
  | present habitat species units =>
      simp only [computeBiodiversityCredits, bind_ok_iff, reject_ok_iff, okOr_ok_iff, i128_eq_some,
        checkedDiv_eq_some, exists_unit_iff, not_or, not_lt] at h
      obtain ⟨⟨hhabitat, hspecies, hunits⟩, _, ⟨-, rfl⟩, _, ⟨-, rfl⟩, _, ⟨-, rfl⟩, _, ⟨-, rfl⟩, _,
        ⟨-, rfl⟩, _, ⟨-, rfl⟩, -, -, rfl⟩ := h
      unfold habitatCreditRate speciesCreditRate unitCreditRate creditMinorUnits
      exact Int.tdiv_nonneg (by omega) (by omega)

/-- The two pools of a report, one of them empty for a bond that pays one type. -/
theorem creditPools_ok {normalized : Int} {raw : Pools}
    (h : creditPools creditType report normalized = .ok raw) :
    raw.Fits creditType ∧ (0 ≤ normalized → raw.Nonneg) := by
  simp only [creditPools, bind_ok_iff, okOr_ok_iff, checkedDiv_eq_some, i128_eq_some] at h
  obtain ⟨credits, ⟨-, -, rfl⟩, _, ⟨-, rfl⟩, h⟩ := h
  have hcarbon : 0 ≤ normalized → 0 ≤ normalized.tdiv creditDivisor * creditMinorUnits := by
    intro hn
    refine mul_nonneg (Int.tdiv_nonneg hn ?_) ?_
    · unfold creditDivisor
      omega
    · unfold creditMinorUnits
      omega
  cases creditType with
  | carbon | blueCarbon =>
      simp only [pure_ok_iff] at h
      subst h
      exact ⟨rfl, fun hn => ⟨hcarbon hn, le_refl _⟩⟩
  | biodiversity =>
      simp only [biodiversityTotal, bind_ok_iff, pure_ok_iff, reject_ok_iff, exists_unit_iff] at h
      obtain ⟨total, ⟨-, htotal⟩, rfl⟩ := h
      exact ⟨rfl, fun _ => ⟨le_refl _, computeBiodiversityCredits_nonneg htotal⟩⟩
  | basket =>
      simp only [biodiversityTotal, bind_ok_iff, pure_ok_iff, reject_ok_iff, exists_unit_iff] at h
      obtain ⟨total, ⟨-, htotal⟩, rfl⟩ := h
      exact ⟨trivial, fun hn => ⟨hcarbon hn, computeBiodiversityCredits_nonneg htotal⟩⟩

/-! ## The later stages -/

/-- The staleness state takes at most the whole pool. -/
def StalenessState.DiscountBounded (staleness : StalenessState) : Prop :=
  staleness.currentTier = 1 → staleness.discountBps ≤ 10000

theorem discountPools_ok {staleness : StalenessState} (hfits : pools.Fits creditType)
    (h : discountPools staleness pools = .ok pools') :
    pools'.Fits creditType ∧
      (staleness.DiscountBounded → pools.Nonneg → pools'.Nonneg) := by
  unfold discountPools at h
  split at h
  · next htier =>
      simp only [bind_ok_iff, okOr_ok_iff, i128_eq_some, pure_ok_iff] at h
      obtain ⟨_, ⟨-, rfl⟩, carbon, hcarbon, biodiversity, hbio, rfl⟩ := h
      refine ⟨hfits.scale hcarbon hbio, fun hbounded hnonneg => ?_⟩
      have hbps := hbounded htier.1
      exact hnonneg.scale (by omega) hcarbon hbio
  · injection h with h
    rw [← h]
    exact ⟨hfits, fun _ hnonneg => hnonneg⟩

theorem adjustPools_ok {trueUp : Int} (hfits : pools.Fits creditType)
    (h : adjustPools creditType trueUp pools = .ok pools') :
    pools'.Fits creditType ∧ (pools.Nonneg → pools'.Nonneg) := by
  unfold adjustPools at h
  split at h
  · injection h with h
    rw [← h]
    exact ⟨hfits, fun hnonneg => hnonneg⟩
  · split at h
    · next htype =>
        simp only [bind_ok_iff, okOr_ok_iff, i128_eq_some, pure_ok_iff] at h
        obtain ⟨_, ⟨-, rfl⟩, rfl⟩ := h
        subst htype
        exact ⟨hfits, fun hnonneg => ⟨hnonneg.1, le_max_right _ _⟩⟩
    · next htype =>
        simp only [bind_ok_iff, okOr_ok_iff, i128_eq_some, pure_ok_iff] at h
        obtain ⟨_, ⟨-, rfl⟩, rfl⟩ := h
        refine ⟨?_, fun hnonneg => ⟨le_max_right _ _, hnonneg.2⟩⟩
        -- a biodiversity bond took the other branch; the others have no say on the carbon pool
        cases creditType with
        | carbon | blueCarbon => exact hfits
        | biodiversity => exact absurd rfl htype
        | basket => trivial

/-- Without a recorded cycle, the covenants scale the pools or leave them. -/
theorem CouponBond.applyTerms_fresh {issuer : BondIssuer} {bondId : Nat} {b b' : CouponBond}
    {period : Nat} (hcycle : b.getCovenantCycle period = none) (hfits : pools.Fits creditType)
    (h : b.applyTerms issuer bondId period report pools = .ok (b', pools')) :
    pools'.Fits creditType ∧ (pools.Nonneg → pools'.Nonneg) := by
  rcases applyTerms_ok h with ⟨-, -, rfl⟩ | ⟨_, hsome, -, -⟩ | ⟨cycle, -, hcarbon, hbio, -, rfl⟩
  · exact ⟨hfits, fun hnonneg => hnonneg⟩
  · rw [hcycle] at hsome
    cases hsome
  · exact ⟨hfits.scale hcarbon hbio, fun hnonneg =>
      hnonneg.scale (Int.natCast_nonneg _) hcarbon hbio⟩

/-! ## The equivalence tables -/

namespace CouponEngine

/-- Carbon that is not negative stays so in the reference unit. -/
theorem normalize_nonneg {s : CouponEngine} {report : Report} {creditType : CreditType}
    {factor : EquivalenceFactor} {normalized : Int} (hs : s.TablesInBounds)
    (hraw : 0 ≤ report.carbonSequestered) (hfactor : s.factorFor report creditType = .ok factor)
    (h : normalize report creditType factor = .ok normalized) : 0 ≤ normalized := by
  have hnumerator : 0 ≤ factor.numerator := by
    unfold factorFor at hfactor
    split at hfactor
    · injection hfactor with hfactor
      rw [← hfactor]
      show (0 : Int) ≤ 1
      decide
    · simp only [bind_ok_iff, okOr_ok_iff] at hfactor
      obtain ⟨table, htable, hfind⟩ := hfactor
      exact le_of_lt (hs _ table htable factor (List.mem_of_find?_eq_some hfind)).1
  unfold normalize at h
  split at h
  · exact (checkedRatio_floor hraw hnumerator h).2
  · injection h with h
    omega

end CouponEngine

end VerdantBond
