import VerdantBond.Coupon.Pools
import VerdantBond.Lib.ProRata

set_option autoImplicit false

/-! # CouponEngine: whom a batch pays, and how much

The loop of `distribute_coupon_batch` visits the slice of its list that the offset and the limit
cut out. No holder is in the slice twice, or in the list before the slice, and who is not in the
slice is not paid. With pools that are not negative and fit the bond's credit type, everyone in the
slice gets the pro-rata share of each pool, and the running total is the sum of these shares.
-/

namespace VerdantBond

open Function List

/-! ## The slice -/

variable {holders : List Address} {c : CouponCalculation} {balance : Int}

theorem appearsBefore_iff {holder : Address} {n : Nat} :
    appearsBefore holders holder n = true ↔ holder ∈ holders.take n := by
  unfold appearsBefore
  rw [List.any_eq_true, List.mem_take_iff_getElem]
  constructor
  · rintro ⟨i, hi, hget⟩
    obtain ⟨hlt, heq⟩ := List.getElem?_eq_some_iff.mp (of_decide_eq_true hget)
    exact ⟨i, lt_min (List.mem_range.mp hi) hlt, heq⟩
  · rintro ⟨i, hi, heq⟩
    obtain ⟨hn, hlt⟩ := lt_min_iff.mp hi
    exact ⟨i, List.mem_range.mpr hn, decide_eq_true (List.getElem?_eq_some_iff.mpr ⟨hlt, heq⟩)⟩

namespace Payout

section

variable {issuer : BondIssuer} {bondId period : Nat} {creditType : CreditType}
  {calculation : CouponCalculation} {totalCredits : Int}

/-- The loop, as a fold over the slice. The slice names nobody twice and nobody who comes before
it in the list. -/
theorem payHolders_ok {holders : List Address} (n i : Nat) (p p' : Payout)
    (h : payHolders issuer bondId period creditType calculation totalCredits holders n i p
      = .ok p') :
    ((holders.drop i).take n).foldlM
        (payHolder issuer bondId period creditType calculation totalCredits) p = .ok p' ∧
      ((holders.drop i).take n).Nodup ∧ ∀ x ∈ (holders.drop i).take n, x ∉ holders.take i := by
  induction n generalizing i p with
  | zero =>
      unfold payHolders at h
      rw [take_zero]
      exact ⟨h, nodup_nil, fun x hx => absurd hx not_mem_nil⟩
  | succ n ih =>
      simp only [payHolders, bind_ok_iff, okOr_ok_iff, reject_ok_iff, exists_unit_iff,
        appearsBefore_iff] at h
      obtain ⟨holder, hget, hnew, p₁, hpay, hrest⟩ := h
      obtain ⟨hlt, heq⟩ := List.getElem?_eq_some_iff.mp hget
      obtain ⟨hfold, hnodup, hbefore⟩ := ih (i + 1) p₁ hrest
      have hslice : (holders.drop i).take (n + 1) = holder :: (holders.drop (i + 1)).take n := by
        rw [List.drop_eq_getElem_cons hlt, heq, List.take_succ_cons]
      have htake : holders.take (i + 1) = holders.take i ++ [holder] := by
        rw [take_add_one, hget, Option.toList_some]
      rw [hslice]
      refine ⟨?_, nodup_cons.mpr ⟨fun hmem => ?_, hnodup⟩, fun x hx hmem => ?_⟩
      · rw [foldlM_cons, hpay, ok_bind, hfold]
      · refine hbefore holder hmem ?_
        rw [htake]
        exact mem_append_right _ mem_cons_self
      · rcases mem_cons.mp hx with rfl | hx
        · exact hnew hmem
        · refine hbefore x hx ?_
          rw [htake]
          exact mem_append_left _ hmem

variable {p p' : Payout} {x : Address}

theorem payHolder_other {holder : Address}
    (h : p.payHolder issuer bondId period creditType calculation totalCredits holder = .ok p')
    (hx : x ≠ holder) : p'.account x = p.account x := by
  obtain ⟨_, -, ⟨-, rfl⟩ | ⟨-, shares, -, hshares⟩⟩ := payHolder_ok h
  · rfl
  · rcases payShares_ok hshares with ⟨-, rfl⟩ | ⟨-, _, _, -, -, rfl⟩
    · rfl
    · exact update_of_ne hx ..

/-- Who is not in the list is not paid. -/
theorem foldlM_payHolder_other {l : List Address}
    (h : l.foldlM (payHolder issuer bondId period creditType calculation totalCredits) p = .ok p')
    (hx : x ∉ l) : p'.account x = p.account x := by
  induction l generalizing p with
  | nil =>
      simp only [foldlM_nil, pure_ok_iff] at h
      rw [h]
  | cons holder l ih =>
      simp only [foldlM_cons, bind_ok_iff] at h
      obtain ⟨p₁, hpay, hrest⟩ := h
      obtain ⟨hne, hnotin⟩ := not_or.mp (fun hor => hx (mem_cons.mpr hor))
      rw [ih hrest hnotin, payHolder_other hpay hne]

end

end Payout

/-! ## The shares -/

/-- What a holder with `balance` at the snapshot is due in each credit type. -/
def CouponCalculation.due (c : CouponCalculation) (balance : Int) : Pools where
  carbon := proRata c.carbonPool balance c.totalSubscribed
  biodiversity := proRata c.biodiversityPool balance c.totalSubscribed

/-- What a holder is due in all. -/
def CouponCalculation.dueTotal (c : CouponCalculation) (balance : Int) : Int :=
  (c.due balance).carbon + (c.due balance).biodiversity

theorem due_zero (c : CouponCalculation) : c.due 0 = ⟨0, 0⟩ := by
  unfold CouponCalculation.due
  rw [proRata_zero_weight, proRata_zero_weight]

theorem dueTotal_nonneg (hnonneg : c.pools.Nonneg) (htotal : 0 ≤ c.totalSubscribed)
    (hbalance : 0 ≤ balance) : 0 ≤ c.dueTotal balance :=
  add_nonneg (proRata_nonneg hnonneg.1 hbalance htotal) (proRata_nonneg hnonneg.2 hbalance htotal)

/-- **Nothing is over-distributed**: what is due to holders whose balances stay within the total
stays within the pools. -/
theorem sum_dueTotal_le (hnonneg : c.pools.Nonneg) (htotal : 0 ≤ c.totalSubscribed)
    {balance : Address → Int} (hsum : (holders.map balance).sum ≤ c.totalSubscribed) :
    (holders.map fun h => c.dueTotal (balance h)).sum ≤ c.carbonPool + c.biodiversityPool := by
  have hsplit : (holders.map fun h => c.dueTotal (balance h)).sum
      = (holders.map fun h => proRata c.carbonPool (balance h) c.totalSubscribed).sum
        + (holders.map fun h => proRata c.biodiversityPool (balance h) c.totalSubscribed).sum :=
    sum_map_add
  rw [hsplit]
  exact add_le_add (sum_proRata_le holders hnonneg.1 htotal hsum)
    (sum_proRata_le holders hnonneg.2 htotal hsum)

/-- The shares the loop computes are those due. A bond of one type divides the sum of the pools,
which is the pool of that type. -/
theorem holderShares_ok {creditType : CreditType} {shares : Pools} (hfits : c.pools.Fits creditType)
    (hnonneg : c.pools.Nonneg) (hbalance : 0 ≤ balance)
    (h : holderShares creditType c (c.carbonPool + c.biodiversityPool) balance = .ok shares) :
    shares = c.due balance ∧ shares.Nonneg := by
  obtain ⟨hcarbon, hbio⟩ := hnonneg
  have hcarbon : 0 ≤ c.carbonPool := hcarbon
  have hbio : 0 ≤ c.biodiversityPool := hbio
  unfold CouponCalculation.due proRata
  cases creditType with
  | carbon | blueCarbon =>
      have hzero : c.biodiversityPool = 0 := hfits
      rw [hzero, add_zero] at h
      simp only [holderShares, bind_ok_iff, pure_ok_iff] at h
      obtain ⟨carbon, hratio, rfl⟩ := h
      obtain ⟨rfl, hle⟩ := checkedRatio_floor hcarbon hbalance hratio
      rw [hzero, zero_mul, Int.zero_ediv]
      exact ⟨rfl, hle, le_refl _⟩
  | biodiversity =>
      have hzero : c.carbonPool = 0 := hfits
      rw [hzero, zero_add] at h
      simp only [holderShares, bind_ok_iff, pure_ok_iff] at h
      obtain ⟨bio, hratio, rfl⟩ := h
      obtain ⟨rfl, hle⟩ := checkedRatio_floor hbio hbalance hratio
      rw [hzero, zero_mul, Int.zero_ediv]
      exact ⟨rfl, le_refl _, hle⟩
  | basket =>
      simp only [holderShares, bind_ok_iff, pure_ok_iff] at h
      obtain ⟨carbon, hc, bio, hb, rfl⟩ := h
      obtain ⟨rfl, hcle⟩ := checkedRatio_floor hcarbon hbalance hc
      obtain ⟨rfl, hble⟩ := checkedRatio_floor hbio hbalance hb
      exact ⟨rfl, hcle, hble⟩

theorem escrowPositive_itemized {a a' : Account} {period : Nat} {t : CreditType} {amount : Int}
    (hnonneg : 0 ≤ amount) (h : a.escrowPositive period t amount = .ok a') (e : Entry) :
    a'.itemized e = a.itemized e + if Entry.period period t = e then amount else 0 := by
  unfold Account.escrowPositive at h
  split at h
  · exact Account.credit_itemized h e
  · have hzero : amount = 0 := by omega
    injection h with h
    rw [← h, hzero, ite_self, add_zero]

namespace Payout

/-- From `p` to `p'`, everyone was credited what `c` makes due on its balance, once for each time
it is in the list. -/
structure Adds (c : CouponCalculation) (balance : Address → Int) (period : Nat) (l : List Address)
    (p p' : Payout) : Prop where
  credited : ∀ x t, (p'.account x).periodHolder period t
    = (p.account x).periodHolder period t + l.count x * (c.due (balance x)).of t
  total : p'.totalHolderCredits
    = p.totalHolderCredits + (l.map fun x => c.dueTotal (balance x)).sum

theorem Adds.nil (c : CouponCalculation) (balance : Address → Int) (period : Nat) (p : Payout) :
    Adds c balance period [] p p where
  credited := fun x t => by simp
  total := by simp

variable {c : CouponCalculation} {balance : Address → Int} {period : Nat} {holder : Address}

variable {p p' : Payout}

theorem Adds.cons {l : List Address} {p₁ : Payout} (h : Adds c balance period [holder] p p₁)
    (h' : Adds c balance period l p₁ p') :
    Adds c balance period (holder :: l) p p' where
  credited := fun x t => by
    rw [h'.credited, h.credited]
    have hcount : (holder :: l).count x = [holder].count x + l.count x := by
      rw [← count_append, singleton_append]
    rw [hcount]
    push_cast
    ring
  total := by
    rw [h'.total, h.total]
    simp only [map_cons, map_nil, sum_cons, sum_nil]
    ring

/-- To credit one holder is to leave the other accounts alone. -/
theorem Adds.single (hself : ∀ t, (p'.account holder).periodHolder period t
      = (p.account holder).periodHolder period t + (c.due (balance holder)).of t)
    (hother : ∀ x, x ≠ holder → p'.account x = p.account x)
    (htotal : p'.totalHolderCredits = p.totalHolderCredits + c.dueTotal (balance holder)) :
    Adds c balance period [holder] p p' where
  credited := fun x t => by
    by_cases hx : x = holder
    · rw [hx, hself, count_singleton_self, Nat.cast_one, one_mul]
    · rw [hother x hx, count_eq_zero.mpr (by simpa using hx), Nat.cast_zero, zero_mul, add_zero]
  total := by rw [htotal, map_singleton, sum_singleton]

/-- Crediting one holder with shares that are not negative. -/
theorem payShares_adds {shares : Pools} (hdue : shares = c.due (balance holder))
    (hnonneg : shares.Nonneg) (h : p.payShares period holder shares = .ok p') :
    Adds c balance period [holder] p p' := by
  obtain ⟨hcarbon, hbio⟩ := hnonneg
  have htotal : c.dueTotal (balance holder) = shares.carbon + shares.biodiversity := by
    rw [hdue]
    rfl
  rcases payShares_ok h with ⟨hnone, rfl⟩ | ⟨-, a₁, a₂, h₁, h₂, rfl⟩
  · -- both shares are zero
    have hc : shares.carbon = 0 := by omega
    have hb : shares.biodiversity = 0 := by omega
    refine .single (fun t => ?_) (fun _ _ => rfl) (by omega)
    rw [← hdue]
    cases t <;> simp [Pools.of, hc, hb]
  · refine .single (fun t => ?_) (fun x hx => update_of_ne hx ..) (by rw [htotal])
    show (update p.account holder a₂ holder).periodHolder period t = _
    rw [update_self, ← hdue]
    unfold Account.periodHolder
    rw [escrowPositive_itemized hbio h₂, escrowPositive_itemized hcarbon h₁]
    cases t <;> simp [Pools.of]

section

variable {issuer : BondIssuer} {bondId period : Nat} {creditType : CreditType}
  {c : CouponCalculation} {balance : Address → Int}

variable {p p' : Payout}

theorem payHolder_adds (hfits : c.pools.Fits creditType) (hnonneg : c.pools.Nonneg)
    (hread : ∀ x, issuer.getHolderBalanceAtVersion bondId x c.balanceVersion = .ok (balance x))
    (hbalance : ∀ x, 0 ≤ balance x) {holder : Address}
    (h : p.payHolder issuer bondId period creditType c (c.carbonPool + c.biodiversityPool) holder
      = .ok p') : Adds c balance period [holder] p p' := by
  obtain ⟨read, hok, hcases⟩ := payHolder_ok h
  rw [hread holder] at hok
  cases hok
  rcases hcases with ⟨hnone, rfl⟩ | ⟨-, shares, hshares, hpay⟩
  · have hzero : balance holder = 0 := le_antisymm hnone (hbalance holder)
    refine .single (fun t => ?_) (fun _ _ => rfl) ?_
    · rw [hzero, due_zero]
      cases t <;> simp [Pools.of]
    · rw [hzero, CouponCalculation.dueTotal, due_zero]
      simp
  · obtain ⟨hdue, hshares⟩ := holderShares_ok hfits hnonneg (hbalance holder) hshares
    exact payShares_adds hdue hshares hpay

/-- **What a batch credits**: everyone in its slice, the pro-rata share. -/
theorem foldlM_payHolder_adds (hfits : c.pools.Fits creditType) (hnonneg : c.pools.Nonneg)
    (hread : ∀ x, issuer.getHolderBalanceAtVersion bondId x c.balanceVersion = .ok (balance x))
    (hbalance : ∀ x, 0 ≤ balance x) {l : List Address}
    (h : l.foldlM (payHolder issuer bondId period creditType c
      (c.carbonPool + c.biodiversityPool)) p = .ok p') : Adds c balance period l p p' := by
  induction l generalizing p with
  | nil =>
      simp only [foldlM_nil, pure_ok_iff] at h
      subst h
      exact .nil c balance period p
  | cons holder l ih =>
      simp only [foldlM_cons, bind_ok_iff] at h
      obtain ⟨p₁, hpay, hrest⟩ := h
      exact (payHolder_adds hfits hnonneg hread hbalance hpay).cons (ih hrest)

end

end Payout

/-- A distribution leaves the accounts outside its slice alone. -/
theorem CouponEngine.distribute_other {env : Env} {clock : Clock} {issuer : BondIssuer}
    {s : CouponEngine} {batch : CouponBatch} {b' : CouponBond} {result : CouponResult}
    (h : s.distribute env clock issuer batch = .ok (b', result)) {x : Address}
    (hx : x ∉ batch.slice) : b'.account x = (s.bond batch.bondId).account x := by
  rcases distribute_ok h with ⟨-, flag, rfl⟩ | ⟨-, _, _, b₁, _, _, payout, info, -, hprepare, hpaid⟩
  · rfl
  · rw [hpaid.account, ← (prepareBatch_same hprepare).account]
    exact Payout.foldlM_payHolder_other (Payout.payHolders_ok _ _ _ _ hpaid.pays).1 hx

end VerdantBond
