import VerdantBond.Issuer.SubscriptionAuction
import VerdantBond.Lib.Search
import Mathlib.Algebra.BigOperators.Intervals
import Mathlib.Algebra.Order.BigOperators.Group.Finset

set_option autoImplicit false

/-! # BondIssuer: apportionment is Hamilton's method

`apportion` computes the whole quotas, then gives the units that are left one by one to the
largest remainder, which it overwrites with `-1`. The loop is described by the set of entries it
picks (`handOut_spec`): as long as it is not asked for more units than there are positive
remainders, it picks that many entries, all with a positive remainder, and with an entry every
entry that outranks it. The quotas leave at most that many units (`left_le_card`), because the
remainders add up to `total` times the units left and each is smaller than `total`.
-/

namespace VerdantBond

open Finset

/-! ## Lists as functions of the index -/

theorem sum_eq_sum_range (l : List Int) : l.sum = ∑ i ∈ range l.length, l.getD i 0 := by
  induction l with
  | nil => simp
  | cons a l ih =>
      rw [List.sum_cons, List.length_cons, sum_range_succ', ih, add_comm]
      simp

variable {l r : List Int} {i : Nat}

theorem getD_map_of_lt {f : Int → Int} (hi : i < l.length) :
    (l.map f).getD i 0 = f (l.getD i 0) := by
  simp [List.getD_eq_getElem?_getD, hi]

theorem getD_set_eq (hi : i < l.length) (x : Int) : (l.set i x).getD i 0 = x := by
  simp [List.getD_eq_getElem?_getD, hi]

theorem getD_set_ne {k : Nat} (h : k ≠ i) (x : Int) : (l.set i x).getD k 0 = l.getD k 0 := by
  simp [List.getD_eq_getElem?_getD, Ne.symm h]

/-! ## The entry with the largest remainder -/

/-- Entry `i` is served before entry `j`: a larger remainder, or the same one further left. -/
def Outranks (remainders : List Int) (i j : Nat) : Prop :=
  remainders.getD j 0 < remainders.getD i 0 ∨
    remainders.getD j 0 = remainders.getD i 0 ∧ i < j

theorem Outranks.asymm {j : Nat} (h : Outranks r i j) : ¬ Outranks r j i := by
  unfold Outranks at *
  omega

theorem bestIndex_outranks (hr : 0 < r.length) :
    bestIndex r < r.length ∧ ∀ k < r.length, k ≠ bestIndex r → Outranks r (bestIndex r) k := by
  obtain ⟨-, h2, h3, h4⟩ := foldl_best (fun j m => r.getD m 0 < r.getD j 0)
    (fun _ _ _ h1 h2 => h2.trans h1) (fun a b c h => by omega) 0 (r.length - 1)
  refine ⟨lt_of_le_of_lt h2 (by omega), fun k hk hne => ?_⟩
  rcases lt_or_gt_of_ne hne with hlt | hgt
  · exact .inl (h3 k (Nat.zero_le k) hlt)
  · have hnot : ¬ r.getD (bestIndex r) 0 < r.getD k 0 := h4 k hgt (by omega)
    unfold Outranks
    omega

/-! ## Handing out the units that are left -/

/-- The entries with a positive remainder. -/
def positives (remainders : List Int) : Finset Nat :=
  {i ∈ range remainders.length | 0 < remainders.getD i 0}

theorem mem_positives : i ∈ positives r ↔ i < r.length ∧ 0 < r.getD i 0 := by
  simp [positives]

/-- Marking an entry with `-1` takes it out of the positive ones and leaves the rest. -/
theorem positives_set (hi : i < r.length) : positives (r.set i (-1)) = (positives r).erase i := by
  ext k
  rw [mem_erase, mem_positives, mem_positives, List.length_set]
  by_cases hk : k = i
  · subst hk
    rw [getD_set_eq hi]
    simp
  · rw [getD_set_ne hk]
    simp [hk]

/-- While some remainder is positive, the best one is: a positive entry does not outrank it. -/
theorem bestIndex_positive (h : (positives r).Nonempty) : bestIndex r ∈ positives r := by
  obtain ⟨p, hp⟩ := h
  rw [mem_positives] at hp
  obtain ⟨hbest, hrank⟩ := bestIndex_outranks (r := r) (by omega)
  refine mem_positives.mpr ⟨hbest, ?_⟩
  by_cases hpb : p = bestIndex r
  · rw [← hpb]
    exact hp.2
  · have hlt := hrank p hp.1 hpb
    unfold Outranks at hlt
    omega

/-- What the loop leaves: the entries of `picked` got one unit more. -/
structure HandedOut (n : Nat) (allocations remainders result : List Int) (picked : Finset Nat) :
    Prop where
  card : picked.card = n
  positive : picked ⊆ positives remainders
  upward : ∀ j ∈ picked, ∀ i < remainders.length, Outranks remainders i j → i ∈ picked
  length : result.length = allocations.length
  entry : ∀ i < allocations.length,
    result.getD i 0 = allocations.getD i 0 + if i ∈ picked then 1 else 0

theorem handOut_spec (n : Nat) : ∀ (a r : List Int), a.length = r.length →
    n ≤ (positives r).card → ∃ picked, HandedOut n a r (handOut n a r) picked := by
  induction n with
  | zero =>
      intro a r _ _
      exact ⟨∅, by simp, by simp, by simp, rfl, by simp [handOut]⟩
  | succ n ih =>
      intro a r hlen hn
      have hpos := bestIndex_positive (card_pos.mp (show 0 < (positives r).card by omega))
      have hbest := (mem_positives.mp hpos).1
      have hrank := (bestIndex_outranks (r := r) (by omega)).2
      rw [handOut]
      generalize bestIndex r = best at hbest hrank hpos
      obtain ⟨picked, h⟩ := ih (a.set best (a.getD best 0 + 1)) (r.set best (-1))
        (by simpa using hlen) (by rw [positives_set hbest, card_erase_of_mem hpos]; omega)
      have hsub : picked ⊆ (positives r).erase best := positives_set hbest ▸ h.positive
      have hnot : best ∉ picked := fun hb => (mem_erase.mp (hsub hb)).1 rfl
      refine ⟨insert best picked, ?_, ?_, ?_, ?_, ?_⟩
      · rw [card_insert_of_notMem hnot, h.card]
      · intro k hk
        rcases mem_insert.mp hk with rfl | hk
        · exact hpos
        · exact (mem_erase.mp (hsub hk)).2
      · intro j hj i hi hij
        by_cases hib : i = best
        · exact mem_insert.mpr (.inl hib)
        rcases mem_insert.mp hj with rfl | hj
        · exact absurd (hrank i hi hib) hij.asymm
        · have hjb : j ≠ best := fun h => hnot (h ▸ hj)
          refine mem_insert_of_mem (h.upward j hj i (by simpa using hi) ?_)
          simpa only [Outranks, getD_set_ne hib, getD_set_ne hjb] using hij
      · simpa using h.length
      · intro i hi
        rw [h.entry i (by simpa using hi)]
        by_cases hib : i = best
        · subst hib
          rw [getD_set_eq hi, if_neg hnot, if_pos (mem_insert_self i picked), add_zero]
        · rw [getD_set_ne hib]
          simp [hib]

/-! ## The quotas -/

section Quotas

variable (requests : List Int) (capacity : Int)

/-- The whole quota of entry `i`: `floor(request * capacity / total)`. -/
def quota (i : Nat) : Int := requests.getD i 0 * capacity / requests.sum

/-- What the division leaves of entry `i`. -/
def quotaRest (i : Nat) : Int := requests.getD i 0 * capacity % requests.sum

end Quotas

variable {requests : List Int} {capacity : Int}

theorem foldlM_addRequest_eq : ∀ {start : Int}, 0 ≤ start →
    (∀ r ∈ l, 0 ≤ r ∧ r ≤ maxSupply) → start + l.length * maxSupply ≤ i128Max →
    l.foldlM addRequest start = .ok (start + l.sum) := by
  induction l with
  | nil => simp
  | cons r l ih =>
      intro start hstart hl hmax
      obtain ⟨hr, hr'⟩ := hl r List.mem_cons_self
      have hnn : 0 ≤ (l.length : Int) * maxSupply := mul_nonneg (by omega) (by decide)
      rw [List.length_cons, Nat.cast_succ, add_mul, one_mul] at hmax
      have hi : InI128 (start + r) := ⟨by unfold i128Min; omega, by omega⟩
      rw [List.foldlM_cons, addRequest, reject_of_not (not_not.mpr ⟨hr, hr'⟩), ok_bind,
        i128_of hi, okOr_some, ok_bind,
        ih (by omega) (fun x hx => hl x (List.mem_cons_of_mem r hx)) (by omega), List.sum_cons,
        add_assoc]

/-- The quota loop, when no product and no sum leaves `i128`. -/
theorem foldlM_addQuota_eq {total bound : Int} (hcap : 0 ≤ capacity) (htotal : 0 < total)
    (hbound : InI128 bound) : ∀ {q : Quotas}, 0 ≤ q.allocated →
    (∀ r ∈ l, 0 ≤ r ∧ InI128 (r * capacity)) →
    q.allocated + (l.map (· * capacity / total)).sum ≤ bound →
    l.foldlM (addQuota capacity total) q =
      .ok ⟨q.allocations ++ l.map (· * capacity / total), q.remainders ++ l.map (· * capacity % total),
        q.allocated + (l.map (· * capacity / total)).sum⟩ := by
  induction l with
  | nil => simp
  | cons r l ih =>
      intro q hq hl hsum
      obtain ⟨hr, hprod⟩ := hl r List.mem_cons_self
      have hl' : ∀ x ∈ l, 0 ≤ x ∧ InI128 (x * capacity) :=
        fun x hx => hl x (List.mem_cons_of_mem r hx)
      have hpos : 0 ≤ r * capacity := mul_nonneg hr hcap
      have hquot : 0 ≤ r * capacity / total := Int.ediv_nonneg hpos htotal.le
      have hrest : 0 ≤ (l.map (· * capacity / total)).sum := by
        refine List.sum_nonneg (fun x hx => ?_)
        obtain ⟨y, hy, rfl⟩ := List.mem_map.mp hx
        exact Int.ediv_nonneg (mul_nonneg (hl' y hy).1 hcap) htotal.le
      rw [List.map_cons, List.sum_cons] at hsum
      have hin : InI128 (q.allocated + r * capacity / total) :=
        .of_nonneg_le (by omega) (by omega) hbound
      rw [List.foldlM_cons, addQuota, i128_of hprod, okOr_some, ok_bind,
        Int.tdiv_eq_ediv_of_nonneg hpos, Int.tmod_eq_emod_of_nonneg hpos, i128_of hin, okOr_some,
        ok_bind, pure_eq_ok, ok_bind, ih (by simp only; omega) hl' (by simp only; omega)]
      simp [add_assoc]

/-- All quotas and rests together give back `total * capacity`. -/
theorem sum_quota_add_rest (requests : List Int) (capacity : Int) :
    requests.sum * (∑ i ∈ range requests.length, quota requests capacity i) +
      ∑ i ∈ range requests.length, quotaRest requests capacity i = requests.sum * capacity := by
  calc _ = ∑ i ∈ range requests.length, requests.getD i 0 * capacity := by
        rw [mul_sum, ← sum_add_distrib]
        exact sum_congr rfl fun i _ => Int.mul_ediv_add_emod _ _
    _ = requests.sum * capacity := by rw [← sum_mul, ← sum_eq_sum_range]

theorem quotaRest_nonneg (htotal : 0 < requests.sum) (capacity : Int) (i : Nat) :
    0 ≤ quotaRest requests capacity i := Int.emod_nonneg _ htotal.ne'

/-- The units the quotas leave over: not negative, and at most one for each positive rest. -/
theorem left_le_card (htotal : 0 < requests.sum) (capacity : Int) :
    0 ≤ capacity - ∑ i ∈ range requests.length, quota requests capacity i ∧
      capacity - ∑ i ∈ range requests.length, quota requests capacity i ≤
        ({i ∈ range requests.length | 0 < quotaRest requests capacity i}.card : Int) := by
  have hsplit := sum_quota_add_rest requests capacity
  set left := capacity - ∑ i ∈ range requests.length, quota requests capacity i with hleft
  have hrest : ∑ i ∈ range requests.length, quotaRest requests capacity i = requests.sum * left := by
    rw [hleft, mul_sub]
    linarith
  have hnonneg : 0 ≤ ∑ i ∈ range requests.length, quotaRest requests capacity i :=
    sum_nonneg fun i _ => quotaRest_nonneg htotal capacity i
  -- an entry without a rest adds nothing, any other less than `total`
  have hupper : ∑ i ∈ range requests.length, quotaRest requests capacity i ≤
      requests.sum * ({i ∈ range requests.length | 0 < quotaRest requests capacity i}.card : Int) := by
    rw [card_filter, Nat.cast_sum, mul_sum]
    refine sum_le_sum fun i _ => ?_
    by_cases hi : 0 < quotaRest requests capacity i
    · rw [if_pos hi, Nat.cast_one, mul_one]
      exact (Int.emod_lt_of_pos _ htotal).le
    · rw [if_neg hi]
      simpa using hi
  rw [hrest] at hnonneg hupper
  exact ⟨nonneg_of_mul_nonneg_right hnonneg htotal, le_of_mul_le_mul_left hupper htotal⟩

/-! ## The method -/

/-- **Hamilton's method**: the result of apportioning `capacity` over `requests`. -/
structure Hamilton (requests : List Int) (capacity : Int) (result : List Int) : Prop where
  length : result.length = requests.length
  sum : result.sum = min capacity requests.sum
  bounded : ∀ i < requests.length, 0 ≤ result.getD i 0 ∧ result.getD i 0 ≤ requests.getD i 0
  quotaOrNext : capacity < requests.sum → ∀ i < requests.length,
    result.getD i 0 = quota requests capacity i ∨ result.getD i 0 = quota requests capacity i + 1
  extras : capacity < requests.sum →
    ({i ∈ range requests.length | result.getD i 0 = quota requests capacity i + 1}.card : Int) =
      capacity - ∑ i ∈ range requests.length, quota requests capacity i
  priority : capacity < requests.sum → ∀ i < requests.length, ∀ j < requests.length,
    result.getD j 0 = quota requests capacity j + 1 →
    (quotaRest requests capacity j < quotaRest requests capacity i ∨
      quotaRest requests capacity j = quotaRest requests capacity i ∧ i < j) →
    result.getD i 0 = quota requests capacity i + 1

theorem request_nonneg (hreq : ∀ r ∈ requests, 0 ≤ r ∧ r ≤ maxSupply) (hi : i < requests.length) :
    0 ≤ requests.getD i 0 := by
  rw [List.getD_eq_getElem?_getD, List.getElem?_eq_getElem hi]
  exact (hreq _ (List.getElem_mem hi)).1

theorem Hamilton.of_covered (hreq : ∀ r ∈ requests, 0 ≤ r ∧ r ≤ maxSupply)
    (hle : requests.sum ≤ capacity) : Hamilton requests capacity requests where
  length := rfl
  sum := (min_eq_right hle).symm
  bounded _ hi := ⟨request_nonneg hreq hi, le_rfl⟩
  quotaOrNext h := absurd h (not_lt.mpr hle)
  extras h := absurd h (not_lt.mpr hle)
  priority h := absurd h (not_lt.mpr hle)

/-- With a rest, the quota is below the request; without one it may equal it. -/
theorem quota_bounds (hcap : 0 ≤ capacity) (hlt : capacity < requests.sum)
    (hi : 0 ≤ requests.getD i 0) :
    0 ≤ quota requests capacity i ∧ quota requests capacity i ≤ requests.getD i 0 ∧
      (0 < quotaRest requests capacity i → quota requests capacity i + 1 ≤ requests.getD i 0) := by
  have htotal : 0 < requests.sum := lt_of_le_of_lt hcap hlt
  have hsplit : requests.sum * quota requests capacity i + quotaRest requests capacity i =
      requests.getD i 0 * capacity := Int.mul_ediv_add_emod _ _
  have hprod : requests.getD i 0 * capacity ≤ requests.getD i 0 * requests.sum :=
    mul_le_mul_of_nonneg_left hlt.le hi
  have hrest := quotaRest_nonneg htotal capacity i
  refine ⟨Int.ediv_nonneg (mul_nonneg hi hcap) htotal.le, ?_, fun hpos => ?_⟩
  · refine le_of_mul_le_mul_left ?_ htotal
    linarith
  · refine Int.add_one_le_of_lt (lt_of_mul_lt_mul_left ?_ htotal.le)
    linarith

theorem getD_rests (hi : i < requests.length) :
    (requests.map (· * capacity % requests.sum)).getD i 0 = quotaRest requests capacity i :=
  getD_map_of_lt hi

namespace HandedOut

variable {n : Nat} {result : List Int} {picked : Finset Nat}
  (h : HandedOut n (requests.map (· * capacity / requests.sum))
    (requests.map (· * capacity % requests.sum)) result picked)

include h

variable {i : Nat}

/-- An entry is its quota, or one more if it was picked. -/
theorem getD_eq (hi : i < requests.length) :
    result.getD i 0 = quota requests capacity i + if i ∈ picked then 1 else 0 := by
  rw [h.entry i (by simpa using hi), getD_map_of_lt hi, quota]

theorem extra_iff (hi : i < requests.length) :
    result.getD i 0 = quota requests capacity i + 1 ↔ i ∈ picked := by
  rw [h.getD_eq hi]
  by_cases hp : i ∈ picked <;> simp [hp]

/-- Only entries with a rest are picked. -/
theorem rest_pos (hi : i ∈ picked) : i < requests.length ∧ 0 < quotaRest requests capacity i := by
  have hpositive := mem_positives.mp (h.positive hi)
  rw [List.length_map] at hpositive
  exact ⟨hpositive.1, getD_rests hpositive.1 ▸ hpositive.2⟩

theorem extras_eq :
    {i ∈ range requests.length | result.getD i 0 = quota requests capacity i + 1} = picked := by
  ext i
  rw [mem_filter, mem_range]
  constructor
  · rintro ⟨hi, he⟩
    exact (h.extra_iff hi).mp he
  · intro hi
    exact ⟨(h.rest_pos hi).1, (h.extra_iff (h.rest_pos hi).1).mpr hi⟩

/-- The quotas and the picked entries add up to the capacity. -/
theorem sum_result
    (hn : (n : Int) = capacity - ∑ i ∈ range requests.length, quota requests capacity i) :
    result.sum = capacity := by
  have hlen : result.length = requests.length := by simpa using h.length
  have hsub : picked ⊆ range requests.length := fun i hi => mem_range.mpr (h.rest_pos hi).1
  calc result.sum
      = ∑ i ∈ range requests.length,
          (quota requests capacity i + if i ∈ picked then 1 else 0) := by
        rw [sum_eq_sum_range, hlen]
        exact sum_congr rfl fun i hi => h.getD_eq (mem_range.mp hi)
    _ = ∑ i ∈ range requests.length, quota requests capacity i + picked.card := by
        rw [sum_add_distrib, sum_ite_mem, inter_eq_right.mpr hsub, sum_const, nsmul_eq_mul, mul_one]
    _ = capacity := by
        rw [h.card]
        omega

end HandedOut

/-- The units handed out make the quotas a Hamilton apportionment. -/
theorem Hamilton.of_handedOut (hcap : 0 ≤ capacity) (hlt : capacity < requests.sum)
    (hreq : ∀ r ∈ requests, 0 ≤ r ∧ r ≤ maxSupply) {n : Nat} {result : List Int}
    {picked : Finset Nat}
    (hn : (n : Int) = capacity - ∑ i ∈ range requests.length, quota requests capacity i)
    (h : HandedOut n (requests.map (· * capacity / requests.sum))
      (requests.map (· * capacity % requests.sum)) result picked) :
    Hamilton requests capacity result where
  length := by simpa using h.length
  sum := by rw [h.sum_result hn, min_eq_left hlt.le]
  bounded i hi := by
    obtain ⟨h0, h1, h2⟩ := quota_bounds hcap hlt (request_nonneg hreq hi)
    rw [h.getD_eq hi]
    by_cases hp : i ∈ picked
    · rw [if_pos hp]
      exact ⟨by omega, h2 (h.rest_pos hp).2⟩
    · rw [if_neg hp, add_zero]
      exact ⟨h0, h1⟩
  quotaOrNext _ i hi := by
    rw [h.getD_eq hi]
    by_cases hp : i ∈ picked <;> simp [hp]
  extras _ := by rw [h.extras_eq, h.card, hn]
  priority _ i hi j hj he hrank := by
    rw [h.extra_iff hi]
    apply h.upward j ((h.extra_iff hj).mp he) i (by simpa using hi)
    simpa only [Outranks, getD_rests hi, getD_rests hj] using hrank

theorem sum_requests_le (hlen : requests.length ≤ 32)
    (hreq : ∀ r ∈ requests, 0 ≤ r ∧ r ≤ maxSupply) : requests.sum ≤ 32 * maxSupply := by
  calc requests.sum ≤ requests.length • maxSupply :=
        List.sum_le_card_nsmul requests maxSupply fun r hr => (hreq r hr).2
    _ = requests.length * maxSupply := nsmul_eq_mul _ _
    _ ≤ 32 * maxSupply := mul_le_mul_of_nonneg_right (by omega) (by decide)

theorem sum_map_quota (requests : List Int) (capacity : Int) :
    (requests.map (· * capacity / requests.sum)).sum =
      ∑ i ∈ range requests.length, quota requests capacity i := by
  rw [sum_eq_sum_range, List.length_map]
  exact sum_congr rfl fun i hi => getD_map_of_lt (mem_range.mp hi)

theorem positives_rests (requests : List Int) (capacity : Int) :
    positives (requests.map (· * capacity % requests.sum)) =
      {i ∈ range requests.length | 0 < quotaRest requests capacity i} := by
  ext i
  rw [mem_positives, mem_filter, mem_range, List.length_map]
  exact and_congr_right fun hi => by rw [getD_rests hi]

/-- What `apportion` returns for requests in range: the requests themselves if they fit, and
otherwise their quotas with the units that are left handed out. It never overflows. -/
theorem apportion_cases (hcap : 0 ≤ capacity) (hlen : requests.length ≤ 32)
    (hreq : ∀ r ∈ requests, 0 ≤ r ∧ r ≤ maxSupply) :
    ∃ result, apportion requests capacity = .ok result ∧
      (requests.sum ≤ capacity ∧ result = requests ∨
        capacity < requests.sum ∧ ∃ (n : Nat) (picked : Finset Nat),
          (n : Int) = capacity - ∑ i ∈ range requests.length, quota requests capacity i ∧
          HandedOut n (requests.map (· * capacity / requests.sum))
            (requests.map (· * capacity % requests.sum)) result picked) := by
  have hsum := sum_requests_le hlen hreq
  have hfold : requests.foldlM addRequest 0 = .ok requests.sum := by
    rw [foldlM_addRequest_eq le_rfl hreq, zero_add]
    unfold maxSupply i128Max
    omega
  have hguard : ¬ (capacity < 0 ∨ maxAuctionWallets < requests.length) := by
    unfold maxAuctionWallets
    omega
  rw [apportion, reject_of_not hguard, ok_bind, hfold, ok_bind]
  by_cases hle : requests.sum ≤ capacity
  · exact ⟨requests, by rw [if_pos hle, pure_eq_ok], .inl ⟨hle, rfl⟩⟩
  rw [if_neg hle]
  have hlt : capacity < requests.sum := not_le.mp hle
  have htotal : 0 < requests.sum := lt_of_le_of_lt hcap hlt
  -- the capacity is below the demand here, so no product leaves `i128`
  have hprod : ∀ r ∈ requests, 0 ≤ r ∧ InI128 (r * capacity) := by
    intro r hr
    obtain ⟨h0, h1⟩ := hreq r hr
    refine ⟨h0, .of_nonneg_le (mul_nonneg h0 hcap)
      (mul_le_mul h1 (hlt.le.trans hsum) hcap (by decide)) (by decide)⟩
  obtain ⟨hleft, hcard⟩ := left_le_card htotal capacity
  have hcapIn : InI128 capacity := .of_nonneg_le hcap (hlt.le.trans hsum) (by decide)
  have hfew : {i ∈ range requests.length | 0 < quotaRest requests capacity i}.card ≤ 32 :=
    (card_filter_le _ _).trans (by simpa using hlen)
  rw [foldlM_addQuota_eq hcap htotal hcapIn le_rfl hprod (by rw [sum_map_quota]; simp only; omega),
    ok_bind, sum_map_quota]
  simp only [zero_add, List.nil_append]
  generalize hl : capacity - ∑ i ∈ range requests.length, quota requests capacity i = left at *
  obtain ⟨n, rfl⟩ := Int.eq_ofNat_of_zero_le hleft
  have hcast : ((n : Int).emod (2 ^ 32)).toNat = n := by
    show ((n : Int) % 2 ^ 32).toNat = n
    omega
  have hin : InI128 (n : Int) := .of_nonneg_le hleft (by omega) (by decide : InI128 32)
  rw [i128_of hin, orTrap_some, ok_bind, pure_eq_ok, hcast]
  obtain ⟨picked, hpicked⟩ := handOut_spec n (requests.map (· * capacity / requests.sum))
    (requests.map (· * capacity % requests.sum)) (by simp) (by rw [positives_rests]; omega)
  exact ⟨_, rfl, .inr ⟨hlt, n, picked, rfl, hpicked⟩⟩

/-- **`apportion` is Hamilton's method**, for every capacity and every list of at most 32 requests
within the supply limit. -/
theorem apportion_hamilton (requests : List Int) (capacity : Int) (hcap : 0 ≤ capacity)
    (hlen : requests.length ≤ 32) (hreq : ∀ r ∈ requests, 0 ≤ r ∧ r ≤ maxSupply) :
    ∃ result, apportion requests capacity = .ok result ∧ Hamilton requests capacity result := by
  obtain ⟨result, hok, ⟨hle, rfl⟩ | ⟨hlt, n, picked, hn, hpicked⟩⟩ := apportion_cases hcap hlen hreq
  · exact ⟨_, hok, .of_covered hreq hle⟩
  · exact ⟨result, hok, .of_handedOut hcap hlt hreq hn hpicked⟩

/-- Three equal remainders and two units left: the first two entries get them. -/
theorem apportion_hamilton_ties : apportion [4, 4, 4] 11 = .ok [4, 4, 3] ∧
    ∃ result, apportion [4, 4, 4] 11 = .ok result ∧ Hamilton [4, 4, 4] 11 result :=
  ⟨by decide, apportion_hamilton [4, 4, 4] 11 (by decide) (by decide) (by decide)⟩

end VerdantBond
