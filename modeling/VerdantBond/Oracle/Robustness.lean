import VerdantBond.Oracle.Aggregation
import VerdantBond.Lib.Search
import Mathlib.Data.List.GetD
import Mathlib.Data.List.Sort
import Mathlib.Algebra.Order.BigOperators.Group.List

set_option autoImplicit false

/-! # OracleConsumer: aggregation is robust to one report

The aggregate of three or more values is the mean of the sorted values without the first and the
last, rounded down; three values make that their median. The selection sort of
`aggregate_project_reports` computes the sorted list (`sortValues_eq`), so the aggregate does not
depend on the order of submission, and it grows with every entry because the sorted list does
(`insertionSort_mono`). A single report cannot push it out of the range of the others: two values
below all of them, the smallest and one that is averaged, would need two reports
(`Trimmed.between`).
-/

namespace VerdantBond

open List

namespace OracleConsumer

/-! ## The selection sort -/

variable {arr l fixed values : List Int} {i : Nat}

/-- The inner loop: no value from `i` on is smaller than the one found. -/
theorem minIndex_spec (hi : i < arr.length) :
    i ≤ minIndex arr i ∧ minIndex arr i < arr.length ∧
      ∀ j, i ≤ j → j < arr.length → arr.getD (minIndex arr i) 0 ≤ arr.getD j 0 := by
  obtain ⟨h1, h2, h3, h4⟩ := foldl_best (fun j m => arr.getD j 0 < arr.getD m 0)
    (fun _ _ _ => lt_trans) (fun a b c h => by omega) i (arr.length - (i + 1))
  refine ⟨h1, lt_of_le_of_lt h2 (by omega), fun j hij hj => ?_⟩
  rcases lt_trichotomy j (minIndex arr i) with hlt | heq | hgt
  · exact (h3 j hij hlt).le
  · rw [heq]
  · exact not_lt.mp (h4 j hgt (by omega))

/-- One round swaps the smallest value from `i` on with the one at `i`. -/
theorem getD_swapMin (hi : i < arr.length) (j : Nat) :
    (swapMin arr i).getD j 0 =
      if j = i then arr.getD (minIndex arr i) 0
      else if j = minIndex arr i then arr.getD i 0 else arr.getD j 0 := by
  obtain ⟨-, hm, -⟩ := minIndex_spec hi
  unfold swapMin
  generalize minIndex arr i = m at hm
  by_cases hne : m ≠ i
  · simp only [if_pos hne, getD_eq_getElem?_getD, getElem?_set, length_set]
    grind
  · simp only [if_neg hne]
    grind

theorem swapMin_perm (hi : i < arr.length) : (swapMin arr i).Perm arr := by
  obtain ⟨-, hm, -⟩ := minIndex_spec hi
  unfold swapMin
  by_cases hne : minIndex arr i ≠ i
  · simp only [if_pos hne]
    rw [getD_eq_getElem _ _ hm, getD_eq_getElem _ _ hi]
    exact set_set_perm hi hm
  · simp only [if_neg hne]
    exact List.Perm.refl _

/-- The outer loop: after `n` rounds each of the first `n` entries is at most every later one. -/
theorem foldl_swapMin_spec (values : List Int) : ∀ n ≤ values.length,
    ((range n).foldl swapMin values).Perm values ∧
      ∀ i < n, ∀ j, i < j → j < values.length →
        ((range n).foldl swapMin values).getD i 0 ≤
          ((range n).foldl swapMin values).getD j 0 := by
  intro n
  induction n with
  | zero => simp
  | succ n ih =>
      intro hn
      obtain ⟨hperm, hsorted⟩ := ih (by omega)
      rw [range_succ, foldl_append, foldl_cons, foldl_nil]
      generalize (range n).foldl swapMin values = arr at hperm hsorted
      have hlen : arr.length = values.length := hperm.length_eq
      have hn' : n < arr.length := by omega
      refine ⟨(swapMin_perm hn').trans hperm, fun i hi j hij hj => ?_⟩
      obtain ⟨hle, hlt, hmin⟩ := minIndex_spec hn'
      rw [getD_swapMin hn', getD_swapMin hn']
      -- entries before `n` stay, and the entries from `n` on only change places
      by_cases hin : i = n
      · subst hin
        have h1 := hmin i le_rfl hn'
        have h2 := hmin j hij.le (by omega)
        grind
      · have h1 := hsorted i (by omega) n (by omega) (by omega)
        have h2 := hsorted i (by omega) (minIndex arr n) (by omega) (by omega)
        have h3 := hsorted i (by omega) j hij hj
        grind

/-- The selection sort sorts. -/
theorem sortValues_eq (values : List Int) : sortValues values = values.insertionSort (· ≤ ·) := by
  obtain ⟨hperm, hsorted⟩ := foldl_swapMin_spec values values.length le_rfl
  refine List.Perm.eq_of_pairwise' ?_ (pairwise_insertionSort _ values)
    (hperm.trans (perm_insertionSort _ values).symm)
  rw [pairwise_iff_getElem]
  intro i j hi hj hij
  have := hsorted i (hperm.length_eq ▸ hi) j hij (hperm.length_eq ▸ hj)
  unfold sortValues at hi hj ⊢
  rwa [getD_eq_getElem _ _ hi, getD_eq_getElem _ _ hj] at this

/-! ## The trimmed mean -/

/-- The sorted values without the first and the last. -/
def middle (arr : List Int) : List Int := (arr.drop 1).take (arr.length - 2)

theorem eq_middle (h : 2 ≤ arr.length) : ∃ first last, arr = first :: (middle arr ++ [last]) := by
  cases arr with
  | nil => simp at h
  | cons first rest =>
      have hne : rest ≠ [] := by
        rintro rfl
        simp at h
      refine ⟨first, rest.getLast hne, ?_⟩
      rw [middle, drop_one, tail_cons, length_cons,
        show rest.length + 1 - 2 = rest.length - 1 by omega, ← dropLast_eq_take,
        dropLast_append_getLast hne]

theorem foldlM_sum : ∀ {start : Int}, 0 ≤ start → (∀ v ∈ l, 0 ≤ v) →
    start + l.sum ≤ i128Max →
    l.foldlM (fun sum value => (orTrap (i128 (sum + value)) : Outcome OracleError Int)) start =
      .ok (start + l.sum) := by
  induction l with
  | nil => simp
  | cons v l ih =>
      intro start hstart hl hmax
      have hv := hl v mem_cons_self
      have hl' : ∀ x ∈ l, 0 ≤ x := fun x hx => hl x (mem_cons_of_mem v hx)
      have hrest := sum_nonneg hl'
      rw [sum_cons] at hmax ⊢
      have hin : InI128 (start + v) := ⟨by unfold i128Min; omega, by omega⟩
      rw [foldlM_cons, i128_of hin, orTrap_some, ok_bind, ih (by omega) hl' (by omega),
        add_assoc]

/-- Median and trimmed mean are one formula, and no sum overflows. -/
theorem aggregateScore_eq (hlen : 3 ≤ arr.length) (hnonneg : ∀ v ∈ arr, 0 ≤ v)
    (hsum : arr.sum ≤ i128Max) :
    aggregateScore arr = .ok ((middle arr).sum / (arr.length - 2 : Nat)) := by
  obtain ⟨first, last, heq⟩ := eq_middle (show 2 ≤ arr.length by omega)
  have hmid : ∀ v ∈ middle arr, 0 ≤ v := by
    intro v hv
    refine hnonneg v ?_
    rw [heq]
    simp [hv]
  have hle : (middle arr).sum ≤ arr.sum := by
    have hfirst : 0 ≤ first := hnonneg first (by rw [heq]; simp)
    have hlast : 0 ≤ last := hnonneg last (by rw [heq]; simp)
    have htotal : arr.sum = first + ((middle arr).sum + last) := by
      rw [congrArg sum heq]
      simp
    omega
  rw [aggregateScore, if_neg (by omega)]
  by_cases h3 : arr.length = 3
  · obtain ⟨a, b, c, rfl⟩ := length_eq_three.mp h3
    simp [middle]
  · rw [if_neg h3, if_pos (by omega), ← middle, foldlM_sum le_rfl hmid (by omega), ok_bind,
      pure_eq_ok, zero_add, Int.tdiv_eq_ediv_of_nonneg (sum_nonneg hmid)]

/-- If two of the values satisfy `p`, one of the fixed values does. -/
theorem exists_fixed {x : Int} {p : Int → Prop} [DecidablePred p] (hperm : arr.Perm (x :: fixed))
    (h : 2 ≤ arr.countP (fun v => p v)) : ∃ v ∈ fixed, p v := by
  rw [hperm.countP_eq, countP_cons] at h
  have hpos : 0 < fixed.countP (fun v => p v) := by
    split at h <;> omega
  obtain ⟨v, hv, hp⟩ := countP_pos_iff.mp hpos
  exact ⟨v, hv, of_decide_eq_true hp⟩

/-- A value that is averaged lies between two of the fixed values. -/
theorem middle_between {x : Int} (hlen : 2 ≤ arr.length) (hsorted : arr.Pairwise (· ≤ ·))
    (hperm : arr.Perm (x :: fixed)) {y : Int} (hy : y ∈ middle arr) :
    (∃ lo ∈ fixed, lo ≤ y) ∧ ∃ hi ∈ fixed, y ≤ hi := by
  obtain ⟨first, last, heq⟩ := eq_middle hlen
  generalize middle arr = mid at heq hy
  subst heq
  rw [pairwise_cons, pairwise_append] at hsorted
  have hfirst : first ≤ y := hsorted.1 y (by simp [hy])
  have hlast : y ≤ last := hsorted.2.2.2 y hy last (by simp)
  constructor
  · refine exists_fixed hperm ?_
    have : 0 < mid.countP (fun v => decide (v ≤ y)) :=
      countP_pos_iff.mpr ⟨y, hy, decide_eq_true (le_refl y)⟩
    rw [countP_cons, countP_append, if_pos (decide_eq_true hfirst)]
    omega
  · refine exists_fixed hperm ?_
    have : 0 < mid.countP (fun v => decide (y ≤ v)) :=
      countP_pos_iff.mpr ⟨y, hy, decide_eq_true (le_refl y)⟩
    have hone : [last].countP (fun v => decide (y ≤ v)) = 1 := by simp [hlast]
    rw [countP_cons, countP_append, hone]
    omega

/-- The mean of values in a range is in the range. -/
theorem mean_between (hl : l ≠ []) {lo hi : Int} (h : ∀ v ∈ l, lo ≤ v ∧ v ≤ hi) :
    lo ≤ l.sum / l.length ∧ l.sum / l.length ≤ hi := by
  have hpos : 0 < (l.length : Int) := by exact_mod_cast length_pos_iff.mpr hl
  have hlo := card_nsmul_le_sum l lo fun v hv => (h v hv).1
  have hhi := sum_le_card_nsmul l hi fun v hv => (h v hv).2
  rw [nsmul_eq_mul] at hlo hhi
  refine ⟨(Int.le_ediv_iff_mul_le hpos).mpr (by linarith), ?_⟩
  calc l.sum / l.length ≤ l.length * hi / l.length := Int.ediv_le_ediv hpos hhi
    _ = hi := Int.mul_ediv_cancel_left _ hpos.ne'

/-! ## The sorted list grows with its entries -/

theorem orderedInsert_mono {s s' : List Int} (hs : List.Forall₂ (· ≤ ·) s s') :
    ∀ {a a' : Int}, s.Pairwise (· ≤ ·) → s'.Pairwise (· ≤ ·) → a ≤ a' →
      List.Forall₂ (· ≤ ·) (s.orderedInsert (· ≤ ·) a) (s'.orderedInsert (· ≤ ·) a') := by
  induction hs with
  | nil => simp
  | @cons b b' t t' hb ht ih =>
      intro a a' hs hs' ha
      rw [pairwise_cons] at hs hs'
      -- an entry at most everything after it stays in front, which is what inserting it does
      have hfront : t.orderedInsert (· ≤ ·) b = b :: t := by
        cases t with
        | nil => simp
        | cons c t => exact orderedInsert_cons_of_le _ _ (hs.1 c mem_cons_self)
      have hfront' : t'.orderedInsert (· ≤ ·) b' = b' :: t' := by
        cases t' with
        | nil => simp
        | cons c t' => exact orderedInsert_cons_of_le _ _ (hs'.1 c mem_cons_self)
      rw [orderedInsert_cons, orderedInsert_cons]
      by_cases h : a ≤ b <;> by_cases h' : a' ≤ b'
      · rw [if_pos h, if_pos h']
        exact .cons ha (.cons hb ht)
      · rw [if_pos h, if_neg h', ← hfront]
        exact .cons (h.trans hb) (ih hs.2 hs'.2 (by omega))
      · rw [if_neg h, if_pos h', ← hfront']
        exact .cons (by omega) (ih hs.2 hs'.2 (ha.trans h'))
      · rw [if_neg h, if_neg h']
        exact .cons hb (ih hs.2 hs'.2 ha)

theorem insertionSort_mono {l' : List Int} (h : List.Forall₂ (· ≤ ·) l l') :
    List.Forall₂ (· ≤ ·) (l.insertionSort (· ≤ ·)) (l'.insertionSort (· ≤ ·)) := by
  induction h with
  | nil => simp
  | cons ha _ ih =>
      rw [insertionSort_cons, insertionSort_cons]
      exact orderedInsert_mono ih (pairwise_insertionSort _ _)
        (pairwise_insertionSort _ _) ha

/-! ## The aggregate -/

/-- The aggregate of the report values, in the order of submission. -/
def aggregate (values : List Int) : Outcome OracleError Int := aggregateScore (sortValues values)

/-- At least three values, none negative, whose sum is an `i128`. -/
structure Aggregable (values : List Int) : Prop where
  three : 3 ≤ values.length
  nonneg : ∀ v ∈ values, 0 ≤ v
  sum : values.sum ≤ i128Max

theorem aggregate_eq (h : Aggregable values) :
    aggregate values =
      .ok ((middle (values.insertionSort (· ≤ ·))).sum / (values.length - 2 : Nat)) := by
  have hperm := perm_insertionSort (· ≤ ·) values
  rw [aggregate, sortValues_eq, aggregateScore_eq (by rw [hperm.length_eq]; exact h.three)
    (fun v hv => h.nonneg v (hperm.mem_iff.mp hv)) (by rw [hperm.sum_eq]; exact h.sum),
    hperm.length_eq]

theorem aggregate_perm {values' : List Int} (h : values.Perm values') :
    aggregate values' = aggregate values := by
  unfold aggregate
  rw [sortValues_eq, sortValues_eq]
  congr 1
  exact List.Perm.eq_of_pairwise' (pairwise_insertionSort _ _)
    (pairwise_insertionSort _ _)
    ((perm_insertionSort _ _).trans (h.symm.trans (perm_insertionSort _ _).symm))

/-- **Aggregation is robust to one outlier and to the order of submission.** For all values that can
be aggregated: the aggregate exists and is what `aggregate_project_reports` returns for them; it
lies between the others whichever entry is taken out; it is the same for every permutation; and it
grows with every entry. -/
theorem aggregate_robust (values : List Int) (h : Aggregable values) :
    ∃ score, aggregate values = .ok score ∧
      (∀ (env : Env) (clock : Clock) (s s' : OracleConsumer) (caller : Address)
        (projectId : Bytes32) (periodStart periodEnd nonce : Nat) (score' : Int),
        (s.matchingReports projectId periodStart periodEnd).map (fun item => item.2.2) = values →
        s.aggregateProjectReports env clock caller projectId periodStart periodEnd nonce
          = .ok (s', score') → score' = score) ∧
      (∀ before x after, values = before ++ x :: after → ∀ lo hi,
        (∀ v ∈ before ++ after, lo ≤ v ∧ v ≤ hi) → lo ≤ score ∧ score ≤ hi) ∧
      (∀ values', values.Perm values' → aggregate values' = .ok score) ∧
      ∀ before x after y, values = before ++ x :: after → x ≤ y →
        Aggregable (before ++ y :: after) →
        ∃ score', aggregate (before ++ y :: after) = .ok score' ∧ score ≤ score' := by
  have hscore := aggregate_eq h
  have hperm := perm_insertionSort (· ≤ ·) values
  have hlen : (middle (values.insertionSort (· ≤ ·))).length = values.length - 2 := by
    rw [middle, length_take, length_drop, hperm.length_eq]
    omega
  have hthree := h.three
  refine ⟨_, hscore, ?_, ?_, ?_, ?_⟩
  · intro env clock s s' caller projectId periodStart periodEnd nonce score' hvalues hcall
    simp only [aggregateProjectReports, bind_ok_iff, pure_ok_iff, Prod.mk.injEq] at hcall
    obtain ⟨_, -, _, -, _, -, score, hagg, _, -, -, rfl⟩ := hcall
    rw [hvalues] at hagg
    exact Except.ok.inj (hagg.symm.trans hscore)
  · rintro before x after rfl lo hi hfixed
    rw [← hlen]
    refine mean_between (ne_nil_of_length_pos (by omega)) fun y hy => ?_
    obtain ⟨⟨v, hv, hvy⟩, w, hw, hyw⟩ := middle_between (by rw [hperm.length_eq]; omega)
      (pairwise_insertionSort _ _) (hperm.trans perm_middle) hy
    exact ⟨(hfixed v hv).1.trans hvy, hyw.trans (hfixed w hw).2⟩
  · intro values' hvalues
    rw [aggregate_perm hvalues, hscore]
  · rintro before x after y rfl hxy h'
    refine ⟨_, aggregate_eq h', ?_⟩
    have hgrow : List.Forall₂ (· ≤ ·) (before ++ x :: after) (before ++ y :: after) :=
      rel_append (forall₂_refl _) (.cons hxy (forall₂_refl _))
    have hsame : (before ++ y :: after).length = (before ++ x :: after).length := by simp
    have hmiddle : (middle ((before ++ x :: after).insertionSort (· ≤ ·))).sum ≤
        (middle ((before ++ y :: after).insertionSort (· ≤ ·))).sum := by
      refine List.Forall₂.sum_le_sum ?_
      unfold middle
      rw [length_insertionSort, length_insertionSort, hsame]
      exact forall₂_take _ (forall₂_drop _ (insertionSort_mono hgrow))
    rw [hsame]
    exact Int.ediv_le_ediv (by omega) hmiddle

/-- Four reports, one of them far above the others. -/
theorem aggregate_robust_outlier : ∃ score, aggregate [5, 7, 1000000, 6] = .ok score ∧
    5 ≤ score ∧ score ≤ 7 := by
  obtain ⟨score, hscore, -, hbetween, -⟩ :=
    aggregate_robust [5, 7, 1000000, 6] ⟨by decide, by decide, by decide⟩
  exact ⟨score, hscore, hbetween [5, 7] 1000000 [6] rfl 5 7 (by decide)⟩

end OracleConsumer

end VerdantBond
