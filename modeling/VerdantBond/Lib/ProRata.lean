import Mathlib.Tactic

set_option autoImplicit false

/-! # Shares of a pool, rounded down

The integer part of `pool * weight / total`. Rounding every share down never spends more than the
pool: the shares of any accounts whose weights stay within the total stay within the pool.
-/

namespace VerdantBond

/-- The part of `pool` that falls to `weight` out of `total`. -/
def proRata (pool weight total : Int) : Int := pool * weight / total

@[simp] theorem proRata_zero_weight (pool total : Int) : proRata pool 0 total = 0 := by
  unfold proRata
  rw [mul_zero, Int.zero_ediv]

variable {pool total : Int}

theorem proRata_nonneg {weight : Int} (hpool : 0 ≤ pool) (hweight : 0 ≤ weight) (htotal : 0 ≤ total) :
    0 ≤ proRata pool weight total :=
  Int.ediv_nonneg (mul_nonneg hpool hweight) htotal

variable {κ : Type}

/-- Scaled back by the total, the shares come to at most the pool's part for all weights. -/
theorem sum_proRata_mul_le (l : List κ) (weight : κ → Int) (pool : Int) (htotal : 0 < total) :
    (l.map fun a => proRata pool (weight a) total).sum * total ≤ pool * (l.map weight).sum := by
  induction l with
  | nil => simp
  | cons a l ih =>
      have hhead : proRata pool (weight a) total * total ≤ pool * weight a :=
        Int.ediv_mul_le _ (ne_of_gt htotal)
      rw [List.map_cons, List.map_cons, List.sum_cons, List.sum_cons, add_mul, mul_add]
      exact add_le_add hhead ih

/-- **Rounded shares stay within the pool.** -/
theorem sum_proRata_le (l : List κ) {weight : κ → Int} (hpool : 0 ≤ pool) (htotal : 0 ≤ total)
    (hsum : (l.map weight).sum ≤ total) :
    (l.map fun a => proRata pool (weight a) total).sum ≤ pool := by
  rcases htotal.eq_or_lt with hzero | hpos
  · -- nothing is paid out of nothing
    have hnone : (l.map fun a => proRata pool (weight a) total) = l.map fun _ => (0 : Int) := by
      refine List.map_congr_left fun a _ => ?_
      unfold proRata
      rw [← hzero, Int.ediv_zero]
    rw [hnone, List.map_const', List.sum_replicate, smul_zero]
    exact hpool
  · refine le_of_mul_le_mul_right ?_ hpos
    calc (l.map fun a => proRata pool (weight a) total).sum * total
        ≤ pool * (l.map weight).sum := sum_proRata_mul_le l weight pool hpos
      _ ≤ pool * total := mul_le_mul_of_nonneg_left hsum hpool

end VerdantBond
