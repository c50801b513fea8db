import Mathlib.Algebra.BigOperators.Intervals
import Mathlib.Algebra.Order.BigOperators.Group.Finset
import Mathlib.Tactic

set_option autoImplicit false

/-! # Sums over the window of a queue

A queue that numbers its entries consecutively and moves two cursors over them has, at any time,
the window of ids from `head` to `tail`. The lemmas say how a sum over the window moves when an
entry is appended and when one changes. As a list of ids, a window falls into two at any place
(`range'_split`).
-/

namespace VerdantBond

open Finset

/-- The sum of `f` over the ids from `head` to `tail`. -/
def windowSum (f : Nat → Int) (head tail : Nat) : Int := ∑ i ∈ Finset.Icc head tail, f i

variable {f g : Nat → Int} {head tail : Nat}

/-- A window below its head is empty. -/
theorem windowSum_empty (h : tail < head) : windowSum f head tail = 0 := by
  rw [windowSum, Finset.Icc_eq_empty (by omega), sum_empty]

theorem windowSum_congr (h : ∀ i, head ≤ i → i ≤ tail → g i = f i) :
    windowSum g head tail = windowSum f head tail :=
  sum_congr rfl (fun i hi => h i (mem_Icc.mp hi).1 (mem_Icc.mp hi).2)

/-- Append an entry. -/
theorem windowSum_push (h : head ≤ tail + 1) (hf : ∀ i ≤ tail, g i = f i) :
    windowSum g head (tail + 1) = windowSum f head tail + g (tail + 1) := by
  rw [windowSum, sum_Icc_succ_top h]
  congr 1
  exact windowSum_congr (fun i _ hi => hf i hi)

/-- Change one entry. -/
theorem windowSum_change {i : Nat} (hlo : head ≤ i) (hhi : i ≤ tail)
    (hf : ∀ j, j ≠ i → g j = f j) :
    windowSum g head tail = windowSum f head tail + (g i - f i) := by
  have hmem : i ∈ Finset.Icc head tail := mem_Icc.mpr ⟨hlo, hhi⟩
  have hrest : ∑ j ∈ (Finset.Icc head tail).erase i, g j
      = ∑ j ∈ (Finset.Icc head tail).erase i, f j :=
    sum_congr rfl (fun j hj => hf j (ne_of_mem_erase hj))
  unfold windowSum
  rw [← add_sum_erase _ g hmem, ← add_sum_erase _ f hmem, hrest]
  ring

/-- One entry of a non-negative window is at most the sum. -/
theorem le_windowSum {i : Nat} (h : ∀ i, head ≤ i → i ≤ tail → 0 ≤ f i) (hlo : head ≤ i)
    (hhi : i ≤ tail) : f i ≤ windowSum f head tail :=
  single_le_sum
    (fun j hj => h j (mem_Icc.mp hj).1 (mem_Icc.mp hj).2)
    (mem_Icc.mpr ⟨hlo, hhi⟩)

/-- The ids from `a` up to `c`, cut at `b`. -/
theorem range'_split {a b c : Nat} (hab : a ≤ b) (hbc : b ≤ c) :
    List.range' a (c - a) = List.range' a (b - a) ++ List.range' b (c - b) := by
  obtain ⟨m, rfl⟩ := Nat.exists_eq_add_of_le hab
  obtain ⟨n, rfl⟩ := Nat.exists_eq_add_of_le hbc
  rw [Nat.add_sub_cancel_left, Nat.add_sub_cancel_left, Nat.add_assoc, Nat.add_sub_cancel_left]
  exact List.range'_append_1.symm

end VerdantBond
