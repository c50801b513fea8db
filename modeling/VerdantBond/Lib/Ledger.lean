import Mathlib.Algebra.BigOperators.Finprod
import Mathlib.Tactic

set_option autoImplicit false

/-! # Ledgers: integer balances over an unbounded set of accounts

A ledger is a function from accounts to integers that is zero outside a finite set. Its total
is the finite sum `∑ᶠ a, f a`. The lemmas below say how the total moves when one account is
rewritten and how it bounds single accounts and duplicate-free lists of accounts.
-/

namespace VerdantBond

open Function

variable {κ : Type}

/-- Adding to one account. -/
theorem update_add_apply [DecidableEq κ] (f : κ → Int) (k : κ) (v : Int) (a : κ) :
    update f k (f k + v) a = f a + if k = a then v else 0 := by
  by_cases ha : a = k
  · subst ha
    rw [update_self, if_pos rfl]
  · rw [update_of_ne ha, if_neg (fun h => ha h.symm), add_zero]

/-- Taking from one account. -/
theorem update_sub_apply [DecidableEq κ] (f : κ → Int) (k : κ) (v : Int) (a : κ) :
    update f k (f k - v) a = f a - if k = a then v else 0 := by
  rw [sub_eq_add_neg, update_add_apply]
  split <;> ring

variable {f : κ → Int}

/-- Rewriting one account keeps the support finite. -/
theorem hasFiniteSupport_update [DecidableEq κ] (hf : f.HasFiniteSupport) (k : κ) (v : Int) :
    (update f k v).HasFiniteSupport := by
  have hsub : support (update f k v) ⊆ insert k (support f) := by
    intro a ha
    by_cases hak : a = k
    · exact .inl hak
    · rw [mem_support, update_of_ne hak] at ha
      exact .inr ha
  exact (hf.insert k).subset hsub

/-- Rewriting one account moves the total by the difference. -/
theorem finsum_update [DecidableEq κ] (hf : f.HasFiniteSupport) (k : κ) (v : Int) :
    ∑ᶠ a, update f k v a = ∑ᶠ a, f a + (v - f k) := by
  set S : Finset κ := insert k hf.toFinset with hS
  have hf' : support f ⊆ (S : Set κ) := by
    intro a ha
    rw [hS, Finset.coe_insert]
    exact .inr (Finset.mem_coe.mpr ((Set.Finite.mem_toFinset hf).mpr ha))
  have hu' : support (update f k v) ⊆ (S : Set κ) := by
    intro a ha
    by_cases hak : a = k
    · simp [hS, hak]
    · rw [mem_support, update_of_ne hak] at ha
      exact hf' ha
  have hk : k ∈ S := by simp [hS]
  rw [finsum_eq_sum_of_support_subset _ hf', finsum_eq_sum_of_support_subset _ hu',
    Finset.sum_update_of_mem hk, ← Finset.add_sum_erase S f hk, Finset.sdiff_singleton_eq_erase]
  ring

/-- A duplicate-free list of accounts of a non-negative ledger holds at most the total. -/
theorem sum_le_finsum (hf : f.HasFiniteSupport) (h0 : ∀ a, 0 ≤ f a) (l : List κ) (hl : l.Nodup) :
    (l.map f).sum ≤ ∑ᶠ a, f a := by
  classical
  set S : Finset κ := hf.toFinset ∪ l.toFinset with hS
  have hf' : support f ⊆ (S : Set κ) := by
    intro a ha
    rw [hS, Finset.coe_union]
    exact .inl (Finset.mem_coe.mpr ((Set.Finite.mem_toFinset hf).mpr ha))
  rw [finsum_eq_sum_of_support_subset _ hf', ← List.sum_toFinset f hl]
  exact Finset.sum_le_sum_of_subset_of_nonneg Finset.subset_union_right (fun a _ _ => h0 a)

/-- One account of a non-negative ledger holds at most the total. -/
theorem le_finsum (hf : f.HasFiniteSupport) (h0 : ∀ a, 0 ≤ f a) (a : κ) : f a ≤ ∑ᶠ a, f a := by
  simpa using sum_le_finsum hf h0 [a] (List.nodup_singleton a)

theorem hasFiniteSupport_zero : (fun _ : κ => (0 : Int)).HasFiniteSupport := by
  have h : support (fun _ : κ => (0 : Int)) = ∅ := by
    ext a
    simp
  show (support (fun _ : κ => (0 : Int))).Finite
  rw [h]
  exact Set.finite_empty

end VerdantBond
