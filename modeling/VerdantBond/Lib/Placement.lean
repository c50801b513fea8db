import Mathlib.Tactic
import Mathlib.Algebra.BigOperators.Finprod

set_option autoImplicit false

/-! # Amounts that are placed once

A list of amounts, each with the place it went to, or with none as long as it waits. `placeAll` sends
all that wait to one place and leaves the others where they are. The amounts add up to what was placed
anywhere and what waits, and `placeAll` moves what waits to the one place.
-/

namespace VerdantBond

namespace Placement

variable {M κ : Type}

variable (k : κ) (xs : List (M × Option κ))

/-- All that wait go to `k`. -/
def placeAll : List (M × Option κ) :=
  xs.map fun x => (x.1, some (x.2.getD k))

theorem fst_placeAll : (placeAll k xs).map Prod.fst = xs.map Prod.fst := by
  simp [placeAll]

variable [AddCommMonoid M]

/-- What waits. -/
def waiting : M :=
  (xs.map fun x => if x.2 = none then x.1 else 0).sum

@[simp] theorem waiting_nil : waiting ([] : List (M × Option κ)) = 0 := rfl

theorem waiting_cons (x : M × Option κ) (xs : List (M × Option κ)) :
    waiting (x :: xs) = (if x.2 = none then x.1 else 0) + waiting xs :=
  List.sum_cons

variable [DecidableEq κ]

/-- What was placed at `k`. -/
def placed (k : κ) : M :=
  (xs.map fun x => if x.2 = some k then x.1 else 0).sum

@[simp] theorem placed_nil : placed ([] : List (M × Option κ)) k = 0 := rfl

theorem placed_cons (x : M × Option κ) (xs : List (M × Option κ)) (k : κ) :
    placed (x :: xs) k = (if x.2 = some k then x.1 else 0) + placed xs k :=
  List.sum_cons

/-- A new amount waits. -/
theorem placed_snoc (a : M) (k : κ) : placed (xs ++ [(a, none)]) k = placed xs k := by
  simp [placed]

theorem placed_placeAll : placed (placeAll k xs) k = placed xs k + waiting xs := by
  induction xs with
  | nil => simp [placeAll]
  | cons x xs ih =>
      show placed ((x.1, some (x.2.getD k)) :: placeAll k xs) k = _
      rw [placed_cons, placed_cons, waiting_cons, ih]
      rcases x with ⟨a, _ | k'⟩
      · simp [add_left_comm]
      · simp [add_assoc]

theorem placed_placeAll_of_ne {k k' : κ} (h : k' ≠ k) (xs : List (M × Option κ)) :
    placed (placeAll k xs) k' = placed xs k' := by
  unfold placed placeAll
  rw [List.map_map]
  refine congrArg List.sum (List.map_congr_left fun x _ => ?_)
  rcases x with ⟨a, _ | k''⟩
  · simp [Ne.symm h]
  · rfl

/-- Nothing is placed where no amount went. -/
theorem placed_eq_zero {xs : List (M × Option κ)} {k : κ} (h : ∀ x ∈ xs, x.2 ≠ some k) :
    placed xs k = 0 := by
  refine List.sum_eq_zero fun a ha => ?_
  obtain ⟨x, hx, rfl⟩ := List.mem_map.mp ha
  exact if_neg (h x hx)

theorem placed_finite : (Function.support (placed xs)).Finite := by
  refine Set.Finite.subset (xs.filterMap Prod.snd).toFinset.finite_toSet fun k hk => ?_
  rw [Finset.mem_coe, List.mem_toFinset, List.mem_filterMap]
  by_contra hnot
  refine hk (placed_eq_zero fun x hx heq => hnot ⟨x, hx, heq⟩)

/-- **The amounts add up** to what was placed and what waits. -/
theorem sum_eq_placed_add_waiting : (xs.map Prod.fst).sum = ∑ᶠ k, placed xs k + waiting xs := by
  induction xs with
  | nil => simp
  | cons x xs ih =>
      rcases x with ⟨a, _ | k⟩
      · -- the amount waits
        have hplaced : ∀ k, placed ((a, none) :: xs) k = placed xs k := by
          intro k
          simp [placed_cons]
        have hwaiting : waiting ((a, (none : Option κ)) :: xs) = a + waiting xs := by
          simp [waiting_cons]
        rw [List.map_cons, List.sum_cons, ih, hwaiting, finsum_congr hplaced, add_left_comm]
      · -- it was placed at `k`, and nowhere else
        have hone : ∑ᶠ k', (if (some k : Option κ) = some k' then a else 0) = a := by
          rw [finsum_eq_single _ k (fun k' hne => if_neg fun heq => hne (Option.some.inj heq).symm),
            if_pos rfl]
        have hfinite : (Function.support fun k' =>
            (if (some k : Option κ) = some k' then a else 0)).Finite := by
          refine Set.Finite.subset (Set.finite_singleton k) fun k' hk' => ?_
          by_contra hne
          exact hk' (if_neg fun heq => hne (Option.some.inj heq).symm)
        have hwaiting : waiting ((a, some k) :: xs) = waiting xs := by
          simp [waiting_cons]
        have hplaced : ∑ᶠ k', placed ((a, some k) :: xs) k' = a + ∑ᶠ k', placed xs k' := by
          rw [finsum_congr (placed_cons (a, some k) xs), finsum_add_distrib hfinite (placed_finite xs),
            hone]
        rw [List.map_cons, List.sum_cons, ih, hwaiting, hplaced, add_assoc]

end Placement

end VerdantBond
