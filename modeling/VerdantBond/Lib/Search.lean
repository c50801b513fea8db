import Mathlib.Data.Int.Order.Basic
import Mathlib.Tactic

set_option autoImplicit false

/-! # Searches over an interval

Two loops. The bisection looks for the last number of an interval that passes a test which, once
failed, is failed from there on; it keeps the last number that passed (`bisect_spec`). The scan looks at
every number and keeps the best so far, so it ends at the first of the best (`foldl_best`).
-/

namespace VerdantBond

/-! ## Bisection -/

section Bisect

variable (ok : Int → Prop) [DecidablePred ok]

/-- Halve `[low, high]` until it is empty; `found` is the last number that passed. -/
def bisect (low high found : Int) : Int :=
  if low ≤ high then
    let mid := (low + high) / 2
    if ok mid then bisect (mid + 1) high mid else bisect low (mid - 1) found
  else found
termination_by (high + 1 - low).toNat

variable {ok}

/-- **The result is the last number that passes**, or `found` if none of the interval does. -/
theorem bisect_spec {low high : Int} (found : Int)
    (hmono : ∀ x y, low ≤ x → x ≤ y → y ≤ high → ok y → ok x) :
    (bisect ok low high found = found ∧ ∀ x, low ≤ x → x ≤ high → ¬ ok x) ∨
      (low ≤ bisect ok low high found ∧ bisect ok low high found ≤ high ∧
        ok (bisect ok low high found) ∧ ∀ x, bisect ok low high found < x → x ≤ high → ¬ ok x) := by
  fun_induction bisect ok low high found with
  | case1 low high found hle mid hok ih =>
      -- everything up to `mid` passes; the rest is searched with `mid` as the last that did
      right
      have hmid : low ≤ mid ∧ mid ≤ high := by omega
      rcases ih (fun x y hx => hmono x y (by omega)) with ⟨heq, hnone⟩ | ⟨h1, h2, h3, h4⟩
      · rw [heq]
        exact ⟨hmid.1, hmid.2, hok, fun x hx => hnone x (by omega)⟩
      · exact ⟨by omega, h2, h3, h4⟩
  | case2 low high found hle mid hok ih =>
      have hmid : low ≤ mid ∧ mid ≤ high := by omega
      have habove : ∀ x, mid ≤ x → x ≤ high → ¬ ok x :=
        fun x hx hxh hx' => hok (hmono mid x hmid.1 hx hxh hx')
      rcases ih (fun x y hx hxy hy => hmono x y hx hxy (by omega)) with ⟨heq, hnone⟩ | ⟨h1, h2, h3, h4⟩
      · refine .inl ⟨heq, fun x hx hxh => ?_⟩
        by_cases hlt : x < mid
        · exact hnone x hx (by omega)
        · exact habove x (by omega) hxh
      · refine .inr ⟨h1, by omega, h3, fun x hx hxh => ?_⟩
        by_cases hlt : x < mid
        · exact h4 x hx (by omega)
        · exact habove x (by omega) hxh
  | case3 low high found hgt =>
      exact .inl ⟨rfl, fun x hx hxh => absurd (hx.trans hxh) hgt⟩

end Bisect

/-! ## Scan -/

/-- **The scan ends at the first of the best**: every number before it is worse, and no number after it
is better. `better` is a strict weak order. -/
theorem foldl_best (better : Nat → Nat → Prop) [DecidableRel better]
    (htrans : ∀ a b c, better a b → better b c → better a c)
    (hcotrans : ∀ a b c, better a c → better a b ∨ better b c) (first n : Nat) :
    let best := (List.range' (first + 1) n).foldl (fun m j => if better j m then j else m) first
    first ≤ best ∧ best ≤ first + n ∧ (∀ j, first ≤ j → j < best → better best j) ∧
      ∀ j, best < j → j ≤ first + n → ¬ better j best := by
  induction n with
  | zero =>
      refine ⟨le_rfl, le_rfl, fun j h1 h2 => absurd h1 (not_le.mpr h2), fun j h1 h2 => ?_⟩
      exact absurd h2 (not_le.mpr h1)
  | succ n ih =>
      rw [List.range'_concat, List.foldl_append, List.foldl_cons, List.foldl_nil, one_mul]
      obtain ⟨hle, hlt, hworse, hnone⟩ := ih
      generalize (List.range' (first + 1) n).foldl _ first = prev at hle hlt hworse hnone ⊢
      rw [show first + 1 + n = first + (n + 1) by omega]
      by_cases h : better (first + (n + 1)) prev
      · rw [if_pos h]
        refine ⟨by omega, le_rfl, fun j h1 h2 => ?_, fun j h1 h2 => absurd h2 (not_le.mpr h1)⟩
        -- `j` is worse than the best so far, is it, or is not better than it
        rcases lt_trichotomy j prev with hj | rfl | hj
        · exact htrans _ _ _ h (hworse j h1 hj)
        · exact h
        · exact (hcotrans _ j _ h).resolve_right (hnone j hj (by omega))
      · rw [if_neg h]
        refine ⟨hle, by omega, hworse, fun j h1 h2 => ?_⟩
        by_cases hj : j = first + (n + 1)
        · rw [hj]
          exact h
        · exact hnone j h1 (by omega)

end VerdantBond
