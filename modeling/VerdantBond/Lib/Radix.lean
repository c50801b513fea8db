import Mathlib.Data.Nat.Digits.Lemmas

set_option autoImplicit false

/-! # Conversion between bases by carries

The usual loop that rewrites a number, given by its digits in base `m` from the highest on, in base
`b`: for each digit, multiply the digits so far by `m` and add it, lowest first, with a carry. From the
numeral of `v` one pass makes the numeral of `v * m + x` (`mulAdd_numeral`), so the loop ends with
Mathlib's `Nat.digits` of the number (`toRadix_eq`), and the loops of two bases undo each other
(`toRadix_reverse`).
-/

namespace VerdantBond

open List

/-! ## The loop -/

/-- The digits of a carry, lowest first: `while (carry > 0)`. A carry of `n` has at most `n`. -/
def carryDigits (b : Nat) : Nat → Nat → List Nat
  | 0, _ => []
  | fuel + 1, carry => if 0 < carry then carry % b :: carryDigits b fuel (carry / b) else []

/-- One pass over the digits, lowest first, and the carry that is left. -/
def mulAdd (b m : Nat) : List Nat → Nat → List Nat
  | [], carry => carryDigits b carry carry
  | d :: ds, carry => (carry + d * m) % b :: mulAdd b m ds ((carry + d * m) / b)

/-- The digits in base `b`, lowest first, of a number given by its digits in base `m`, highest first. -/
def toRadix (m b : Nat) (xs : List Nat) : List Nat := xs.foldl (mulAdd b m) [0]

/-! ## What it computes -/

/-- The digits of a number, lowest first; zero has one digit. -/
def numeral (b v : Nat) : List Nat := if v = 0 then [0] else Nat.digits b v

theorem numeral_of_ne_zero (b : Nat) {v : Nat} (hv : v ≠ 0) : numeral b v = Nat.digits b v := if_neg hv

variable {b m : Nat}

theorem carryDigits_eq (hb : 1 < b) {fuel carry : Nat} (h : carry ≤ fuel) :
    carryDigits b fuel carry = Nat.digits b carry := by
  induction fuel generalizing carry with
  | zero =>
      rw [Nat.le_zero.mp h, Nat.digits_zero]
      rfl
  | succ fuel ih =>
      rw [carryDigits]
      split
      · rename_i hpos
        have hless : carry / b ≤ fuel := by
          have := Nat.div_lt_self hpos hb
          omega
        rw [ih hless, Nat.digits_def' hb hpos]
      · have hzero : carry = 0 := by omega
        rw [hzero, Nat.digits_zero]

/-- One pass on the digits of a number. The induction divides the number by the base, as the pass moves
on to the next digit with the carry. -/
theorem mulAdd_digits (hb : 1 < b) (hm : 0 < m) (v x : Nat) :
    mulAdd b m (Nat.digits b v) x = Nat.digits b (v * m + x) := by
  induction v using Nat.strong_induction_on generalizing x with
  | _ v ih =>
      rcases Nat.eq_zero_or_pos v with rfl | hv
      · rw [Nat.digits_zero, mulAdd, carryDigits_eq hb le_rfl, zero_mul, zero_add]
      · have hpos : 0 < v * m + x := by
          have := Nat.mul_pos hv hm
          omega
        have hsplit : v * m + x = (x + v % b * m) + b * (v / b * m) := by
          calc v * m + x = (v % b + b * (v / b)) * m + x := by rw [Nat.mod_add_div]
            _ = (x + v % b * m) + b * (v / b * m) := by ring
        have hhead : (x + v % b * m) % b = (v * m + x) % b := by
          rw [hsplit, Nat.add_mul_mod_self_left]
        have hrest : v / b * m + (x + v % b * m) / b = (v * m + x) / b := by
          rw [hsplit, Nat.add_mul_div_left _ _ (by omega), Nat.add_comm]
        rw [Nat.digits_def' hb hv, mulAdd, ih (v / b) (Nat.div_lt_self hv hb), hhead, hrest,
          ← Nat.digits_def' hb hpos]

/-- **One pass** multiplies by `m` and adds. -/
theorem mulAdd_numeral (hb : 1 < b) (hm : 0 < m) (v x : Nat) :
    mulAdd b m (numeral b v) x = numeral b (v * m + x) := by
  by_cases hv : v = 0
  · subst hv
    have hpass : mulAdd b m [0] x = x % b :: Nat.digits b (x / b) := by
      rw [mulAdd, mulAdd, carryDigits_eq hb le_rfl, zero_mul, add_zero]
    rw [numeral, if_pos rfl, hpass, zero_mul, zero_add, numeral]
    split
    · rename_i hx
      rw [hx, Nat.zero_mod, Nat.zero_div, Nat.digits_zero]
    · exact (Nat.digits_def' hb (by omega)).symm
  · have hne : v * m + x ≠ 0 := by
      have := Nat.mul_pos (Nat.pos_of_ne_zero hv) hm
      omega
    rw [numeral_of_ne_zero b hv, numeral_of_ne_zero b hne, mulAdd_digits hb hm]

/-- **The loop computes the digits of the number.** -/
theorem toRadix_eq (hb : 1 < b) (hm : 0 < m) (xs : List Nat) :
    toRadix m b xs = numeral b (Nat.ofDigits m xs.reverse) := by
  induction xs using reverseRecOn with
  | nil => rfl
  | append_singleton xs x ih =>
      unfold toRadix at ih ⊢
      rw [foldl_append, ih, foldl_cons, foldl_nil, mulAdd_numeral hb hm,
        reverse_append, reverse_singleton, singleton_append, Nat.ofDigits_cons]
      congr 1
      ring

variable {x : Nat} {xs : List Nat}

/-- A number given by digits with a first digit that is not zero. -/
theorem digits_value (hm : 1 < m) (hx : x ≠ 0) (hall : ∀ y ∈ x :: xs, y < m) :
    Nat.digits m (Nat.ofDigits m (x :: xs).reverse) = (x :: xs).reverse := by
  apply Nat.digits_ofDigits m hm
  · intro y hy
    exact hall y (mem_reverse.mp hy)
  · intro _
    rw [getLast_reverse]
    exact hx

theorem value_ne_zero (hm : 1 < m) (hx : x ≠ 0) (hall : ∀ y ∈ x :: xs, y < m) :
    Nat.ofDigits m (x :: xs).reverse ≠ 0 := by
  intro hzero
  have hdigits := digits_value hm hx hall
  rw [hzero, Nat.digits_zero] at hdigits
  simp at hdigits

/-- **Back and forth.** Without leading zeros the result has none either, and the loop of the other
base returns the digits it came from. -/
theorem toRadix_reverse (hb : 1 < b) (hm : 1 < m) (hx : x ≠ 0) (hall : ∀ y ∈ x :: xs, y < m) :
    ∃ z zs, (toRadix m b (x :: xs)).reverse = z :: zs ∧ z ≠ 0 ∧ (∀ y ∈ z :: zs, y < b) ∧
      (toRadix b m (z :: zs)).reverse = x :: xs := by
  have hvalue := value_ne_zero hm hx hall
  have hdigits := digits_value hm hx hall
  rw [toRadix_eq hb (by omega), numeral_of_ne_zero b hvalue]
  generalize Nat.ofDigits m (x :: xs).reverse = v at hvalue hdigits
  have hlast := Nat.getLast_digit_ne_zero b hvalue
  have hlt : ∀ y ∈ Nat.digits b v, y < b := fun y hy => Nat.digits_lt_base hb hy
  cases hreverse : (Nat.digits b v).reverse with
  | nil => exact absurd (reverse_eq_nil_iff.mp hreverse) (Nat.digits_ne_nil_iff_ne_zero.mpr hvalue)
  | cons z zs =>
      have hback : Nat.digits b v = (z :: zs).reverse := by
        rw [← hreverse, reverse_reverse]
      refine ⟨z, zs, rfl, ?_, fun y hy => hlt y ?_, ?_⟩
      · simp only [hback, getLast_reverse, head_cons] at hlast
        exact hlast
      · rw [hback]
        exact mem_reverse.mpr hy
      · rw [toRadix_eq hm (by omega), ← hback, Nat.ofDigits_digits, numeral_of_ne_zero m hvalue,
          hdigits, reverse_reverse]

/-- **The highest digits** of a number are those of its quotient by a power of the base. -/
theorem digits_top (hb : 1 < b) {k n : Nat} (h : 0 < n / b ^ k) :
    ∃ low : List Nat, low.length = k ∧ Nat.digits b n = low ++ Nat.digits b (n / b ^ k) := by
  have hlen : (Nat.digits b (n % b ^ k)).length ≤ k :=
    Nat.digits_length_le_iff hb _ |>.mpr (Nat.mod_lt _ (Nat.pow_pos (by omega)))
  refine ⟨Nat.digits b (n % b ^ k) ++ replicate (k - (Nat.digits b (n % b ^ k)).length) 0, ?_, ?_⟩
  · rw [length_append, length_replicate]
    omega
  · rw [Nat.digits_append_zeroes_append_digits hb h, Nat.add_sub_cancel' hlen, Nat.mod_add_div]

end VerdantBond
