import Mathlib.Tactic

set_option autoImplicit false

/-! # Fallible calls and checked machine arithmetic

A contract entry point either returns a value, returns an error of its own error type, or is
aborted by the host (a trap: an arithmetic overflow outside the checked operations, a failed
authorization, a failed call into another contract). `Outcome ε α` is that result. In the last
two cases the host discards every write of the call, so an `Outcome` carries a new state only
when it is `.ok`.

The combinators `reject`, `okOr` and `orTrap` are the three ways a body leaves early. Each has
one lemma that says when it succeeds; with `bind_ok_iff` they turn the equation
`body = .ok r` into the list of checks the body made.
-/

namespace VerdantBond

/-- Why a call has no result: its own error, or an abort by the host. -/
inductive Fault (ε : Type) where
  | err (e : ε)
  | trap
  deriving DecidableEq, Repr

abbrev Outcome (ε α : Type) := Except (Fault ε) α

section Combinators

variable {ε α β : Type}

/-- `if p { return Err(e) }`. -/
def reject (p : Prop) [Decidable p] (e : ε) : Outcome ε Unit :=
  if p then .error (.err e) else .ok ()

/-- `o.ok_or(e)?`. -/
def okOr (o : Option α) (e : ε) : Outcome ε α :=
  match o with
  | some a => .ok a
  | none => .error (.err e)

/-- A value the host insists on: `none` aborts the call. -/
def orTrap (o : Option α) : Outcome ε α :=
  match o with
  | some a => .ok a
  | none => .error .trap

/-- An unchecked condition of the host, such as a missing authorization. -/
def hostRequire (p : Prop) [Decidable p] : Outcome ε Unit :=
  if p then .ok () else .error .trap

/-- A call into another contract: whatever way it fails, the caller is aborted. -/
def invoke {ε' : Type} (x : Outcome ε' α) : Outcome ε α :=
  match x with
  | .ok a => .ok a
  | .error _ => .error .trap

variable {x : Outcome ε α} {f : α → Outcome ε β} {a : α} {p : Prop} {e : ε} {o : Option α}

/-- A sequence succeeds exactly when both of its parts do. -/
@[simp] theorem bind_ok_iff {r : β} : (x >>= f) = .ok r ↔ ∃ a, x = .ok a ∧ f a = .ok r := by
  cases x with
  | error e => simp [bind, Except.bind]
  | ok a => simp [bind, Except.bind]

@[simp] theorem pure_ok_iff {b : α} : (pure a : Outcome ε α) = .ok b ↔ a = b := by
  simp [pure, Except.pure]

@[simp] theorem reject_ok_iff [Decidable p] {u : Unit} : reject p e = .ok u ↔ ¬ p := by
  unfold reject
  by_cases hp : p <;> simp [hp]

@[simp] theorem hostRequire_ok_iff [Decidable p] {u : Unit} :
    (hostRequire p : Outcome ε Unit) = .ok u ↔ p := by
  unfold hostRequire
  by_cases hp : p <;> simp [hp]

@[simp] theorem okOr_ok_iff : okOr o e = .ok a ↔ o = some a := by
  cases o <;> simp [okOr]

@[simp] theorem orTrap_ok_iff : (orTrap o : Outcome ε α) = .ok a ↔ o = some a := by
  cases o <;> simp [orTrap]

@[simp] theorem invoke_ok_iff {ε' : Type} {x : Outcome ε' α} :
    (invoke x : Outcome ε α) = .ok a ↔ x = .ok a := by
  cases x <;> simp [invoke]

/-! The same combinators computed forwards, for a body whose checks are known to pass. -/

@[simp] theorem ok_bind : ((.ok a : Outcome ε α) >>= f) = f a := rfl

@[simp] theorem pure_eq_ok : (pure a : Outcome ε α) = .ok a := rfl

theorem reject_of_not [Decidable p] (h : ¬ p) : reject p e = .ok () := if_neg h

theorem hostRequire_of [Decidable p] (h : p) :
    (hostRequire p : Outcome ε Unit) = .ok () := if_pos h

@[simp] theorem okOr_some : okOr (some a) e = .ok a := rfl

@[simp] theorem orTrap_some : (orTrap (some a) : Outcome ε α) = .ok a := rfl

@[simp] theorem exists_unit_iff {p : Unit → Prop} : (∃ u, p u) ↔ p () :=
  ⟨fun ⟨(), h⟩ => h, fun h => ⟨(), h⟩⟩

/-! And backwards from an error of the call's own. -/

theorem bind_err_iff :
    (x >>= f) = .error (.err e) ↔
      x = .error (.err e) ∨ ∃ a, x = .ok a ∧ f a = .error (.err e) := by
  cases x with
  | error e' => simp [bind, Except.bind]
  | ok a => simp [bind, Except.bind]

theorem reject_err_iff [Decidable p] {e' : ε} : reject p e = .error (.err e') ↔ p ∧ e = e' := by
  unfold reject
  by_cases hp : p <;> simp [hp]

theorem okOr_err_iff {e' : ε} : okOr o e = .error (.err e') ↔ o = none ∧ e = e' := by
  cases o <;> simp [okOr]

theorem orTrap_ne_err : (orTrap o : Outcome ε α) ≠ .error (.err e) := by
  cases o <;> simp [orTrap]

/-- What a loop in `Outcome` preserves, one iteration at a time. -/
theorem foldlM_ok_induct {f : β → α → Outcome ε β} (I : List α → β → Prop)
    (hstep : ∀ a l b b', I (a :: l) b → f b a = .ok b' → I l b') :
    ∀ (l : List α) (b r : β), I l b → l.foldlM f b = .ok r → I [] r := by
  intro l
  induction l with
  | nil =>
      intro b r hb h
      simp only [List.foldlM_nil, pure_ok_iff] at h
      rwa [← h]
  | cons a l ih =>
      intro b r hb h
      simp only [List.foldlM_cons, bind_ok_iff] at h
      obtain ⟨b', h1, h2⟩ := h
      exact ih b' r (hstep a l b b' hb h1) h2

end Combinators

/-! ## Fixed-width integers

Values are kept as `Int` and `Nat`; the width enters where the code checks it. -/

def i128Max : Int := 2 ^ 127 - 1
def i128Min : Int := -2 ^ 127
def u128Max : Nat := 2 ^ 128 - 1
def u64Max : Nat := 2 ^ 64 - 1
def u32Max : Nat := 2 ^ 32 - 1

/-- The values an `i128` can hold. -/
def InI128 (n : Int) : Prop := i128Min ≤ n ∧ n ≤ i128Max

instance (n : Int) : Decidable (InI128 n) := inferInstanceAs (Decidable (_ ∧ _))

/-- The checked result of an `i128` operation whose exact value is `n`. -/
def i128 (n : Int) : Option Int := if InI128 n then some n else none

/-- `a.checked_div(b)` in `i128`: truncated towards zero. -/
def checkedDiv (a b : Int) : Option Int := if b = 0 then none else i128 (a.tdiv b)

/-- The checked result of a `u64` operation whose exact value is `n`. -/
def u64 (n : Nat) : Option Nat := if n ≤ u64Max then some n else none

/-- The checked result of a `u32` operation whose exact value is `n`. -/
def u32 (n : Nat) : Option Nat := if n ≤ u32Max then some n else none

@[simp] theorem i128_eq_some {n m : Int} : i128 n = some m ↔ InI128 n ∧ n = m := by
  unfold i128
  by_cases h : InI128 n <;> simp [h]

@[simp] theorem checkedDiv_eq_some {a b m : Int} :
    checkedDiv a b = some m ↔ b ≠ 0 ∧ InI128 (a.tdiv b) ∧ a.tdiv b = m := by
  unfold checkedDiv
  by_cases h : b = 0 <;> simp [h]

variable {n : Nat}

@[simp] theorem u64_eq_some {m : Nat} : u64 n = some m ↔ n ≤ u64Max ∧ n = m := by
  unfold u64
  by_cases h : n ≤ u64Max <;> simp [h]

@[simp] theorem u32_eq_some {m : Nat} : u32 n = some m ↔ n ≤ u32Max ∧ n = m := by
  unfold u32
  by_cases h : n ≤ u32Max <;> simp [h]

/-- A value between zero and an `i128` is an `i128`. -/
theorem InI128.of_nonneg_le {n m : Int} (h0 : 0 ≤ n) (hm : n ≤ m) (h : InI128 m) : InI128 n := by
  refine ⟨?_, le_trans hm h.2⟩
  unfold i128Min
  omega

theorem inI128_zero : InI128 0 := by decide

theorem i128_of {n : Int} (h : InI128 n) : i128 n = some n := if_pos h

theorem u64_of (h : n ≤ u64Max) : u64 n = some n := if_pos h

theorem u32_of (h : n ≤ u32Max) : u32 n = some n := if_pos h

end VerdantBond
