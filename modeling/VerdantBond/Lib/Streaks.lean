import Mathlib.Data.List.Basic
import Mathlib.Tactic

set_option autoImplicit false

/-! # Streaks in a list

`EndsInRun p n l`: the last `n` members of `l` satisfy `p`. `HasRun p n l`: some `n` consecutive
members do. Both are followed along a list that grows at its end.
-/

namespace VerdantBond

open List

variable {α : Type} {p q : α → Prop} {n m : Nat} {l k : List α} {a : α}

/-- The last `n` members of `l` satisfy `p`. -/
def EndsInRun (p : α → Prop) (n : Nat) (l : List α) : Prop :=
  ∃ rest run, l = rest ++ run ∧ run.length = n ∧ ∀ x ∈ run, p x

/-- Some `n` consecutive members of `l` satisfy `p`. -/
def HasRun (p : α → Prop) (n : Nat) (l : List α) : Prop :=
  ∃ before run after, l = before ++ run ++ after ∧ run.length = n ∧ ∀ x ∈ run, p x

@[simp] theorem endsInRun_zero : EndsInRun p 0 l := ⟨l, [], by simp⟩

@[simp] theorem not_endsInRun_nil : ¬ EndsInRun p (n + 1) [] := by
  rintro ⟨rest, run, h, hlen, -⟩
  obtain ⟨-, rfl⟩ := append_eq_nil_iff.mp h.symm
  simp at hlen

@[simp] theorem endsInRun_concat :
    EndsInRun p (n + 1) (l ++ [a]) ↔ p a ∧ EndsInRun p n l := by
  constructor
  · rintro ⟨rest, run, h, hlen, hall⟩
    rcases eq_nil_or_concat run with rfl | ⟨run, b, rfl⟩
    · simp at hlen
    · rw [concat_eq_append] at h hlen hall
      rw [← append_assoc] at h
      obtain ⟨rfl, hb⟩ := append_inj' h rfl
      obtain rfl : a = b := by simpa using hb
      refine ⟨hall a (by simp), rest, run, rfl, by simpa using hlen, fun x hx => hall x (by simp [hx])⟩
  · rintro ⟨ha, rest, run, rfl, rfl, hall⟩
    refine ⟨rest, run ++ [a], by simp, by simp, fun x hx => ?_⟩
    rcases mem_append.mp hx with hx | hx
    · exact hall x hx
    · rwa [mem_singleton.mp hx]

theorem EndsInRun.append_left (h : EndsInRun p n l) : EndsInRun p n (k ++ l) := by
  obtain ⟨rest, run, rfl, hlen, hall⟩ := h
  exact ⟨k ++ rest, run, by simp, hlen, hall⟩

/-- A list has a run if one of its beginnings ends in it. -/
theorem hasRun_iff : HasRun p n l ↔ ∃ start rest, l = start ++ rest ∧ EndsInRun p n start := by
  constructor
  · rintro ⟨before, run, after, rfl, hlen, hall⟩
    exact ⟨_, after, rfl, before, run, rfl, hlen, hall⟩
  · rintro ⟨_, after, rfl, before, run, rfl, hlen, hall⟩
    exact ⟨before, run, after, rfl, hlen, hall⟩

@[simp] theorem not_hasRun_nil : ¬ HasRun p (n + 1) [] := by
  rw [hasRun_iff]
  rintro ⟨start, rest, h, hrun⟩
  obtain ⟨rfl, -⟩ := append_eq_nil_iff.mp h.symm
  exact not_endsInRun_nil hrun

theorem exists_split_concat {P : List α → List α → Prop} :
    (∃ start rest, l ++ [a] = start ++ rest ∧ P start rest) ↔
      P (l ++ [a]) [] ∨ ∃ start rest, l = start ++ rest ∧ P start (rest ++ [a]) := by
  constructor
  · rintro ⟨start, rest, h, hP⟩
    rcases eq_nil_or_concat rest with rfl | ⟨rest, b, rfl⟩
    · rw [append_nil] at h
      exact .inl (h ▸ hP)
    · rw [concat_eq_append] at h hP
      rw [← append_assoc] at h
      obtain ⟨rfl, hb⟩ := append_inj' h rfl
      obtain rfl : a = b := by simpa using hb
      exact .inr ⟨start, rest, rfl, hP⟩
  · rintro (hP | ⟨start, rest, rfl, hP⟩)
    · exact ⟨_, [], by simp, hP⟩
    · exact ⟨start, rest ++ [a], by simp, hP⟩

theorem hasRun_concat :
    HasRun p n (l ++ [a]) ↔ EndsInRun p n (l ++ [a]) ∨ HasRun p n l := by
  rw [hasRun_iff, hasRun_iff, exists_split_concat]

/-- A run of `p` cannot reach back over a member that fails `p`. -/
theorem EndsInRun.of_append (hpq : ∀ x, p x → ¬ q x) (hl : EndsInRun q (m + 1) l) :
    ∀ {n : Nat} {k : List α}, EndsInRun p n (l ++ k) → EndsInRun p n k := by
  intro n k
  induction k using reverseRecOn generalizing n with
  | nil =>
      intro h
      cases n with
      | zero => exact endsInRun_zero
      | succ n =>
          rcases eq_nil_or_concat l with rfl | ⟨l, b, rfl⟩
          · exact absurd hl not_endsInRun_nil
          · rw [concat_eq_append] at hl h
            rw [append_nil, endsInRun_concat] at h
            exact absurd (endsInRun_concat.mp hl).1 (hpq b h.1)
  | append_singleton k b ih =>
      intro h
      cases n with
      | zero => exact endsInRun_zero
      | succ n =>
          rw [← append_assoc, endsInRun_concat] at h
          exact endsInRun_concat.mpr ⟨h.1, ih h.2⟩

end VerdantBond
