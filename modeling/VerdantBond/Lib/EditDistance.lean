import Mathlib.Order.Lattice.Nat

set_option autoImplicit false

/-! # Edit distance

The distance of two lists is the least number of single insertions, deletions and substitutions that
turn one into the other. `editDist` is the usual recursion on the heads. It is attained, since each of
its branches is an edit of the head; and no sequence of edits is shorter, since one edit anywhere
changes the recursion's value by at most one (`editDist_le_of_edit`).
-/

namespace VerdantBond

variable {α : Type}

/-- One edit, after the common start `u`. -/
inductive Edit : List α → List α → Prop
  | insert (u v : List α) (a : α) : Edit (u ++ v) (u ++ a :: v)
  | delete (u v : List α) (a : α) : Edit (u ++ a :: v) (u ++ v)
  | substitute (u v : List α) (a b : α) : Edit (u ++ a :: v) (u ++ b :: v)

/-- A number of edits, one after the other. -/
inductive Edits : Nat → List α → List α → Prop
  | none (s : List α) : Edits 0 s s
  | step {n : Nat} {s t u : List α} : Edit s t → Edits n t u → Edits (n + 1) s u

variable {s t : List α} {n : Nat}

theorem Edit.cons (a : α) (h : Edit s t) : Edit (a :: s) (a :: t) := by
  cases h with
  | insert u v b => exact .insert (a :: u) v b
  | delete u v b => exact .delete (a :: u) v b
  | substitute u v b c => exact .substitute (a :: u) v b c

theorem Edits.cons (a : α) (h : Edits n s t) : Edits n (a :: s) (a :: t) := by
  induction h with
  | none s => exact .none _
  | step hedit _ ih => exact .step (hedit.cons a) ih

theorem Edit.reverse (h : Edit s t) : Edit s.reverse t.reverse := by
  cases h with
  | insert u v a => simpa using Edit.insert v.reverse u.reverse a
  | delete u v a => simpa using Edit.delete v.reverse u.reverse a
  | substitute u v a b => simpa using Edit.substitute v.reverse u.reverse a b

theorem Edits.reverse (h : Edits n s t) : Edits n s.reverse t.reverse := by
  induction h with
  | none s => exact .none _
  | step hedit _ ih => exact .step hedit.reverse ih

theorem edits_reverse_iff : Edits n s.reverse t.reverse ↔ Edits n s t :=
  ⟨fun h => by simpa using h.reverse, Edits.reverse⟩

theorem edits_nil_left (t : List α) : Edits t.length [] t := by
  induction t with
  | nil => exact .none _
  | cons a t ih => exact .step (.insert [] [] a) (ih.cons a)

theorem edits_nil_right (s : List α) : Edits s.length s [] := by
  induction s with
  | nil => exact .none _
  | cons a s ih => exact .step (.delete [] s a) ih

/-! ## The recursion -/

section

variable [DecidableEq α]

def editDist : List α → List α → Nat
  | [], t => t.length
  | s, [] => s.length
  | a :: s, b :: t =>
      min (editDist (a :: s) t + 1)
        (min (editDist s (b :: t) + 1) (editDist s t + if a = b then 0 else 1))
  termination_by s t => s.length + t.length

@[simp] theorem editDist_nil_left (t : List α) : editDist [] t = t.length := by
  cases t <;> simp [editDist]

@[simp] theorem editDist_nil_right (s : List α) : editDist s [] = s.length := by
  cases s <;> simp [editDist]

theorem editDist_cons_cons (a b : α) (s t : List α) :
    editDist (a :: s) (b :: t) =
      min (editDist (a :: s) t + 1)
        (min (editDist s (b :: t) + 1) (editDist s t + if a = b then 0 else 1)) := by
  rw [editDist]

@[simp] theorem editDist_self (s : List α) : editDist s s = 0 := by
  induction s with
  | nil => simp
  | cons a s ih =>
      rw [editDist_cons_cons, ih, if_pos rfl]
      omega

/-! ## It is attained -/

/-- **As many edits suffice.** -/
theorem edits_editDist (s t : List α) : Edits (editDist s t) s t := by
  induction s generalizing t with
  | nil =>
      rw [editDist_nil_left]
      exact edits_nil_left t
  | cons a s ihs =>
      induction t with
      | nil =>
          rw [editDist_nil_right]
          exact edits_nil_right _
      | cons b t iht =>
          have hinsert : Edits (editDist (a :: s) t + 1) (a :: s) (b :: t) :=
            .step (.insert [] (a :: s) b) (iht.cons b)
          have hdelete : Edits (editDist s (b :: t) + 1) (a :: s) (b :: t) :=
            .step (.delete [] s a) (ihs (b :: t))
          have hhead : Edits (editDist s t + if a = b then 0 else 1) (a :: s) (b :: t) := by
            by_cases hab : a = b
            · subst hab
              rw [if_pos rfl]
              exact (ihs t).cons a
            · rw [if_neg hab]
              exact .step (.substitute [] s a b) ((ihs t).cons b)
          rw [editDist_cons_cons]
          -- the value is one of the three
          rcases min_choice (editDist (a :: s) t + 1)
            (min (editDist s (b :: t) + 1) (editDist s t + if a = b then 0 else 1)) with h | h
          · rwa [h]
          · rw [h]
            rcases min_choice (editDist s (b :: t) + 1) (editDist s t + if a = b then 0 else 1)
              with h' | h' <;> rwa [h']

/-! ## Nothing is shorter -/

theorem editDist_cons_le (a : α) (s t : List α) : editDist (a :: s) t ≤ editDist s t + 1 := by
  cases t with
  | nil => simp
  | cons b t =>
      rw [editDist_cons_cons]
      omega

theorem editDist_le_cons_right (s : List α) (b : α) (t : List α) :
    editDist s (b :: t) ≤ editDist s t + 1 := by
  cases s with
  | nil => simp
  | cons a s =>
      rw [editDist_cons_cons]
      omega

theorem editDist_le_cons (a : α) (s t : List α) : editDist s t ≤ editDist (a :: s) t + 1 := by
  induction t with
  | nil =>
      simp
      omega
  | cons b t ih =>
      have hright := editDist_le_cons_right s b t
      rw [editDist_cons_cons]
      omega

theorem editDist_substitute_le (a b : α) (s t : List α) :
    editDist (a :: s) t ≤ editDist (b :: s) t + 1 := by
  induction t with
  | nil => simp
  | cons c t ih =>
      have hcost : (if a = c then 0 else 1) ≤ 1 := by split <;> omega
      rw [editDist_cons_cons, editDist_cons_cons]
      omega

variable {s s' : List α}

/-- A head in common does not widen a gap. -/
theorem editDist_cons_le_cons (h : ∀ t, editDist s t ≤ editDist s' t + 1) (a : α) (t : List α) :
    editDist (a :: s) t ≤ editDist (a :: s') t + 1 := by
  induction t with
  | nil =>
      have hnil := h []
      simp at hnil ⊢
      omega
  | cons c t ih =>
      have hdelete := h (c :: t)
      have hhead := h t
      rw [editDist_cons_cons, editDist_cons_cons]
      omega

theorem editDist_append_le_append (h : ∀ t, editDist s t ≤ editDist s' t + 1) (u t : List α) :
    editDist (u ++ s) t ≤ editDist (u ++ s') t + 1 := by
  induction u generalizing t with
  | nil => exact h t
  | cons a u ih => exact editDist_cons_le_cons ih a t

/-- **An edit moves the distance by at most one.** -/
theorem editDist_le_of_edit (h : Edit s s') (t : List α) : editDist s t ≤ editDist s' t + 1 := by
  cases h with
  | insert u v a => exact editDist_append_le_append (editDist_le_cons a v) u t
  | delete u v a => exact editDist_append_le_append (editDist_cons_le a v) u t
  | substitute u v a b => exact editDist_append_le_append (editDist_substitute_le a b v) u t

theorem editDist_le_of_edits {n : Nat} {t : List α} (h : Edits n s t) : editDist s t ≤ n := by
  induction h with
  | none s => rw [editDist_self]
  | @step n s t u hedit _ ih =>
      calc editDist s u ≤ editDist t u + 1 := editDist_le_of_edit hedit u
        _ ≤ n + 1 := Nat.succ_le_succ ih

/-- **The recursion computes the least number of edits.** -/
theorem isLeast_editDist (s t : List α) : IsLeast {n | Edits n s t} (editDist s t) :=
  ⟨edits_editDist s t, fun _ h => editDist_le_of_edits h⟩

end

end VerdantBond
