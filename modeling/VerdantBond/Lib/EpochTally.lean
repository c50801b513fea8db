import Mathlib.Tactic

set_option autoImplicit false

/-! # Tallies that start afresh in a new epoch

A store that keeps one tally for a stream of entries: the epoch it is about, the first mark seen in
that epoch, and the total of the amounts in it. Nothing resets the tally when an epoch ends; the
first entry of a later epoch finds a tally of another epoch and starts a new one. As long as epochs
do not go back, the tally an entry finds and leaves is the one of its epoch (`Holds.record`).
-/

namespace VerdantBond

/-- An entry of the stream. -/
structure EpochEntry (α : Type) where
  epoch : Nat
  mark : α
  amount : Int
  deriving DecidableEq, Repr

structure EpochTally (α : Type) where
  epoch : Nat
  first : α
  total : Int
  deriving DecidableEq, Repr

namespace EpochTally

variable {α : Type}

/-- The tally an entry finds: the stored one if it is of the same epoch, or a new one. -/
def current (t : Option (EpochTally α)) (x : EpochEntry α) : EpochTally α :=
  match t with
  | some t => if t.epoch = x.epoch then t else ⟨x.epoch, x.mark, 0⟩
  | none => ⟨x.epoch, x.mark, 0⟩

/-- The tally an entry leaves. -/
def record (t : Option (EpochTally α)) (x : EpochEntry α) : EpochTally α :=
  { current t x with total := (current t x).total + x.amount }

/-! ## The stream -/

variable (n : Nat) (xs : List (EpochEntry α))

/-- The entries of one epoch. -/
def ofEpoch : List (EpochEntry α) :=
  xs.filter fun x => x.epoch = n

/-- The first mark of an epoch. -/
def firstMark : Option α :=
  (ofEpoch n xs).head?.map EpochEntry.mark

/-- The total of an epoch. -/
def epochTotal : Int :=
  ((ofEpoch n xs).map EpochEntry.amount).sum

theorem ofEpoch_snoc_self (x : EpochEntry α) :
    ofEpoch x.epoch (xs ++ [x]) = ofEpoch x.epoch xs ++ [x] := by
  unfold ofEpoch
  rw [List.filter_append, List.filter_cons_of_pos (by simp), List.filter_nil]

theorem epochTotal_snoc_self (x : EpochEntry α) :
    epochTotal x.epoch (xs ++ [x]) = epochTotal x.epoch xs + x.amount := by
  unfold epochTotal
  rw [ofEpoch_snoc_self, List.map_append, List.sum_append, List.map_singleton, List.sum_singleton]

variable {xs : List (EpochEntry α)} {t : Option (EpochTally α)} {x : EpochEntry α}

theorem ofEpoch_eq_nil {n : Nat} (h : ∀ x ∈ xs, x.epoch ≠ n) : ofEpoch n xs = [] := by
  refine List.filter_eq_nil_iff.mpr fun x hx => ?_
  simpa using h x hx

theorem mem_of_firstMark {n : Nat} {a : α} (h : firstMark n xs = some a) :
    ∃ x ∈ xs, x.epoch = n ∧ x.mark = a := by
  obtain ⟨x, hx, hmark⟩ := Option.map_eq_some_iff.mp h
  obtain ⟨hmem, hepoch⟩ := List.mem_filter.mp (List.mem_of_mem_head? hx)
  exact ⟨x, hmem, of_decide_eq_true hepoch, hmark⟩

/-- The stored tally is the one of the last epoch of the stream. -/
def Holds (xs : List (EpochEntry α)) : Option (EpochTally α) → Prop
  | none => xs = []
  | some t => (∀ x ∈ xs, x.epoch ≤ t.epoch) ∧ firstMark t.epoch xs = some t.first ∧
      epochTotal t.epoch xs = t.total

/-- **The tally an entry finds is that of its epoch**, with the entry's own mark as the first one if
the epoch is new. -/
theorem Holds.current (h : Holds xs t) (hlast : ∀ y ∈ xs, y.epoch ≤ x.epoch) :
    (current t x).epoch = x.epoch ∧
      firstMark x.epoch (xs ++ [x]) = some (current t x).first ∧
      epochTotal x.epoch xs = (current t x).total := by
  -- without an entry of the epoch, this one is its first
  have hnew : ofEpoch x.epoch xs = [] →
      firstMark x.epoch (xs ++ [x]) = some x.mark ∧ epochTotal x.epoch xs = 0 := by
    intro hnil
    unfold firstMark epochTotal
    rw [ofEpoch_snoc_self, hnil]
    exact ⟨rfl, rfl⟩
  cases t with
  | none =>
      have hnil : xs = [] := h
      rw [hnil] at hnew ⊢
      exact ⟨rfl, hnew rfl⟩
  | some t =>
      obtain ⟨hle, hfirst, htotal⟩ := h
      by_cases hsame : t.epoch = x.epoch
      · have hcurrent : EpochTally.current (some t) x = t := if_pos hsame
        rw [hcurrent]
        rw [hsame] at hfirst htotal
        refine ⟨hsame, ?_, htotal⟩
        unfold firstMark at hfirst ⊢
        rw [ofEpoch_snoc_self]
        cases hof : ofEpoch x.epoch xs with
        | nil =>
            rw [hof] at hfirst
            cases hfirst
        | cons y ys =>
            rw [hof] at hfirst
            exact hfirst
      · have hcurrent : EpochTally.current (some t) x = ⟨x.epoch, x.mark, 0⟩ := if_neg hsame
        rw [hcurrent]
        refine ⟨rfl, hnew (ofEpoch_eq_nil fun y hy hepoch => hsame ?_)⟩
        -- the stored epoch is that of an entry, so it is not after this one
        have hstored : t.epoch ≤ x.epoch := by
          obtain ⟨z, hz, hzepoch, -⟩ := mem_of_firstMark hfirst
          rw [← hzepoch]
          exact hlast z hz
        have hyle := hle y hy
        omega

/-- **One more entry.** -/
theorem Holds.record (h : Holds xs t) (hlast : ∀ y ∈ xs, y.epoch ≤ x.epoch) :
    Holds (xs ++ [x]) (some (record t x)) := by
  obtain ⟨hepoch, hfirst, htotal⟩ := h.current hlast
  refine ⟨fun y hy => ?_, ?_, ?_⟩
  · show y.epoch ≤ (EpochTally.current t x).epoch
    rw [hepoch]
    rcases List.mem_append.mp hy with hy | hy
    · exact hlast y hy
    · rw [List.mem_singleton.mp hy]
  · show firstMark (EpochTally.current t x).epoch (xs ++ [x])
      = some (EpochTally.current t x).first
    rw [hepoch]
    exact hfirst
  · show epochTotal (EpochTally.current t x).epoch (xs ++ [x])
      = (EpochTally.current t x).total + x.amount
    rw [hepoch, epochTotal_snoc_self, htotal]

end EpochTally

end VerdantBond
