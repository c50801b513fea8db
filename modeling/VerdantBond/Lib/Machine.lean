import Mathlib.Tactic

set_option autoImplicit false

/-! # Deterministic machines, their runs and their histories

A `Machine` reads one input at a time, moves to a new state and answers. Every list of inputs
is a run. The history of a run is the list of its events, oldest first; each event keeps the
state before and after, so a quantity such as "everything paid in so far" is a sum over the
history and needs no ghost field in the state.

Three rules carry all inductions over runs: `run_invariant` for facts about the state,
`history_induct` for facts that relate the state to its history, and `guarded_induct` for runs
whose inputs all meet a condition.
-/

namespace VerdantBond

structure Event (σ ι ο : Type) where
  pre : σ
  input : ι
  output : ο
  post : σ

structure Machine (σ ι ο : Type) where
  step : σ → ι → σ × ο

namespace Machine

variable {σ ι ο : Type} (m : Machine σ ι ο)

/-- The event of reading `i` in the state `s`. -/
def event (s : σ) (i : ι) : Event σ ι ο := ⟨s, i, (m.step s i).2, (m.step s i).1⟩

/-- The state after reading the inputs `l` from the state `s`. -/
def run (s : σ) (l : List ι) : σ := l.foldl (fun t i => (m.step t i).1) s

/-- The events of reading the inputs `l` from the state `s`, oldest first. -/
def history (s : σ) : List ι → List (Event σ ι ο)
  | [] => []
  | i :: l => m.event s i :: history (m.step s i).1 l

@[simp] theorem run_nil (s : σ) : m.run s [] = s := rfl

@[simp] theorem history_nil (s : σ) : m.history s [] = [] := rfl

theorem run_cons (s : σ) (i : ι) (l : List ι) :
    m.run s (i :: l) = m.run (m.step s i).1 l := rfl

theorem run_append (s : σ) (l l' : List ι) : m.run s (l ++ l') = m.run (m.run s l) l' := by
  simp [run, List.foldl_append]

theorem history_append (s : σ) (l l' : List ι) :
    m.history s (l ++ l') = m.history s l ++ m.history (m.run s l) l' := by
  induction l generalizing s with
  | nil => rfl
  | cons i l ih =>
      show m.event s i :: m.history (m.step s i).1 (l ++ l') = _
      rw [ih]
      rfl

theorem run_snoc (s : σ) (l : List ι) (i : ι) :
    m.run s (l ++ [i]) = (m.step (m.run s l) i).1 := by
  rw [run_append]
  rfl

theorem history_snoc (s : σ) (l : List ι) (i : ι) :
    m.history s (l ++ [i]) = m.history s l ++ [m.event (m.run s l) i] := by
  rw [history_append]
  rfl

variable {s : σ} {l : List ι} {e : Event σ ι ο} {P : σ → Prop} {es : List (Event σ ι ο)}
  {G : Event σ ι ο → Prop} {R : σ → σ → Prop}

/-- An event of a run is the step after a shorter run. -/
theorem exists_of_mem_history (h : e ∈ m.history s l) :
    ∃ l₁ i l₂, l = l₁ ++ i :: l₂ ∧ e = m.event (m.run s l₁) i := by
  induction l using List.reverseRecOn with
  | nil => cases h
  | append_singleton l i ih =>
      rw [history_snoc] at h
      rcases List.mem_append.mp h with h | h
      · obtain ⟨l₁, j, l₂, rfl, he⟩ := ih h
        exact ⟨l₁, j, l₂ ++ [i], by simp, he⟩
      · exact ⟨l, i, [], rfl, List.mem_singleton.mp h⟩

theorem input_mem_of_mem_history (h : e ∈ m.history s l) : e.input ∈ l := by
  obtain ⟨l₁, i, l₂, rfl, rfl⟩ := m.exists_of_mem_history h
  exact List.mem_append_right _ List.mem_cons_self

/-- **The invariant rule.** What holds initially and is kept by every step holds after every
run. -/
theorem run_invariant (h0 : P s) (hstep : ∀ t i, P t → P (m.step t i).1) (l : List ι) :
    P (m.run s l) := by
  induction l using List.reverseRecOn with
  | nil => exact h0
  | append_singleton l i ih =>
      rw [run_snoc]
      exact hstep _ i ih

/-- What holds after a run and is kept by every step holds after every longer run. -/
theorem run_after {l' : List ι} (h : P (m.run s l)) (hstep : ∀ t i, P t → P (m.step t i).1) :
    P (m.run s (l ++ l')) := by
  rw [run_append]
  exact m.run_invariant h hstep l'

/-- Every event of `es` meets `G` relative to the events before it. -/
def Guarded (G : List (Event σ ι ο) → Event σ ι ο → Prop) (es : List (Event σ ι ο)) : Prop :=
  ∀ before e after, es = before ++ e :: after → G before e

theorem guarded_snoc {G : List (Event σ ι ο) → Event σ ι ο → Prop} (h : Guarded G (es ++ [e])) :
    Guarded G es ∧ G es e := by
  refine ⟨fun before e' after he => ?_, h es e [] rfl⟩
  refine h before e' (after ++ [e]) ?_
  rw [he, List.append_assoc, List.cons_append]

/-- **The guarded history rule.** A relation between history and state that is kept by every
step meeting `G` holds after every run whose steps all meet `G`. -/
theorem guarded_induct {G : List (Event σ ι ο) → Event σ ι ο → Prop}
    {P : List (Event σ ι ο) → σ → Prop} (h0 : P [] s)
    (hstep : ∀ l i, P (m.history s l) (m.run s l) → G (m.history s l) (m.event (m.run s l) i) →
      P (m.history s l ++ [m.event (m.run s l) i]) (m.step (m.run s l) i).1) (l : List ι)
    (hG : Guarded G (m.history s l)) : P (m.history s l) (m.run s l) := by
  induction l using List.reverseRecOn with
  | nil => exact h0
  | append_singleton l i ih =>
      rw [history_snoc] at hG
      obtain ⟨hG, hlast⟩ := guarded_snoc hG
      rw [history_snoc, run_snoc]
      exact hstep l i (ih hG) hlast

/-- A split of a history is a split of the run. -/
theorem history_eq_append {before after : List (Event σ ι ο)}
    (h : m.history s l = before ++ e :: after) :
    ∃ l₁ i l₂, l = l₁ ++ i :: l₂ ∧ before = m.history s l₁ ∧ e = m.event (m.run s l₁) i := by
  induction before generalizing s l with
  | nil =>
      cases l with
      | nil => cases h
      | cons i l =>
          injection h with he _
          exact ⟨[], i, l, rfl, rfl, he.symm⟩
  | cons e' before ih =>
      cases l with
      | nil => cases h
      | cons i l =>
          injection h with he hrest
          obtain ⟨l₁, j, l₂, rfl, hbefore, rfl⟩ := ih hrest
          refine ⟨i :: l₁, j, l₂, rfl, ?_, rfl⟩
          rw [← he, hbefore]
          rfl

/-- What every step after every run meets, all events of a run meet. -/
theorem guarded_intro {G : List (Event σ ι ο) → Event σ ι ο → Prop}
    (h : ∀ l i, G (m.history s l) (m.event (m.run s l) i)) (l : List ι) :
    Guarded G (m.history s l) := by
  intro before e after he
  obtain ⟨l₁, i, l₂, -, rfl, rfl⟩ := m.history_eq_append he
  exact h l₁ i

/-- A condition on the events alone. -/
theorem guarded_of_forall (h : ∀ e ∈ es, G e) : Guarded (fun _ e => G e) es := by
  rintro before e after he
  refine h e ?_
  rw [he]
  exact List.mem_append_right _ List.mem_cons_self

/-- **The guarded invariant rule.** An invariant that is kept by every step meeting `G` holds after
every run whose steps all meet `G`. -/
theorem run_guarded (h0 : P s)
    (hstep : ∀ l i, P (m.run s l) → G (m.event (m.run s l) i) → P (m.step (m.run s l) i).1)
    (l : List ι) (hG : ∀ e ∈ m.history s l, G e) : P (m.run s l) :=
  m.guarded_induct (G := fun _ e => G e) (P := fun _ t => P t) h0 hstep l (guarded_of_forall hG)

/-- **The exact guard rule.** Where each step from a good history leads to a good history exactly when
it meets `G`, a run is good throughout exactly when all its steps meet `G`. -/
theorem always_history_iff {P : List (Event σ ι ο) → σ → Prop} (h0 : P [] s)
    (hstep : ∀ l i, P (m.history s l) (m.run s l) →
      (P (m.history s l ++ [m.event (m.run s l) i]) (m.step (m.run s l) i).1 ↔
        G (m.event (m.run s l) i))) (l : List ι) :
    (∀ l₁, l₁ <+: l → P (m.history s l₁) (m.run s l₁)) ↔ ∀ e ∈ m.history s l, G e := by
  constructor
  · intro hP e he
    obtain ⟨l₁, i, l₂, rfl, rfl⟩ := m.exists_of_mem_history he
    refine (hstep l₁ i (hP l₁ (List.prefix_append ..))).mp ?_
    rw [← run_snoc, ← history_snoc]
    exact hP (l₁ ++ [i]) ⟨l₂, by simp⟩
  · rintro hG l₁ ⟨l₂, rfl⟩
    refine m.guarded_induct (G := fun _ e => G e) h0 (fun l i hP hGi => (hstep l i hP).mpr hGi) l₁
      (guarded_of_forall fun e he => ?_)
    rw [history_append] at hG
    exact hG e (List.mem_append_left _ he)

/-- The exact guard rule for a property of the state. -/
theorem always_iff (h0 : P s)
    (hstep : ∀ l i, P (m.run s l) → (P (m.step (m.run s l) i).1 ↔ G (m.event (m.run s l) i)))
    (l : List ι) : (∀ l₁, l₁ <+: l → P (m.run s l₁)) ↔ ∀ e ∈ m.history s l, G e :=
  m.always_history_iff (P := fun _ t => P t) h0 hstep l

/-- **The history rule.** -/
theorem history_induct {P : List (Event σ ι ο) → σ → Prop} (h0 : P [] s)
    (hstep : ∀ l i, P (m.history s l) (m.run s l) →
      P (m.history s l ++ [m.event (m.run s l) i]) (m.step (m.run s l) i).1) (l :
    List ι) : P (m.history s l) (m.run s l) :=
  m.guarded_induct (G := fun _ _ => True) h0 (fun l i h _ => hstep l i h) l
    (fun _ _ _ _ => trivial)

/-! ## Trails

The states a step passes through, when it is made of smaller moves. -/

/-- `b` is reached from `a` by moves of `R` through the states `bs`, the last of which is `b`. -/
inductive Trail (R : σ → σ → Prop) : σ → List σ → σ → Prop where
  | nil (a : σ) : Trail R a [] a
  | cons {a b c : σ} {bs : List σ} (h : R a b) (t : Trail R b bs c) : Trail R a (b :: bs) c

variable {m}

theorem Trail.single {a b : σ} (h : R a b) : Trail R a [b] b :=
  .cons h (.nil b)

/-- What every move keeps, a trail keeps. -/
theorem Trail.induct {a b : σ} {bs : List σ} (h : Trail R a bs b) (hmove : ∀ x y, P x → R x y → P y)
    (ha : P a) : P b := by
  induction h with
  | nil a => exact ha
  | cons hR _ ih => exact ih (hmove _ _ ha hR)

/-! ## Components

A machine with a component that moves by the steps of a second machine, or not at all, has
runs that project to runs of the second machine. -/

/-- `π` is a component of `m` that moves as `m'` on the inputs `comp` selects, and stays put on
the others. -/
def Component {σ' ι' ο' : Type} (m' : Machine σ' ι' ο') (π : σ → σ') (comp : ι → Option ι') :
    Prop :=
  ∀ s i, π (m.step s i).1 = m'.run (π s) (comp i).toList

theorem Component.run {σ' ι' ο' : Type} {m : Machine σ ι ο} {m' : Machine σ' ι' ο'} {π : σ → σ'}
    {comp : ι → Option ι'} (h : m.Component m' π comp) (s : σ) (l : List ι) :
    π (m.run s l) = m'.run (π s) (l.flatMap fun i => (comp i).toList) := by
  induction l generalizing s with
  | nil => rfl
  | cons i l ih =>
      rw [run_cons, ih, h s i, List.flatMap_cons, run_append]

end Machine

end VerdantBond
