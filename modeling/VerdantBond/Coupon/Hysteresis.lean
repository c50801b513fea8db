import VerdantBond.Coupon.Covenants
import VerdantBond.Lib.Streaks

set_option autoImplicit false

/-! # CouponEngine: what a covenant's hysteresis means on a trace

`transition` keeps two capped counters and a flag. Over a sequence of observations the counters are
the streaks the sequence ends in, up to their caps (`Tracks`), and the flag says that a streak of
`breach_cycles` breaches was not followed by one of `recovery_cycles` clean observations
(`SteppedDownBy`). Both are carried along the sequence, one observation at a time.
-/

namespace VerdantBond

/-- What one cycle observes. -/
structure CovenantObservation where
  performance : Int
  funding : Int
  periodEnd : Nat

namespace CovenantConfig

variable (config : CovenantConfig)

/-- Either threshold is missed; equality is clean. -/
def Breached (o : CovenantObservation) : Prop :=
  o.performance < config.minPerformance ∨ o.funding < config.minRedemptionFunding

def Clean (o : CovenantObservation) : Prop := ¬ config.Breached o

/-- The state after a sequence of observations, from the initial state. -/
def observedState (os : List CovenantObservation) : CovenantState :=
  os.foldl (fun s o => (config.transition s o.performance o.funding o.periodEnd).1) ⟨false, 0, 0, 0⟩

/-- `breach_cycles` consecutive breaches, with no `recovery_cycles` consecutive clean observations
anywhere after them. -/
def SteppedDownBy (os : List CovenantObservation) : Prop :=
  ∃ before breaches after, os = before ++ breaches ++ after ∧
    breaches.length = config.breachCycles ∧ (∀ o ∈ breaches, config.Breached o) ∧
    ¬ HasRun config.Clean config.recoveryCycles after

variable {config} {os : List CovenantObservation} {o : CovenantObservation}

theorem observedState_concat : config.observedState (os ++ [o]) =
    (config.transition (config.observedState os) o.performance o.funding o.periodEnd).1 := by
  simp [observedState]

theorem steppedDownBy_iff : config.SteppedDownBy os ↔ ∃ start rest, os = start ++ rest ∧
    (EndsInRun config.Breached config.breachCycles start ∧
      ¬ HasRun config.Clean config.recoveryCycles rest) := by
  constructor
  · rintro ⟨before, breaches, after, rfl, hlen, hall, hnot⟩
    exact ⟨_, after, rfl, ⟨before, breaches, rfl, hlen, hall⟩, hnot⟩
  · rintro ⟨_, after, rfl, ⟨before, breaches, rfl, hlen, hall⟩, hnot⟩
    exact ⟨before, breaches, after, rfl, hlen, hall, hnot⟩

/-! ## One more observation -/

/-- A breach steps down if it completes a streak, and otherwise leaves the terms. -/
theorem steppedDownBy_concat_of_breached (hr : 1 ≤ config.recoveryCycles) (ho : config.Breached o) :
    config.SteppedDownBy (os ++ [o]) ↔
      EndsInRun config.Breached config.breachCycles (os ++ [o]) ∨ config.SteppedDownBy os := by
  obtain ⟨r, hr⟩ := Nat.exists_eq_succ_of_ne_zero (Nat.one_le_iff_ne_zero.mp hr)
  have hclean : ¬ config.Clean o := not_not.mpr ho
  rw [steppedDownBy_iff, steppedDownBy_iff, exists_split_concat, hr]
  simp [hasRun_concat, hclean]

/-- A clean observation resumes if it completes a streak, and otherwise leaves the terms: a streak
of clean observations cannot reach back over the breaches that stepped down. -/
theorem steppedDownBy_concat_of_clean (hb : 1 ≤ config.breachCycles) (ho : config.Clean o) :
    config.SteppedDownBy (os ++ [o]) ↔
      ¬ EndsInRun config.Clean config.recoveryCycles (os ++ [o]) ∧ config.SteppedDownBy os := by
  obtain ⟨b, hb⟩ := Nat.exists_eq_succ_of_ne_zero (Nat.one_le_iff_ne_zero.mp hb)
  have hnot : ¬ config.Breached o := ho
  rw [steppedDownBy_iff, steppedDownBy_iff, exists_split_concat, hb]
  constructor
  · rintro (⟨h, -⟩ | ⟨start, rest, rfl, hend, hrun⟩)
    · exact absurd (endsInRun_concat.mp h).1 hnot
    · rw [hasRun_concat, not_or] at hrun
      refine ⟨fun h => hrun.1 ?_, start, rest, rfl, hend, hrun.2⟩
      rw [List.append_assoc] at h
      exact EndsInRun.of_append (fun _ hx => hx) hend h
  · rintro ⟨hend, start, rest, rfl, hstart, hrun⟩
    refine .inr ⟨start, rest, rfl, hstart, ?_⟩
    rw [hasRun_concat, not_or]
    refine ⟨fun h => hend ?_, hrun⟩
    rw [List.append_assoc]
    exact h.append_left

/-! ## The invariant -/

/-- A counter that is capped at `cap` counts the streak the sequence ends in. -/
def Tracks (p : CovenantObservation → Prop) (cap counter : Nat) (os : List CovenantObservation) :
    Prop :=
  ∀ n ≤ cap, n ≤ counter ↔ EndsInRun p n os

variable {p : CovenantObservation → Prop} {cap : Nat}

theorem Tracks.concat {counter : Nat} (hp : p o) (hcap : cap ≤ u32Max) (h : Tracks p cap counter os) :
    Tracks p cap (min (min (counter + 1) u32Max) cap) (os ++ [o]) := by
  intro n hn
  cases n with
  | zero => simp
  | succ n =>
      rw [endsInRun_concat, ← h n (by omega)]
      simp only [hp, true_and]
      omega

theorem Tracks.reset (hp : ¬ p o) : Tracks p cap 0 (os ++ [o]) := by
  intro n _
  cases n with
  | zero => simp
  | succ n => simp [hp]

/-- What the state says about the sequence that led to it. -/
structure Reflects (config : CovenantConfig) (os : List CovenantObservation) (s : CovenantState) :
    Prop where
  breaches : Tracks config.Breached config.breachCycles s.consecutiveBreaches os
  clean : Tracks config.Clean config.recoveryCycles s.consecutiveClean os
  exclusive : s.consecutiveBreaches = 0 ∨ s.consecutiveClean = 0
  flag : s.steppedDown = true ↔ config.SteppedDownBy os

theorem reflects_observedState (hb : 1 ≤ config.breachCycles) (hr : 1 ≤ config.recoveryCycles)
    (hb' : config.breachCycles ≤ u32Max) (hr' : config.recoveryCycles ≤ u32Max) :
    config.Reflects os (config.observedState os) := by
  induction os using List.reverseRecOn with
  | nil =>
      have hnil : ∀ {p : CovenantObservation → Prop} {cap : Nat}, Tracks p cap 0 [] := by
        intro p cap n _
        cases n with
        | zero => simp
        | succ n => simp
      refine ⟨hnil, hnil, .inl rfl, ?_⟩
      obtain ⟨b, hb⟩ := Nat.exists_eq_succ_of_ne_zero (Nat.one_le_iff_ne_zero.mp hb)
      constructor
      · intro h
        cases h
      · rintro ⟨before, breaches, after, h, hlen, -⟩
        simp_all
  | append_singleton os o ih =>
      rw [observedState_concat]
      -- the flag changes exactly when the new counter reaches its cap, that is, ends a streak
      by_cases ho : config.Breached o
      · have htracks := ih.breaches.concat ho hb'
        rw [transition, if_pos (by exact ho)]
        refine ⟨htracks, .reset (not_not.mpr ho), .inr rfl, ?_⟩
        rw [steppedDownBy_concat_of_breached hr ho, ← htracks _ le_rfl, ← ih.flag]
        generalize min (min _ u32Max) _ = counter
        by_cases hle : config.breachCycles ≤ counter <;> simp [hle]
      · have hclean : config.Clean o := ho
        have htracks := ih.clean.concat hclean hr'
        rw [transition, if_neg (by exact ho)]
        refine ⟨.reset ho, htracks, .inl rfl, ?_⟩
        rw [steppedDownBy_concat_of_clean hb hclean, ← htracks _ le_rfl, ← ih.flag]
        generalize min (min _ u32Max) _ = counter
        by_cases hle : config.recoveryCycles ≤ counter <;> simp [hle]

/-- **The documented meaning of a covenant**, for every configuration (both thresholds are `u32`)
and every sequence of observations. -/
theorem steppedDown_iff_trace (config : CovenantConfig) (hb : 1 ≤ config.breachCycles)
    (hr : 1 ≤ config.recoveryCycles) (hb' : config.breachCycles ≤ u32Max)
    (hr' : config.recoveryCycles ≤ u32Max) (os : List CovenantObservation) :
    ((config.observedState os).steppedDown = true ↔ config.SteppedDownBy os) ∧
      ¬ (0 < (config.observedState os).consecutiveBreaches ∧
        0 < (config.observedState os).consecutiveClean) := by
  have h : Reflects config os (config.observedState os) := reflects_observedState hb hr hb' hr'
  refine ⟨h.flag, ?_⟩
  have := h.exclusive
  omega

/-- Two breaches step down; one clean observation after them is not enough to resume. -/
theorem steppedDown_iff_trace_held :
    let config : CovenantConfig := ⟨10, 0, 2, 2, 5000⟩
    let os : List CovenantObservation := [⟨9, 0, 1⟩, ⟨8, 0, 2⟩, ⟨10, 0, 3⟩]
    (config.observedState os).steppedDown = true ∧ config.SteppedDownBy os :=
  ⟨by decide, (steppedDown_iff_trace ⟨10, 0, 2, 2, 5000⟩ (by decide) (by decide) (by decide)
    (by decide) _).1.mp (by decide)⟩

end CovenantConfig

end VerdantBond
