import VerdantBond.Lib.Machine

set_option autoImplicit false

/-! # Checkpoints around side effects

`SideEffectCheckpointService` writes a checkpoint before and after an external effect. The effect may
land or not, and the call that makes it may return or throw in either case, so the checkpoint is only
what the service believes. `resume` looks at it before it executes anything again; `run` does not
(`landed_executed_again`). Where `run` is called for new and failed effects only, and a throw without a
probe means that nothing landed, an effect that landed is never executed again (`never_executed_again`).
-/

namespace VerdantBond

inductive SideEffectState where
  | started | applied | failed | unknown | verified
deriving DecidableEq

/-- How a call of `execute` ends. -/
inductive ExecuteResult where
  | returns
  | throws
  /-- The process ends before the call does. -/
  | dies
deriving DecidableEq

structure SideEffectExecution where
  lands : Bool
  result : ExecuteResult
deriving DecidableEq

/-- The optional probe: it tells whether the effect has landed, or throws. -/
inductive SideEffectProbe where
  | absent | answers | throws
deriving DecidableEq

/-- One key: its checkpoint, and whether its effect has landed. -/
structure SideEffect where
  checkpoint : Option SideEffectState
  landed : Bool
deriving DecidableEq

namespace SideEffect

/-- `resolveAmbiguous`, with the effect as the probe finds it. -/
def resolve (landed : Bool) : SideEffectProbe → SideEffectState
  | .absent => .failed
  | .answers => if landed then .verified else .failed
  | .throws => .unknown

/-- The checkpoint is overwritten whatever it was. -/
def run (s : SideEffect) (x : SideEffectExecution) (probe : SideEffectProbe) : SideEffect :=
  let landed := s.landed || x.lands
  let state :=
    match x.result with
    | .returns => .applied
    | .throws => resolve landed probe
    | .dies => .started
  ⟨some state, landed⟩

/-- The effect after `resume`, and whether it called `execute`. -/
def resume (s : SideEffect) (x : SideEffectExecution) (probe : SideEffectProbe) : SideEffect × Bool :=
  match s.checkpoint with
  | none | some .applied | some .verified => (s, false)
  | some .failed => (s.run x probe, true)
  | some .started | some .unknown =>
      match probe with
      | .absent | .throws => ({ s with checkpoint := some .unknown }, false)
      | .answers =>
          if s.landed then ({ s with checkpoint := some .verified }, false) else (s.run x probe, true)

end SideEffect

inductive SideEffectCall where
  | run (x : SideEffectExecution) (probe : SideEffectProbe)
  | resume (x : SideEffectExecution) (probe : SideEffectProbe)

/-- A call answers whether it executed the effect. -/
def sideEffectMachine : Machine SideEffect SideEffectCall Bool where
  step s
    | .run x probe => (s.run x probe, true)
    | .resume x probe => s.resume x probe

abbrev SideEffectEvent := Event SideEffect SideEffectCall Bool

/-- Nothing is executed whose effect has landed, or whose checkpoint says so. -/
def ExecutedOnce (e : SideEffectEvent) : Prop :=
  e.output = true → e.pre.landed = false ∧ e.pre.checkpoint ≠ some .applied ∧
    e.pre.checkpoint ≠ some .verified

/-- `run` is called for a new effect or a failed one. -/
def RunsUnfinished (e : SideEffectEvent) : Prop :=
  ∀ x probe, e.input = .run x probe → e.pre.checkpoint = none ∨ e.pre.checkpoint = some .failed

/-- An execution that throws and has no probe did not land. -/
def ThrowsCleanly (e : SideEffectEvent) : Prop :=
  ∀ x, e.input = .run x .absent ∨ e.input = .resume x .absent → x.result = .throws → x.lands = false

/-- A checkpoint that invites an execution tells the truth. -/
def Truthful (s : SideEffect) : Prop :=
  s.checkpoint = none ∨ s.checkpoint = some .failed → s.landed = false

theorem truthful_run {s : SideEffect} {x : SideEffectExecution} {probe : SideEffectProbe}
    (h : s.landed = false) (hx : probe = .absent → x.result = .throws → x.lands = false) :
    Truthful (s.run x probe) := by
  obtain ⟨lands, result⟩ := x
  cases result <;> cases probe <;> cases lands <;>
    simp_all [Truthful, SideEffect.run, SideEffect.resolve]

theorem sideEffect_step {s : SideEffect} (h : Truthful s) (call : SideEffectCall)
    (hruns : RunsUnfinished (sideEffectMachine.event s call))
    (hthrows : ThrowsCleanly (sideEffectMachine.event s call)) :
    Truthful (sideEffectMachine.step s call).1 ∧ ExecutedOnce (sideEffectMachine.event s call) := by
  cases call with
  | run x probe =>
      have hnew := hruns x probe rfl
      have hlanded : s.landed = false := h hnew
      refine ⟨truthful_run hlanded fun hprobe => hthrows x (.inl (by rw [hprobe]; rfl)), fun _ => ?_⟩
      refine ⟨hlanded, ?_, ?_⟩
      all_goals rcases hnew with hnew | hnew
      all_goals exact fun hdone => by cases hnew.symm.trans hdone
  | resume x probe =>
      have hclean : probe = .absent → x.result = .throws → x.lands = false := fun hprobe =>
        hthrows x (.inr (by rw [hprobe]; rfl))
      have hunfailed : ∀ (state : SideEffectState) landed, state ≠ .failed →
          Truthful ⟨some state, landed⟩ := fun state landed hne hfailed => by simp [hne] at hfailed
      obtain ⟨checkpoint, landed⟩ := s
      cases checkpoint with
      | none => exact ⟨h, fun hexecuted => by cases hexecuted⟩
      | some state =>
          cases state with
          | applied | verified => exact ⟨h, fun hexecuted => by cases hexecuted⟩
          | failed =>
              have hlanded : landed = false := h (.inr rfl)
              refine ⟨truthful_run hlanded hclean, fun _ => ⟨hlanded, ?_, ?_⟩⟩ <;> simp [Machine.event]
          | started | unknown =>
              cases probe with
              | absent | throws =>
                  exact ⟨hunfailed _ _ (by decide), fun hexecuted => by cases hexecuted⟩
              | answers =>
                  -- the probe sees whether the effect has landed
                  cases landed with
                  | true => exact ⟨hunfailed _ _ (by decide), fun hexecuted => by cases hexecuted⟩
                  | false =>
                      refine ⟨truthful_run rfl hclean, fun _ => ⟨rfl, ?_, ?_⟩⟩ <;> simp [Machine.event]

/-- **An effect that has landed, or is taken for applied, is never executed again** in a run of calls
in which `run` is called only for new and failed effects and an execution that throws without a probe
did not land. -/
theorem never_executed_again (calls : List SideEffectCall)
    (hruns : ∀ e ∈ sideEffectMachine.history ⟨none, false⟩ calls, RunsUnfinished e)
    (hthrows : ∀ e ∈ sideEffectMachine.history ⟨none, false⟩ calls, ThrowsCleanly e) :
    ∀ e ∈ sideEffectMachine.history ⟨none, false⟩ calls, ExecutedOnce e := by
  refine (sideEffectMachine.guarded_induct (G := fun _ e => RunsUnfinished e ∧ ThrowsCleanly e)
    (P := fun es s => Truthful s ∧ ∀ e ∈ es, ExecutedOnce e) ?_ ?_ calls
    (Machine.guarded_of_forall fun e he => ⟨hruns e he, hthrows e he⟩)).2
  · exact ⟨fun _ => rfl, fun e he => absurd he List.not_mem_nil⟩
  · rintro l call ⟨htruthful, hall⟩ ⟨hrun, hthrow⟩
    obtain ⟨htruthful', honce⟩ := sideEffect_step htruthful call hrun hthrow
    exact ⟨htruthful', List.forall_mem_append.mpr ⟨hall, List.forall_mem_singleton.mpr honce⟩⟩

namespace SideEffects

/-- For each call: whether the effect had landed, the checkpoint before, and whether it is executed. -/
def course (calls : List SideEffectCall) : List (Bool × Option SideEffectState × Bool) :=
  (sideEffectMachine.history ⟨none, false⟩ calls).map fun e =>
    (e.pre.landed, e.pre.checkpoint, e.output)

def landsAndReturns : SideEffectExecution := ⟨true, .returns⟩

def landsAndThrows : SideEffectExecution := ⟨true, .throws⟩

def probed : List SideEffectCall :=
  [.run ⟨false, .throws⟩ .absent, .resume landsAndThrows .throws, .resume landsAndReturns .absent,
   .resume landsAndReturns .answers]

end SideEffects

open SideEffects in
theorem landed_executed_again :
    course [.run landsAndReturns .answers, .run landsAndReturns .answers] =
        [(false, none, true), (true, some .applied, true)] ∧
      course [.run landsAndThrows .absent, .resume landsAndReturns .answers] =
        [(false, none, true), (true, some .failed, true)] := by
  decide

open SideEffects in
theorem never_executed_again_sample :
    course probed = [(false, none, true), (false, some .failed, true), (true, some .unknown, false),
      (true, some .unknown, false)] ∧
      ∀ e ∈ sideEffectMachine.history ⟨none, false⟩ probed, ExecutedOnce e := by
  refine ⟨by decide, never_executed_again probed ?_ ?_⟩
  all_goals
    intro e he
    simp only [probed, Machine.history, List.mem_cons, List.not_mem_nil, or_false] at he
    rcases he with rfl | rfl | rfl | rfl
  · exact fun x probe _ => .inl rfl
  all_goals simp [RunsUnfinished, ThrowsCleanly, Machine.event, landsAndThrows, landsAndReturns]

end VerdantBond
