import VerdantBond.Oracle.State

set_option autoImplicit false

/-! # OracleConsumer: slashing and aggregation

A slash takes ten percent of a stake and records it. `aggregate_project_reports` sorts the values
that active providers reported for one project and period, takes their trimmed mean and slashes the
providers that are too far from it. Its arithmetic is not checked: the host aborts on overflow.
-/

namespace VerdantBond

open Function

namespace OracleConsumer

/-! ## Slashing -/

/-- The penalty of a slash: ten percent, or all of a stake too small for that. -/
def slashPenalty (stake : Int) : Outcome OracleError Int := do
  let scaled ← orTrap (i128 (stake * slashPenaltyPpm))
  let share := scaled.tdiv 1000000
  let penalty := if share ≤ 0 then stake else share
  pure (if stake < penalty then stake else penalty)

variable (clock : Clock) (s : OracleConsumer)

/-- The internal `slash_provider`. -/
def slash (provider : Address) (reportId : Nat) : Outcome OracleError OracleConsumer := do
  let p ← okOr (s.provider provider) .providerNotFound
  let penalty ← slashPenalty p.stake
  let stake ← orTrap (i128 (p.stake - penalty))
  let active := if stake = 0 then false else p.active
  pure
    { s.setProvider provider { p with stake := stake, active := active } with
      slashHistory := update s.slashHistory provider
        (s.slashHistory provider ++ [⟨reportId, penalty, stake, clock.timestamp, active⟩]) }

/-- `let _ = slash_provider(..)`: an error is dropped, an abort is not. -/
def slashQuietly (provider : Address) (reportId : Nat) : Outcome OracleError OracleConsumer :=
  match s.slash clock provider reportId with
  | .ok s' => .ok s'
  | .error (.err _) => .ok s
  | .error .trap => .error .trap

/-- The penalty of a challenger whose challenge was not upheld, if it is a provider. -/
def slashChallenger (challenger : Address) : Outcome OracleError OracleConsumer :=
  match s.provider challenger with
  | none => pure s
  | some p => do
      let scaled ← orTrap (i128 (p.stake * slashPenaltyPpm))
      let stake := max i128Min (min i128Max (p.stake - scaled.tdiv 1000000))
      pure (s.setProvider challenger { p with stake := stake })

/-! ## Sorting -/

/-- The inner loop: the place of the smallest value from `i` on. -/
def minIndex (arr : List Int) (i : Nat) : Nat :=
  (List.range' (i + 1) (arr.length - (i + 1))).foldl
    (fun m j => if arr.getD j 0 < arr.getD m 0 then j else m) i

/-- One round of the outer loop: the smallest value from `i` on moves to `i`. -/
def swapMin (arr : List Int) (i : Nat) : List Int :=
  let m := minIndex arr i
  if m ≠ i then (arr.set i (arr.getD m 0)).set m (arr.getD i 0) else arr

def sortValues (values : List Int) : List Int := (List.range values.length).foldl swapMin values

/-! ## Aggregation -/

/-- The reports of the project and period from active providers, in the order of submission: id,
provider and value. -/
def matchingReports (projectId : Bytes32) (periodStart periodEnd : Nat) :
    List (Nat × Address × Int) :=
  (s.projectReports projectId).filterMap fun reportId => do
    let r ← s.report reportId
    let p ← s.provider r.provider
    if r.periodStart = periodStart ∧ r.periodEnd = periodEnd ∧ p.active = true then
      some (reportId, r.provider, r.carbonSequestered)
    else none

/-- The trimmed mean of the sorted values. -/
def aggregateScore (arr : List Int) : Outcome OracleError Int :=
  if arr.length = 2 then do
    let sum ← orTrap (i128 (arr.getD 0 0 + arr.getD 1 0))
    pure (sum.tdiv 2)
  else if arr.length = 3 then pure (arr.getD 1 0)
  else if 3 < arr.length then do
    let sum ← ((arr.drop 1).take (arr.length - 2)).foldlM
      (fun sum value => orTrap (i128 (sum + value))) 0
    pure (sum.tdiv ((arr.length - 2 : Nat) : Int))
  else orTrap arr.head?

/-- How far a value is from the aggregate, in basis points of the aggregate. -/
def deviationBps (value aggregate : Int) : Outcome OracleError Int := do
  let difference ← orTrap (i128 (value - aggregate))
  let diff ← orTrap (i128 |difference|)
  if 0 < aggregate then do
    let scaled ← orTrap (i128 (diff * 10000))
    pure (scaled.tdiv aggregate)
  else pure 0

/-- One round of the slashing loop. -/
def slashOutlier (aggregate : Int) (s : OracleConsumer) (item : Nat × Address × Int) :
    Outcome OracleError OracleConsumer := do
  let deviation ← deviationBps item.2.2 aggregate
  if maxAllowedDeviationBps < deviation then s.slashQuietly clock item.2.1 item.1 else pure s

/-- `aggregate_project_reports`. -/
def aggregateProjectReports (env : Env) (clock : Clock) (s : OracleConsumer) (caller : Address)
    (projectId : Bytes32) (periodStart periodEnd nonce : Nat) :
    Outcome OracleError (OracleConsumer × Int) := do
  requireAuth env caller
  let s₁ ← s.consumeNonce caller nonce
  let items := s.matchingReports projectId periodStart periodEnd
  reject (items.length < s.minimumQuorum) .insufficientQuorum
  let score ← aggregateScore (sortValues (items.map fun item => item.2.2))
  let s₂ ← items.foldlM (slashOutlier clock score) s₁
  pure (s₂, score)

end OracleConsumer

end VerdantBond
