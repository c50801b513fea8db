import VerdantBond.Oracle.Aggregation
import VerdantBond.Lib.Machine

set_option autoImplicit false

/-! # OracleConsumer: entry points and runs

The life of a report: a provider submits it, qualifying addresses verify it until the threshold is
met, anyone may challenge it within its window, and the admin resolves the challenge. A call that
fails leaves the state as it was: the host discards its writes.
-/

namespace VerdantBond

open Function

/-- The arguments of `submit_report`. -/
structure ReportSubmission where
  provider : Address
  projectId : Bytes32
  periodStart : Nat
  periodEnd : Nat
  carbonSequestered : Int
  biodiversity : BiodiversityMetrics
  methodology : Symbol
  ipfsEvidenceHash : Bytes32
  nonce : Nat
  deriving DecidableEq, Repr

/-- A metric below zero. -/
def BiodiversityMetrics.Negative : BiodiversityMetrics → Prop
  | .absent => False
  | .present habitat species units => habitat < 0 ∨ species < 0 ∨ units < 0

instance BiodiversityMetrics.decidableNegative : DecidablePred BiodiversityMetrics.Negative :=
  fun metrics =>
    match metrics with
    | .absent => inferInstanceAs (Decidable False)
    | .present .. => inferInstanceAs (Decidable (_ ∨ _))

/-- The report covers part of the period of an earlier one of the same provider and methodology.
Periods are half-open. -/
def ReportSubmission.Overlaps (sub : ReportSubmission) (existing : StoredReport) : Prop :=
  existing.provider = sub.provider ∧ existing.methodology = sub.methodology ∧
    sub.periodStart < existing.periodEnd ∧ existing.periodStart < sub.periodEnd

instance ReportSubmission.decidableOverlaps (sub : ReportSubmission) (existing : StoredReport) :
    Decidable (sub.Overlaps existing) :=
  inferInstanceAs (Decidable (_ ∧ _))

/-- The report a submission makes. -/
def ReportSubmission.report (sub : ReportSubmission) (clock : Clock) (reportId : Nat) :
    StoredReport where
  id := reportId
  projectId := sub.projectId
  periodStart := sub.periodStart
  periodEnd := sub.periodEnd
  carbonSequestered := sub.carbonSequestered
  biodiversity := sub.biodiversity
  methodology := sub.methodology
  status := .pending
  provider := sub.provider
  ipfsEvidenceHash := sub.ipfsEvidenceHash
  submittedAt := clock.timestamp
  verifiedAt := 0
  providerStakeAtVerification := none

/-- The time from which the challenge window of a report runs. -/
def StoredReport.referenceTime (r : StoredReport) : Nat :=
  if r.status = .verified then r.verifiedAt else r.submittedAt

namespace OracleConsumer

/-! ## Providers -/

variable (env : Env) (clock : Clock) (s : OracleConsumer)

/-- `set_admin`. -/
def setAdmin (currentAdmin newAdmin : Address) (nonce : Nat) :
    Outcome OracleError OracleConsumer := do
  let s₁ ← s.asAdmin env currentAdmin nonce
  pure { s₁ with admin := some newAdmin }

/-- `register_provider`. -/
def registerProvider (caller provider : Address) (methodology : Symbol) (nonce : Nat) :
    Outcome OracleError OracleConsumer := do
  let s₁ ← s.asAdmin env caller nonce
  reject ((s.provider provider).isSome = true) .providerAlreadyExists
  pure
    { s₁.setProvider provider ⟨provider, methodology, 0, true, clock.timestamp⟩ with
      providerList := s.providerList ++ [provider] }

/-- `remove_provider`. -/
def removeProvider (caller provider : Address) (nonce : Nat) :
    Outcome OracleError OracleConsumer := do
  let s₁ ← s.asAdmin env caller nonce
  let p ← okOr (s.provider provider) .providerNotFound
  pure (s₁.setProvider provider { p with active := false })

/-- `add_stake`. -/
def addStake (provider : Address) (amount : Int) (nonce : Nat) :
    Outcome OracleError OracleConsumer := do
  requireAuth env provider
  let s₁ ← s.consumeNonce provider nonce
  reject (amount ≤ 0) .insufficientStake
  let p ← okOr (s.provider provider) .providerNotFound
  let stake ← okOr (i128 (p.stake + amount)) .insufficientStake
  pure (s₁.setProvider provider { p with stake := stake })

/-- `withdraw_stake`. -/
def withdrawStake (provider : Address) (amount : Int) (nonce : Nat) :
    Outcome OracleError OracleConsumer := do
  requireAuth env provider
  let s₁ ← s.consumeNonce provider nonce
  reject (amount ≤ 0) .insufficientStake
  let p ← okOr (s.provider provider) .providerNotFound
  reject (p.stake < amount) .insufficientStake
  let stake ← orTrap (i128 (p.stake - amount))
  pure (s₁.setProvider provider { p with stake := stake })

/-- `slash_provider`. It asks for no authorization, and checks the admin before the nonce. -/
def slashProvider (admin provider : Address) (reportId nonce : Nat) :
    Outcome OracleError OracleConsumer := do
  s.requireAdmin admin
  let s₁ ← s.consumeNonce admin nonce
  s₁.slash clock provider reportId

/-! ## Reports -/

/-- The loop of `submit_report` over the reports of the project. -/
def checkOverlaps (s : OracleConsumer) (sub : ReportSubmission) :
    List Nat → Outcome OracleError Unit
  | [] => pure ()
  | existingId :: rest => do
      let existing ← okOr (s.report existingId) .reportNotFound
      reject (sub.Overlaps existing) .overlappingReportPeriod
      s.checkOverlaps sub rest

/-- `submit_report`, with the id of the report. -/
def submitReport (sub : ReportSubmission) : Outcome OracleError (OracleConsumer × Nat) := do
  requireAuth env sub.provider
  let s₁ ← s.consumeNonce sub.provider sub.nonce
  let p ← okOr (s.provider sub.provider) .providerNotFound
  reject (p.active = false) .unauthorized
  reject (sub.periodEnd ≤ sub.periodStart ∨ sub.carbonSequestered < 0) .invalidSignature
  reject sub.biodiversity.Negative .invalidSignature
  s.checkOverlaps sub (s.projectReports sub.projectId)
  let reportId ← orTrap (u64 (s.reportCount + 1))
  let submitted ← orTrap (u64 (s.providerReportCount sub.provider + 1))
  pure
    ({ s₁.setReport reportId (sub.report clock reportId) with
        reportCount := reportId
        projectReports := update s.projectReports sub.projectId
          (s.projectReports sub.projectId ++ [reportId])
        providerReportCount := update s.providerReportCount sub.provider submitted }, reportId)

/-- The caller of `verify_report` is the admin, or an active provider with the minimum stake. -/
def requireVerifier (caller : Address) : Outcome OracleError Unit :=
  if s.IsAdmin caller then pure ()
  else do
    let p ← okOr (s.provider caller) .unauthorized
    reject (p.active = false ∨ p.stake < s.minimumVerifierStake) .unauthorized

/-- The verifiers of the report with the caller among them. -/
def verifiersWith (reportId : Nat) (caller : Address) : List Address :=
  if caller ∈ s.reportVerifiers reportId then s.reportVerifiers reportId
  else s.reportVerifiers reportId ++ [caller]

/-- Record the caller as a verifier. The stored count is only written for a new verifier. -/
def recordVerifier (reportId : Nat) (caller : Address) : OracleConsumer :=
  if caller ∈ s.reportVerifiers reportId then s
  else
    { s with
      reportVerifiers := update s.reportVerifiers reportId (s.verifiersWith reportId caller)
      verificationCount := update s.verificationCount reportId
        (s.qualifyingVerifierCount (s.verifiersWith reportId caller)) }

/-- The report as a verification leaves it. -/
def markVerified (r : StoredReport) : StoredReport :=
  { r with
    status := .verified
    verifiedAt := clock.timestamp
    providerStakeAtVerification := some (((s.provider r.provider).map OracleProvider.stake).getD 0) }

/-- `verify_report`. A report that is already verified is not turned away. -/
def verifyReport (caller : Address) (reportId nonce : Nat) :
    Outcome OracleError OracleConsumer := do
  requireAuth env caller
  let s₁ ← s.consumeNonce caller nonce
  let r ← okOr (s.report reportId) .reportNotFound
  reject (r.status = .challenged ∨ r.status = .rejected) .reportAlreadyVerified
  reject ((s.challenge reportId).isSome = true) .reportAlreadyVerified
  reject (caller = r.provider) .invalidSignature
  s.requireVerifier caller
  let s₂ := s₁.recordVerifier reportId caller
  if s.signatureThreshold ≤ s.qualifyingVerifierCount (s.verifiersWith reportId caller) then
    pure
      { s₂.setReport reportId (s.markVerified clock r) with
        projectLastVerifiedAt :=
          update s₂.projectLastVerifiedAt r.projectId (some clock.timestamp) }
  else pure s₂

/-! ## Challenges -/

/-- The bond check of `challenge_report`. -/
def requireDisputeBond (challenger : Address) : Outcome OracleError Unit :=
  reject (0 < s.minimumDisputeBond ∧ ¬ s.IsAdmin challenger ∧
    ((s.provider challenger).map OracleProvider.stake).getD 0 < s.minimumDisputeBond)
    .disputeBondInsufficient

/-- `challenge_report`. -/
def challengeReport (challenger : Address) (reportId : Nat) (counterEvidenceHash : Bytes32)
    (nonce : Nat) : Outcome OracleError OracleConsumer := do
  requireAuth env challenger
  let s₁ ← s.consumeNonce challenger nonce
  let r ← okOr (s.report reportId) .reportNotFound
  reject (r.status ≠ .pending ∧ r.status ≠ .verified) .reportAlreadyVerified
  s.requireDisputeBond challenger
  reject (s.challengeWindow < clock.timestamp - r.referenceTime) .challengeWindowExpired
  reject ((s.challenge reportId).isSome = true) .providerAlreadyExists
  let s₂ := s₁.setChallenge reportId
    ⟨reportId, challenger, counterEvidenceHash, clock.timestamp, false, 0⟩
  let s₃ := s₂.setReport reportId { r with status := .challenged }
  let s₄ := s₃.setProjectDisputed r.projectId true
  pure
    { s₄ with
      providerChallenges := update s.providerChallenges r.provider
        (s.providerChallenges r.provider ++ [reportId]) }

/-- `resolve_challenge`. A challenge that was resolved before is left alone, with success. -/
def resolveChallenge (caller : Address) (reportId : Nat) (resolution : ReportStatus) (nonce : Nat) :
    Outcome OracleError OracleConsumer := do
  let s₁ ← s.asAdmin env caller nonce
  reject (resolution ≠ .verified ∧ resolution ≠ .rejected) .invalidResolution
  let c ← okOr (s.challenge reportId) .reportNotFound
  if c.resolved = true then pure s₁
  else do
    let s₂ := s₁.setChallenge reportId { c with resolved := true, resolution := resolution.code }
    let r ← okOr (s.report reportId) .reportNotFound
    let s₃ := s₂.setReport reportId { r with status := resolution }
    let s₄ := s₃.setProjectDisputed r.projectId false
    if resolution = .rejected then s₄.slash clock r.provider reportId
    else s₄.slashChallenger c.challenger

/-! ## Settings -/

/-- `set_minimum_quorum`. -/
def setMinimumQuorum (caller : Address) (quorum nonce : Nat) :
    Outcome OracleError OracleConsumer := do
  let s₁ ← s.asAdmin env caller nonce
  reject (quorum = 0) .insufficientQuorum
  pure { s₁ with minimumQuorum := quorum }

/-- `set_minimum_dispute_bond`. -/
def setMinimumDisputeBond (caller : Address) (bondAmount : Int) (nonce : Nat) :
    Outcome OracleError OracleConsumer := do
  let s₁ ← s.asAdmin env caller nonce
  pure { s₁ with minimumDisputeBond := bondAmount }

/-- `set_project_staleness_config`. -/
def setProjectStalenessConfig (caller : Address) (projectId : Bytes32)
    (config : ProjectStalenessConfig) (nonce : Nat) : Outcome OracleError OracleConsumer := do
  let s₁ ← s.asAdmin env caller nonce
  pure { s₁ with projectStalenessConfig := update s.projectStalenessConfig projectId config }

/-- `set_signature_threshold`. -/
def setSignatureThreshold (caller : Address) (threshold nonce : Nat) :
    Outcome OracleError OracleConsumer := do
  let s₁ ← s.asAdmin env caller nonce
  pure { s₁ with signatureThreshold := threshold }

/-- `set_minimum_verifier_stake`. -/
def setMinimumVerifierStake (caller : Address) (stake : Int) (nonce : Nat) :
    Outcome OracleError OracleConsumer := do
  let s₁ ← s.asAdmin env caller nonce
  reject (stake < 0) .insufficientStake
  pure { s₁ with minimumVerifierStake := stake }

end OracleConsumer

/-! ## Calls -/

inductive OracleCall where
  | setAdmin (currentAdmin newAdmin : Address) (nonce : Nat)
  | registerProvider (caller provider : Address) (methodology : Symbol) (nonce : Nat)
  | removeProvider (caller provider : Address) (nonce : Nat)
  | submitReport (submission : ReportSubmission)
  | verifyReport (caller : Address) (reportId nonce : Nat)
  | challengeReport (challenger : Address) (reportId : Nat) (counterEvidenceHash : Bytes32)
      (nonce : Nat)
  | resolveChallenge (caller : Address) (reportId : Nat) (resolution : ReportStatus) (nonce : Nat)
  | setMinimumQuorum (caller : Address) (quorum nonce : Nat)
  | aggregateProjectReports (caller : Address) (projectId : Bytes32)
      (periodStart periodEnd nonce : Nat)
  | setMinimumDisputeBond (caller : Address) (bondAmount : Int) (nonce : Nat)
  | setProjectStalenessConfig (caller : Address) (projectId : Bytes32)
      (config : ProjectStalenessConfig) (nonce : Nat)
  | setSignatureThreshold (caller : Address) (threshold nonce : Nat)
  | setMinimumVerifierStake (caller : Address) (stake : Int) (nonce : Nat)
  | addStake (provider : Address) (amount : Int) (nonce : Nat)
  | withdrawStake (provider : Address) (amount : Int) (nonce : Nat)
  | slashProvider (admin provider : Address) (reportId nonce : Nat)
  deriving DecidableEq, Repr

/-- What a successful call returns. -/
inductive OracleReply where
  | unit
  | number (n : Nat)
  | score (value : Int)
  deriving DecidableEq, Repr

def BiodiversityMetrics.WellTyped : BiodiversityMetrics → Prop
  | .absent => True
  | .present habitat species units => InI128 habitat ∧ InI128 species ∧ InI128 units

instance BiodiversityMetrics.decidableWellTyped : DecidablePred BiodiversityMetrics.WellTyped :=
  fun metrics =>
    match metrics with
    | .absent => inferInstanceAs (Decidable True)
    | .present .. => inferInstanceAs (Decidable (_ ∧ _))

def ReportSubmission.WellTyped (sub : ReportSubmission) : Prop :=
  sub.periodStart ≤ u64Max ∧ sub.periodEnd ≤ u64Max ∧ InI128 sub.carbonSequestered ∧
    sub.biodiversity.WellTyped ∧ sub.nonce ≤ u64Max

instance ReportSubmission.decidableWellTyped : DecidablePred ReportSubmission.WellTyped :=
  fun _ => inferInstanceAs (Decidable (_ ∧ _))

def ProjectStalenessConfig.WellTyped (config : ProjectStalenessConfig) : Prop :=
  config.threshold1Secs ≤ u64Max ∧ config.threshold2Secs ≤ u64Max ∧
    config.conservatismDiscountBps ≤ u64Max

instance ProjectStalenessConfig.decidableWellTyped :
    DecidablePred ProjectStalenessConfig.WellTyped :=
  fun _ => inferInstanceAs (Decidable (_ ∧ _))

/-- The arguments fit the types of the entry point's signature. -/
def OracleCall.WellTyped : OracleCall → Prop
  | .setAdmin _ _ nonce => nonce ≤ u64Max
  | .registerProvider _ _ _ nonce => nonce ≤ u64Max
  | .removeProvider _ _ nonce => nonce ≤ u64Max
  | .submitReport submission => submission.WellTyped
  | .verifyReport _ reportId nonce => reportId ≤ u64Max ∧ nonce ≤ u64Max
  | .challengeReport _ reportId _ nonce => reportId ≤ u64Max ∧ nonce ≤ u64Max
  | .resolveChallenge _ reportId _ nonce => reportId ≤ u64Max ∧ nonce ≤ u64Max
  | .setMinimumQuorum _ quorum nonce => quorum ≤ u32Max ∧ nonce ≤ u64Max
  | .aggregateProjectReports _ _ periodStart periodEnd nonce =>
      periodStart ≤ u64Max ∧ periodEnd ≤ u64Max ∧ nonce ≤ u64Max
  | .setMinimumDisputeBond _ bondAmount nonce => InI128 bondAmount ∧ nonce ≤ u64Max
  | .setProjectStalenessConfig _ _ config nonce => config.WellTyped ∧ nonce ≤ u64Max
  | .setSignatureThreshold _ threshold nonce => threshold ≤ u32Max ∧ nonce ≤ u64Max
  | .setMinimumVerifierStake _ stake nonce => InI128 stake ∧ nonce ≤ u64Max
  | .addStake _ amount nonce => InI128 amount ∧ nonce ≤ u64Max
  | .withdrawStake _ amount nonce => InI128 amount ∧ nonce ≤ u64Max
  | .slashProvider _ _ reportId nonce => reportId ≤ u64Max ∧ nonce ≤ u64Max

instance OracleCall.decidableWellTyped : DecidablePred OracleCall.WellTyped := fun call =>
  match call with
  | .setAdmin .. | .registerProvider .. | .removeProvider .. =>
      inferInstanceAs (Decidable (_ ≤ (_ : Nat)))
  | .submitReport submission => inferInstanceAs (Decidable submission.WellTyped)
  | .verifyReport .. | .challengeReport .. | .resolveChallenge .. | .setMinimumQuorum ..
  | .aggregateProjectReports .. | .setMinimumDisputeBond .. | .setProjectStalenessConfig ..
  | .setSignatureThreshold .. | .setMinimumVerifierStake .. | .addStake .. | .withdrawStake ..
  | .slashProvider .. => inferInstanceAs (Decidable (_ ∧ _))

/-- A call with a result. -/
def OracleReply.ofResult {α : Type} (reply : α → OracleReply)
    (x : Outcome OracleError (OracleConsumer × α)) :
    Outcome OracleError (OracleConsumer × OracleReply) := do
  let (s, a) ← x
  pure (s, reply a)

/-- A call that returns nothing. -/
def OracleReply.ofUnit (x : Outcome OracleError OracleConsumer) :
    Outcome OracleError (OracleConsumer × OracleReply) := do
  let s ← x
  pure (s, .unit)

namespace OracleConsumer

open OracleReply (ofResult ofUnit)

/-- The entry point a call names. -/
def dispatch (env : Env) (clock : Clock) (s : OracleConsumer) :
    OracleCall → Outcome OracleError (OracleConsumer × OracleReply)
  | .setAdmin currentAdmin newAdmin nonce => ofUnit (s.setAdmin env currentAdmin newAdmin nonce)
  | .registerProvider caller provider methodology nonce =>
      ofUnit (s.registerProvider env clock caller provider methodology nonce)
  | .removeProvider caller provider nonce => ofUnit (s.removeProvider env caller provider nonce)
  | .submitReport submission => ofResult .number (s.submitReport env clock submission)
  | .verifyReport caller reportId nonce => ofUnit (s.verifyReport env clock caller reportId nonce)
  | .challengeReport challenger reportId counterEvidenceHash nonce =>
      ofUnit (s.challengeReport env clock challenger reportId counterEvidenceHash nonce)
  | .resolveChallenge caller reportId resolution nonce =>
      ofUnit (s.resolveChallenge env clock caller reportId resolution nonce)
  | .setMinimumQuorum caller quorum nonce => ofUnit (s.setMinimumQuorum env caller quorum nonce)
  | .aggregateProjectReports caller projectId periodStart periodEnd nonce =>
      ofResult .score (s.aggregateProjectReports env clock caller projectId periodStart periodEnd
        nonce)
  | .setMinimumDisputeBond caller bondAmount nonce =>
      ofUnit (s.setMinimumDisputeBond env caller bondAmount nonce)
  | .setProjectStalenessConfig caller projectId config nonce =>
      ofUnit (s.setProjectStalenessConfig env caller projectId config nonce)
  | .setSignatureThreshold caller threshold nonce =>
      ofUnit (s.setSignatureThreshold env caller threshold nonce)
  | .setMinimumVerifierStake caller stake nonce =>
      ofUnit (s.setMinimumVerifierStake env caller stake nonce)
  | .addStake provider amount nonce => ofUnit (s.addStake env provider amount nonce)
  | .withdrawStake provider amount nonce => ofUnit (s.withdrawStake env provider amount nonce)
  | .slashProvider admin provider reportId nonce =>
      ofUnit (s.slashProvider clock admin provider reportId nonce)

/-- Decode the arguments and run the entry point. -/
def exec (env : Env) (clock : Clock) (s : OracleConsumer) (call : OracleCall) :
    Outcome OracleError (OracleConsumer × OracleReply) := do
  hostRequire call.WellTyped
  s.dispatch env clock call

end OracleConsumer

/-! ## Runs -/

/-- The contract and the ledger it lives in. -/
structure OracleWorld where
  clock : Clock
  oracle : OracleConsumer

inductive OracleInput where
  /-- Anyone calls an entry point. -/
  | call (env : Env) (call : OracleCall)
  /-- The ledger closes: its number and its time move on. -/
  | close (ledgers seconds : Nat)

/-- One input. A failed call answers `none` and changes nothing. -/
def OracleWorld.step (w : OracleWorld) : OracleInput → OracleWorld × Option OracleReply
  | .call env call =>
      match w.oracle.exec env w.clock call with
      | .ok (oracle, reply) => ({ w with oracle := oracle }, some reply)
      | .error _ => (w, none)
  | .close ledgers seconds =>
      ({ w with clock := ⟨w.clock.sequence + ledgers, w.clock.timestamp + seconds⟩ }, none)

/-- A call fails and changes nothing, or succeeds with the new state. -/
theorem OracleWorld.step_call (w : OracleWorld) (env : Env) (call : OracleCall) :
    ((∃ e, w.oracle.exec env w.clock call = .error e) ∧ w.step (.call env call) = (w, none)) ∨
      ∃ oracle reply, w.oracle.exec env w.clock call = .ok (oracle, reply) ∧
        w.step (.call env call) = ({ w with oracle := oracle }, some reply) := by
  cases h : w.oracle.exec env w.clock call with
  | error e => exact .inl ⟨⟨e, rfl⟩, by simp only [step, h]⟩
  | ok r =>
      obtain ⟨oracle, reply⟩ := r
      exact .inr ⟨oracle, reply, rfl, by simp only [step, h]⟩

/-- The oracle as a machine. -/
def oracleMachine : Machine OracleWorld OracleInput (Option OracleReply) := ⟨OracleWorld.step⟩

abbrev OracleEvent := Event OracleWorld OracleInput (Option OracleReply)

section Runs

variable (clock : Clock) (admin : Address)

/-- The contract just deployed. -/
def OracleWorld.deploy : OracleWorld := ⟨clock, OracleConsumer.deploy admin⟩

/-- The state after a run from the deployment. -/
def oracleRun (l : List OracleInput) : OracleWorld :=
  oracleMachine.run (OracleWorld.deploy clock admin) l

/-- The events of a run from the deployment. -/
def oracleHistory (l : List OracleInput) : List OracleEvent :=
  oracleMachine.history (OracleWorld.deploy clock admin) l

/-- An event of a run is the step after a shorter run. -/
theorem exists_of_mem_oracleHistory {l : List OracleInput} {e : OracleEvent}
    (h : e ∈ oracleHistory clock admin l) :
    ∃ l₁ i l₂, l = l₁ ++ i :: l₂ ∧ e = oracleMachine.event (oracleRun clock admin l₁) i :=
  oracleMachine.exists_of_mem_history h

end Runs

end VerdantBond
