import VerdantBond.Shared

set_option autoImplicit false

/-! # OracleConsumer: storage

The storage of `contracts/oracle-consumer`, and what its queries read from it. Reports are numbered
from one. A key that is only read with `unwrap_or(d)` is a total field with the value `d` where
nothing was stored.
-/

namespace VerdantBond

open Function

/-! ## Records -/

structure OracleProvider where
  address : Address
  methodology : Symbol
  stake : Int
  active : Bool
  registeredAt : Nat
  deriving DecidableEq, Repr

/-- A report with all its fields. What the coupon engine reads of it is the underlying `Report`. -/
structure StoredReport extends Report where
  provider : Address
  ipfsEvidenceHash : Bytes32
  submittedAt : Nat
  verifiedAt : Nat
  providerStakeAtVerification : Option Int
  deriving DecidableEq, Repr

structure Challenge where
  reportId : Nat
  challenger : Address
  counterEvidenceHash : Bytes32
  submittedAt : Nat
  resolved : Bool
  resolution : Nat
  deriving DecidableEq, Repr

structure SlashRecord where
  reportId : Nat
  penalty : Int
  remainingStake : Int
  timestamp : Nat
  activeAfter : Bool
  deriving DecidableEq, Repr

/-- The staleness view with all its fields. -/
structure ProjectStaleness extends StalenessState where
  projectId : Bytes32
  lastReportTimestamp : Nat
  timeElapsed : Nat
  deriving DecidableEq, Repr

/-- `status as u32`. -/
def ReportStatus.code : ReportStatus → Nat
  | .pending => 0
  | .verified => 1
  | .challenged => 2
  | .rejected => 3

/-! ## Constants -/

def challengeWindowSeconds : Nat := 259200
def slashPenaltyPpm : Int := 100000
def defaultSignatureThreshold : Nat := 2
def defaultMinVerifierStake : Int := 10000
def defaultMinQuorum : Nat := 1
def defaultMinDisputeBond : Int := 0
def maxAllowedDeviationBps : Int := 3000

/-- The configuration of a project for which none was set. -/
def defaultStalenessConfig : ProjectStalenessConfig := ⟨604800, 2592000, 1000⟩

/-! ## The contract -/

structure OracleConsumer where
  admin : Option Address
  provider : Address → Option OracleProvider
  providerList : List Address
  report : Nat → Option StoredReport
  reportCount : Nat
  projectReports : Bytes32 → List Nat
  challenge : Nat → Option Challenge
  reportVerifiers : Nat → List Address
  verificationCount : Nat → Nat
  signatureThreshold : Nat
  minimumVerifierStake : Int
  challengeWindow : Nat
  nonce : Address → Nat
  providerReportCount : Address → Nat
  providerChallenges : Address → List Nat
  slashHistory : Address → List SlashRecord
  minimumQuorum : Nat
  minimumDisputeBond : Int
  projectDisputed : Bytes32 → Bool
  projectStalenessConfig : Bytes32 → ProjectStalenessConfig
  projectLastVerifiedAt : Bytes32 → Option Nat

namespace OracleConsumer

/-- `__constructor`. -/
def deploy (admin : Address) : OracleConsumer where
  admin := some admin
  provider := fun _ => none
  providerList := []
  report := fun _ => none
  reportCount := 0
  projectReports := fun _ => []
  challenge := fun _ => none
  reportVerifiers := fun _ => []
  verificationCount := fun _ => 0
  signatureThreshold := defaultSignatureThreshold
  minimumVerifierStake := defaultMinVerifierStake
  challengeWindow := challengeWindowSeconds
  nonce := fun _ => 0
  providerReportCount := fun _ => 0
  providerChallenges := fun _ => []
  slashHistory := fun _ => []
  minimumQuorum := defaultMinQuorum
  minimumDisputeBond := defaultMinDisputeBond
  projectDisputed := fun _ => false
  projectStalenessConfig := fun _ => defaultStalenessConfig
  projectLastVerifiedAt := fun _ => none

/-! ## Writes -/

variable (s : OracleConsumer)

/-- `set_nonce`. -/
def setNonce (addr : Address) (nonce : Nat) : OracleConsumer :=
  { s with nonce := update s.nonce addr nonce }

/-- Write a provider. -/
def setProvider (addr : Address) (p : OracleProvider) : OracleConsumer :=
  { s with provider := update s.provider addr (some p) }

/-- Write a report. -/
def setReport (reportId : Nat) (r : StoredReport) : OracleConsumer :=
  { s with report := update s.report reportId (some r) }

/-- Write a challenge. -/
def setChallenge (reportId : Nat) (c : Challenge) : OracleConsumer :=
  { s with challenge := update s.challenge reportId (some c) }

/-- Write the freeze of a project. -/
def setProjectDisputed (projectId : Bytes32) (disputed : Bool) : OracleConsumer :=
  { s with projectDisputed := update s.projectDisputed projectId disputed }

/-! ## Checks -/

/-- `require_admin`. -/
def requireAdmin (caller : Address) : Outcome OracleError Unit := do
  let admin ← okOr s.admin .notInitialized
  reject (caller ≠ admin) .unauthorized

/-- `require_admin(..).is_ok()`. -/
def IsAdmin (caller : Address) : Prop := s.admin = some caller

instance (s : OracleConsumer) (caller : Address) : Decidable (s.IsAdmin caller) :=
  inferInstanceAs (Decidable (_ = _))

/-- The nonce check of every entry point. The increment is not checked: the host aborts on
overflow. -/
def consumeNonce (addr : Address) (nonce : Nat) : Outcome OracleError OracleConsumer := do
  reject (nonce ≠ s.nonce addr) .invalidNonce
  let next ← orTrap (u64 (s.nonce addr + 1))
  pure (s.setNonce addr next)

/-- The opening of an admin entry point: authorization, nonce, admin. -/
def asAdmin (env : Env) (s : OracleConsumer) (caller : Address) (nonce : Nat) :
    Outcome OracleError OracleConsumer := do
  requireAuth env caller
  let s₁ ← s.consumeNonce caller nonce
  s₁.requireAdmin caller
  pure s₁

variable {s s' : OracleConsumer} {caller : Address} {nonce : Nat}

theorem requireAdmin_ok {u : Unit} (h : s.requireAdmin caller = .ok u) : s.IsAdmin caller := by
  simp only [requireAdmin, bind_ok_iff, okOr_ok_iff, reject_ok_iff, not_not] at h
  obtain ⟨admin, hadmin, rfl⟩ := h
  exact hadmin

theorem consumeNonce_ok {addr : Address} (h : s.consumeNonce addr nonce = .ok s') :
    nonce = s.nonce addr ∧ s' = s.setNonce addr (s.nonce addr + 1) := by
  simp only [consumeNonce, bind_ok_iff, reject_ok_iff, orTrap_ok_iff, u64_eq_some, pure_ok_iff,
    exists_unit_iff, not_not] at h
  obtain ⟨hnonce, _, ⟨-, rfl⟩, rfl⟩ := h
  exact ⟨hnonce, rfl⟩

theorem asAdmin_ok {env : Env} (h : s.asAdmin env caller nonce = .ok s') :
    s.IsAdmin caller ∧ s' = s.setNonce caller (s.nonce caller + 1) := by
  simp only [asAdmin, bind_ok_iff, requireAuth_ok_iff, pure_ok_iff, exists_unit_iff] at h
  obtain ⟨-, s₁, hnonce, hadmin, rfl⟩ := h
  obtain ⟨-, rfl⟩ := consumeNonce_ok hnonce
  exact ⟨requireAdmin_ok hadmin, rfl⟩

/-! ## Queries -/

/-- `is_project_disputed`. -/
def isProjectDisputed (projectId : Bytes32) : Bool :=
  s.projectDisputed projectId

/-- `get_verification_count`. -/
def getVerificationCount (reportId : Nat) : Nat :=
  s.verificationCount reportId

/-- `get_report`. -/
def getReport (reportId : Nat) : Outcome OracleError StoredReport :=
  okOr (s.report reportId) .reportNotFound

/-- A provider whose verification counts: active, with the minimum stake. -/
def HasStake (addr : Address) : Prop :=
  ∃ p ∈ s.provider addr, p.active = true ∧ s.minimumVerifierStake ≤ p.stake

instance (s : OracleConsumer) (addr : Address) : Decidable (s.HasStake addr) :=
  inferInstanceAs (Decidable (∃ p ∈ s.provider addr, _))

/-- An address whose verification counts. -/
def Qualifies (addr : Address) : Prop := s.IsAdmin addr ∨ s.HasStake addr

instance (s : OracleConsumer) (addr : Address) : Decidable (s.Qualifies addr) :=
  inferInstanceAs (Decidable (_ ∨ _))

/-- `qualifying_verifier_count`. -/
def qualifyingVerifierCount (s : OracleConsumer) : List Address → Nat
  | [] => 0
  | verifier :: rest =>
      if s.Qualifies verifier then s.qualifyingVerifierCount rest + 1
      else s.qualifyingVerifierCount rest

theorem qualifyingVerifierCount_eq_countP (verifiers : List Address) :
    s.qualifyingVerifierCount verifiers = verifiers.countP (fun a => decide (s.Qualifies a)) := by
  induction verifiers with
  | nil => rfl
  | cons verifier rest ih =>
      rw [qualifyingVerifierCount, List.countP_cons, ih]
      by_cases h : s.Qualifies verifier
      · rw [if_pos h, if_pos (decide_eq_true h)]
      · rw [if_neg h, if_neg (by simpa using h), add_zero]

/-- The tier and discount of a project `elapsed` seconds after its last verified report. -/
def stalenessTier (config : ProjectStalenessConfig) (elapsed : Nat) : StalenessState :=
  if elapsed < config.threshold1Secs then ⟨0, 0⟩
  else if elapsed < config.threshold2Secs then ⟨1, config.conservatismDiscountBps⟩
  else ⟨2, 10000⟩

/-- `get_project_staleness_state`. -/
def getProjectStalenessState (projectId : Bytes32) (currentTimestamp : Nat) : ProjectStaleness :=
  match s.projectLastVerifiedAt projectId with
  | some last =>
      { stalenessTier (s.projectStalenessConfig projectId) (currentTimestamp - last) with
        projectId := projectId
        lastReportTimestamp := last
        timeElapsed := currentTimestamp - last }
  | none => ⟨⟨0, 0⟩, projectId, 0, 0⟩

/-- The oracle answers of a call are those of this contract. -/
structure Answers (s : OracleConsumer) (env : Env) : Prop where
  disputed : ∀ projectId, env.isProjectDisputed projectId = some (s.isProjectDisputed projectId)
  staleness : ∀ projectId now, env.getProjectStalenessState projectId now
    = some (s.getProjectStalenessState projectId now).toStalenessState
  report : ∀ reportId, env.getReport reportId = (s.report reportId).map StoredReport.toReport
  count : ∀ reportId, env.getVerificationCount reportId = some (s.getVerificationCount reportId)

end OracleConsumer

end VerdantBond
