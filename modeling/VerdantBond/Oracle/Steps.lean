import VerdantBond.Oracle.Calls

set_option autoImplicit false

/-! # OracleConsumer: what a call does to the reports

The report book is the part of the storage that reports, their verifications and their challenges
live in. `OracleMove` says once what a successful call does to it, with the checks it passed
(`exec_move`); the facts about reports are derived from it. Stakes and slashes do not touch the
book.
-/

namespace VerdantBond

open Function

/-! ## The book -/

structure ReportBook where
  report : Nat → Option StoredReport
  reportCount : Nat
  projectReports : Bytes32 → List Nat
  challenge : Nat → Option Challenge
  verifiers : Nat → List Address
  count : Nat → Nat
  disputed : Bytes32 → Bool
  config : Bytes32 → ProjectStalenessConfig
  lastVerifiedAt : Bytes32 → Option Nat
  window : Nat

def OracleConsumer.book (s : OracleConsumer) : ReportBook :=
  ⟨s.report, s.reportCount, s.projectReports, s.challenge, s.reportVerifiers, s.verificationCount,
    s.projectDisputed, s.projectStalenessConfig, s.projectLastVerifiedAt, s.challengeWindow⟩

namespace ReportBook

/-- A new report. -/
def submit (b : ReportBook) (r : StoredReport) : ReportBook :=
  { b with
    report := update b.report (b.reportCount + 1) (some r)
    reportCount := b.reportCount + 1
    projectReports := update b.projectReports r.projectId
      (b.projectReports r.projectId ++ [b.reportCount + 1]) }

/-- A verifier is recorded, with the number of verifiers that qualify. -/
def vote (b : ReportBook) (reportId : Nat) (caller : Address) (count : Nat) : ReportBook :=
  if caller ∈ b.verifiers reportId then b
  else
    { b with
      verifiers := update b.verifiers reportId (b.verifiers reportId ++ [caller])
      count := update b.count reportId count }

/-- The threshold is met: the report is stamped. -/
def stamp (b : ReportBook) (reportId : Nat) (r : StoredReport) : ReportBook :=
  { b with
    report := update b.report reportId (some r)
    lastVerifiedAt := update b.lastVerifiedAt r.projectId (some r.verifiedAt) }

/-- A challenge opens, and the project freezes. -/
def dispute (b : ReportBook) (reportId : Nat) (r : StoredReport) (c : Challenge) : ReportBook :=
  { b with
    challenge := update b.challenge reportId (some c)
    report := update b.report reportId (some { r with status := .challenged })
    disputed := update b.disputed r.projectId true }

/-- A challenge is resolved, and the project thaws. -/
def resolve (b : ReportBook) (reportId : Nat) (r : StoredReport) (c : Challenge)
    (resolution : ReportStatus) : ReportBook :=
  { b with
    challenge := update b.challenge reportId
      (some { c with resolved := true, resolution := resolution.code })
    report := update b.report reportId (some { r with status := resolution })
    disputed := update b.disputed r.projectId false }

end ReportBook

/-! ## Slashes -/

namespace OracleConsumer

variable {clock : Clock} {s s' : OracleConsumer}

variable {provider : Address} {reportId : Nat}

theorem slash_book (h : s.slash clock provider reportId = .ok s') : s'.book = s.book := by
  simp only [slash, bind_ok_iff, okOr_ok_iff, orTrap_ok_iff, pure_ok_iff] at h
  obtain ⟨p, -, penalty, -, stake, -, rfl⟩ := h
  rfl

theorem slashQuietly_book (h : s.slashQuietly clock provider reportId = .ok s') :
    s'.book = s.book := by
  unfold slashQuietly at h
  split at h
  · next s₁ hslash =>
      cases h
      exact slash_book hslash
  · cases h
    rfl
  · cases h

theorem slashChallenger_book {challenger : Address}
    (h : s.slashChallenger challenger = .ok s') : s'.book = s.book := by
  unfold slashChallenger at h
  split at h
  · cases h
    rfl
  · simp only [bind_ok_iff, orTrap_ok_iff, pure_ok_iff] at h
    obtain ⟨_, -, rfl⟩ := h
    rfl

theorem slashOutlier_book {aggregate : Int} {item : Nat × Address × Int}
    (h : slashOutlier clock aggregate s item = .ok s') : s'.book = s.book := by
  simp only [slashOutlier, bind_ok_iff] at h
  obtain ⟨deviation, -, h⟩ := h
  split at h
  · exact slashQuietly_book h
  · cases h
    rfl

/-- An aggregation slashes and does nothing else. -/
theorem aggregateProjectReports_book {env : Env} {caller : Address} {projectId : Bytes32}
    {periodStart periodEnd nonce : Nat} {score : Int}
    (h : s.aggregateProjectReports env clock caller projectId periodStart periodEnd nonce
      = .ok (s', score)) : s'.book = s.book := by
  simp only [aggregateProjectReports, bind_ok_iff, requireAuth_ok_iff, reject_ok_iff, pure_ok_iff,
    exists_unit_iff, Prod.mk.injEq] at h
  obtain ⟨-, s₁, hnonce, -, _, -, s₂, hfold, rfl, -⟩ := h
  obtain ⟨-, rfl⟩ := consumeNonce_ok hnonce
  refine foldlM_ok_induct (fun _ t => t.book = s.book) ?_ _ _ _ rfl hfold
  intro item _ t t' ht hslash
  exact (slashOutlier_book hslash).trans ht

end OracleConsumer

/-! ## Calls -/

/-- The calls that leave the reports alone. -/
def OracleCall.aside : OracleCall → Bool
  | .setAdmin .. | .registerProvider .. | .removeProvider .. | .setMinimumQuorum ..
  | .aggregateProjectReports .. | .setMinimumDisputeBond .. | .setSignatureThreshold ..
  | .setMinimumVerifierStake .. | .addStake .. | .withdrawStake .. | .slashProvider .. => true
  | _ => false

/-- **What a successful call does** to the reports, with the checks it passed. -/
inductive OracleMove (clock : Clock) (s : OracleConsumer) (b' : ReportBook) :
    OracleCall → OracleReply → Prop where
  | aside {call : OracleCall} {reply : OracleReply} (h : call.aside = true)
      (book : b' = s.book) : OracleMove clock s b' call reply
  | configure {caller : Address} {projectId : Bytes32} {config : ProjectStalenessConfig}
      {nonce : Nat}
      (book : b' = { s.book with config := update s.book.config projectId config }) :
      OracleMove clock s b' (.setProjectStalenessConfig caller projectId config nonce) .unit
  | submit {sub : ReportSubmission}
      (book : b' = s.book.submit (sub.report clock (s.reportCount + 1))) :
      OracleMove clock s b' (.submitReport sub) (.number (s.reportCount + 1))
  /-- The threshold is not met. -/
  | vote {caller : Address} {reportId nonce : Nat} {r : StoredReport}
      (vote : Vote s caller reportId r)
      (short : s.tally reportId caller < s.signatureThreshold)
      (book : b' = s.book.vote reportId caller (s.tally reportId caller)) :
      OracleMove clock s b' (.verifyReport caller reportId nonce) .unit
  /-- The threshold is met. -/
  | verify {caller : Address} {reportId nonce : Nat} {r : StoredReport}
      (vote : Vote s caller reportId r)
      (reached : s.signatureThreshold ≤ s.tally reportId caller)
      (book : b' = (s.book.vote reportId caller (s.tally reportId caller)).stamp reportId
        (s.markVerified clock r)) :
      OracleMove clock s b' (.verifyReport caller reportId nonce) .unit
  | challenge {challenger : Address} {reportId : Nat} {hash : Bytes32} {nonce : Nat}
      {r : StoredReport} (found : s.report reportId = some r)
      (status : r.status = .pending ∨ r.status = .verified)
      (inTime : clock.timestamp - r.referenceTime ≤ s.challengeWindow)
      (first : s.challenge reportId = none)
      (book : b' = s.book.dispute reportId r
        ⟨reportId, challenger, hash, clock.timestamp, false, 0⟩) :
      OracleMove clock s b' (.challengeReport challenger reportId hash nonce) .unit
  /-- The challenge was resolved before. -/
  | settled {caller : Address} {reportId : Nat} {resolution : ReportStatus} {nonce : Nat}
      {c : Challenge} (found : s.challenge reportId = some c) (done : c.resolved = true)
      (book : b' = s.book) :
      OracleMove clock s b' (.resolveChallenge caller reportId resolution nonce) .unit
  | resolve {caller : Address} {reportId : Nat} {resolution : ReportStatus} {nonce : Nat}
      {c : Challenge} {r : StoredReport} (found : s.challenge reportId = some c)
      (unresolved : c.resolved = false) (reported : s.report reportId = some r)
      (terminal : resolution = .verified ∨ resolution = .rejected)
      (book : b' = s.book.resolve reportId r c resolution) :
      OracleMove clock s b' (.resolveChallenge caller reportId resolution nonce) .unit

namespace OracleConsumer

variable {env : Env} {clock : Clock} {s s' : OracleConsumer}

theorem recordVerifier_book (reportId : Nat) (caller : Address) :
    (s.recordVerifier reportId caller).book
      = s.book.vote reportId caller (s.tally reportId caller) := by
  unfold recordVerifier ReportBook.vote
  by_cases hrecorded : caller ∈ s.reportVerifiers reportId
  · rw [if_pos hrecorded, if_pos (show caller ∈ s.book.verifiers reportId from hrecorded)]
  · rw [if_neg hrecorded, if_neg (show caller ∉ s.book.verifiers reportId from hrecorded)]
    have hwith : s.verifiersWith reportId caller = s.reportVerifiers reportId ++ [caller] :=
      if_neg hrecorded
    simp only [tally, hwith]
    rfl

theorem tally_setNonce (addr : Address) (nonce reportId : Nat) (caller : Address) :
    (s.setNonce addr nonce).tally reportId caller = s.tally reportId caller := by
  unfold tally
  rw [qualifyingVerifierCount_eq_countP, qualifyingVerifierCount_eq_countP]
  rfl

variable {caller : Address} {reportId nonce : Nat}

theorem verifyReport_move (h : s.verifyReport env clock caller reportId nonce = .ok s') :
    OracleMove clock s s'.book (.verifyReport caller reportId nonce) .unit := by
  obtain ⟨r, hvote, rfl⟩ := verifyReport_ok h
  have hbook : ((s.setNonce caller (s.nonce caller + 1)).recordVerifier reportId caller).book
      = s.book.vote reportId caller (s.tally reportId caller) := by
    rw [recordVerifier_book, tally_setNonce]
    rfl
  by_cases hreached : s.signatureThreshold ≤ s.tally reportId caller
  · rw [if_pos hreached]
    refine .verify hvote hreached ?_
    show ReportBook.stamp ((s.setNonce caller (s.nonce caller + 1)).recordVerifier reportId
      caller).book reportId (s.markVerified clock r) = _
    rw [hbook]
  · rw [if_neg hreached]
    exact .vote hvote (not_le.mp hreached) hbook

theorem resolveChallenge_move {resolution : ReportStatus}
    (h : s.resolveChallenge env clock caller reportId resolution nonce = .ok s') :
    OracleMove clock s s'.book (.resolveChallenge caller reportId resolution nonce) .unit := by
  obtain ⟨c, hfound, hresolution⟩ := resolveChallenge_ok h
  cases hresolution with
  | settled hdone hstate =>
      rw [hstate]
      exact .settled hfound hdone rfl
  | upheld hopen hreported hslash =>
      exact .resolve hfound hopen hreported (.inr rfl) (slash_book hslash)
  | exonerated hopen hreported hfine =>
      exact .resolve hfound hopen hreported (.inl rfl) (slashChallenger_book hfine)

/-- **Every successful call is a move.** -/
theorem exec_move {call : OracleCall} {reply : OracleReply}
    (h : s.exec env clock call = .ok (s', reply)) : OracleMove clock s s'.book call reply := by
  obtain ⟨-, h⟩ := exec_ok_iff.mp h
  cases call with
  | setAdmin currentAdmin newAdmin nonce =>
      obtain ⟨hok, rfl⟩ := ofUnit_ok_iff.mp h
      rw [setAdmin_ok hok]
      exact .aside rfl rfl
  | registerProvider caller provider methodology nonce =>
      obtain ⟨hok, rfl⟩ := ofUnit_ok_iff.mp h
      obtain ⟨-, rfl⟩ := registerProvider_ok hok
      exact .aside rfl rfl
  | removeProvider caller provider nonce =>
      obtain ⟨hok, rfl⟩ := ofUnit_ok_iff.mp h
      obtain ⟨p, -, rfl⟩ := removeProvider_ok hok
      exact .aside rfl rfl
  | submitReport sub =>
      obtain ⟨id, hok, rfl⟩ := ofResult_ok_iff.mp h
      obtain ⟨-, rfl, rfl⟩ := submitReport_ok hok
      exact .submit rfl
  | verifyReport caller reportId nonce =>
      obtain ⟨hok, rfl⟩ := ofUnit_ok_iff.mp h
      exact verifyReport_move hok
  | challengeReport challenger reportId hash nonce =>
      obtain ⟨hok, rfl⟩ := ofUnit_ok_iff.mp h
      obtain ⟨r, hcontest, rfl⟩ := challengeReport_ok hok
      exact .challenge hcontest.found hcontest.status hcontest.inTime hcontest.first rfl
  | resolveChallenge caller reportId resolution nonce =>
      obtain ⟨hok, rfl⟩ := ofUnit_ok_iff.mp h
      exact resolveChallenge_move hok
  | setMinimumQuorum caller quorum nonce =>
      obtain ⟨hok, rfl⟩ := ofUnit_ok_iff.mp h
      obtain ⟨-, rfl⟩ := setMinimumQuorum_ok hok
      exact .aside rfl rfl
  | aggregateProjectReports caller projectId periodStart periodEnd nonce =>
      obtain ⟨score, hok, rfl⟩ := ofResult_ok_iff.mp h
      exact .aside rfl (aggregateProjectReports_book hok)
  | setMinimumDisputeBond caller bondAmount nonce =>
      obtain ⟨hok, rfl⟩ := ofUnit_ok_iff.mp h
      rw [setMinimumDisputeBond_ok hok]
      exact .aside rfl rfl
  | setProjectStalenessConfig caller projectId config nonce =>
      obtain ⟨hok, rfl⟩ := ofUnit_ok_iff.mp h
      rw [setProjectStalenessConfig_ok hok]
      exact .configure rfl
  | setSignatureThreshold caller threshold nonce =>
      obtain ⟨hok, rfl⟩ := ofUnit_ok_iff.mp h
      rw [setSignatureThreshold_ok hok]
      exact .aside rfl rfl
  | setMinimumVerifierStake caller stake nonce =>
      obtain ⟨hok, rfl⟩ := ofUnit_ok_iff.mp h
      rw [setMinimumVerifierStake_ok hok]
      exact .aside rfl rfl
  | addStake provider amount nonce =>
      obtain ⟨hok, rfl⟩ := ofUnit_ok_iff.mp h
      obtain ⟨p, -, -, -, rfl⟩ := addStake_ok hok
      exact .aside rfl rfl
  | withdrawStake provider amount nonce =>
      obtain ⟨hok, rfl⟩ := ofUnit_ok_iff.mp h
      obtain ⟨p, -, -, -, rfl⟩ := withdrawStake_ok hok
      exact .aside rfl rfl
  | slashProvider admin provider reportId nonce =>
      obtain ⟨hok, rfl⟩ := ofUnit_ok_iff.mp h
      exact .aside rfl ((slash_book (slashProvider_ok hok)).trans rfl)

end OracleConsumer

/-! ## Steps -/

/-- The reports after an input. -/
inductive OracleStep (w : OracleWorld) (i : OracleInput) : OracleWorld → Option OracleReply → Prop
    where
  | close {ledgers seconds : Nat} (h : i = .close ledgers seconds) :
      OracleStep w i
        { w with clock := ⟨w.clock.sequence + ledgers, w.clock.timestamp + seconds⟩ } none
  | failed {env : Env} {call : OracleCall} (h : i = .call env call) : OracleStep w i w none
  | moved {env : Env} {call : OracleCall} {reply : OracleReply} {oracle : OracleConsumer}
      (h : i = .call env call) (move : OracleMove w.clock w.oracle oracle.book call reply) :
      OracleStep w i { w with oracle := oracle } (some reply)

theorem OracleWorld.step_cases (w : OracleWorld) (i : OracleInput) :
    OracleStep w i (w.step i).1 (w.step i).2 := by
  cases i with
  | close ledgers seconds => exact .close rfl
  | call env call =>
      rcases w.step_call env call with ⟨-, hstep⟩ | ⟨oracle, reply, hexec, hstep⟩
      · rw [hstep]
        exact .failed rfl
      · rw [hstep]
        exact .moved rfl (OracleConsumer.exec_move hexec)

end VerdantBond
