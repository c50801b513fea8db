import VerdantBond.Oracle.EntryPoints

set_option autoImplicit false

/-! # OracleConsumer: what an entry point checked and wrote

One lemma for each entry point: from a success, the checks that passed and the state that is left.
Everything else about calls is read off these, so that an entry point is taken apart in one place.
-/

namespace VerdantBond

open Function

namespace OracleConsumer

open OracleReply (ofResult ofUnit)

variable {env : Env} {clock : Clock} {s s' : OracleConsumer}

/-! ## Replies -/

theorem exec_ok_iff {call : OracleCall} {r : OracleConsumer × OracleReply} :
    s.exec env clock call = .ok r ↔ call.WellTyped ∧ s.dispatch env clock call = .ok r := by
  simp only [exec, bind_ok_iff, hostRequire_ok_iff, exists_unit_iff]

variable {reply : OracleReply} {nonce id : Nat} {caller provider : Address} {amount : Int}
  {sub : ReportSubmission}

theorem ofUnit_ok_iff {x : Outcome OracleError OracleConsumer} :
    ofUnit x = .ok (s', reply) ↔ x = .ok s' ∧ reply = .unit := by
  simp only [ofUnit, bind_ok_iff, pure_ok_iff, Prod.mk.injEq]
  constructor
  · rintro ⟨_, h, rfl, rfl⟩
    exact ⟨h, rfl⟩
  · rintro ⟨h, rfl⟩
    exact ⟨s', h, rfl, rfl⟩

theorem ofResult_ok_iff {α : Type} {f : α → OracleReply}
    {x : Outcome OracleError (OracleConsumer × α)} :
    ofResult f x = .ok (s', reply) ↔ ∃ a, x = .ok (s', a) ∧ reply = f a := by
  simp only [ofResult, bind_ok_iff, pure_ok_iff, Prod.mk.injEq, Prod.exists]
  constructor
  · rintro ⟨_, a, h, rfl, rfl⟩
    exact ⟨a, h, rfl⟩
  · rintro ⟨a, h, rfl⟩
    exact ⟨s', a, h, rfl, rfl⟩

/-! ## Settings

Each of them is the admin's, and writes one field. -/

theorem setAdmin_ok {currentAdmin newAdmin : Address}
    (h : s.setAdmin env currentAdmin newAdmin nonce = .ok s') :
    s' = { s.setNonce currentAdmin (s.nonce currentAdmin + 1) with admin := some newAdmin } := by
  simp only [setAdmin, bind_ok_iff, pure_ok_iff] at h
  obtain ⟨s₁, hadmin, rfl⟩ := h
  obtain ⟨-, rfl⟩ := asAdmin_ok hadmin
  rfl

theorem setMinimumQuorum_ok {quorum : Nat} (h : s.setMinimumQuorum env caller quorum nonce = .ok s') :
    0 < quorum ∧ s' = { s.setNonce caller (s.nonce caller + 1) with minimumQuorum := quorum } := by
  simp only [setMinimumQuorum, bind_ok_iff, reject_ok_iff, pure_ok_iff, exists_unit_iff] at h
  obtain ⟨s₁, hadmin, hquorum, rfl⟩ := h
  obtain ⟨-, rfl⟩ := asAdmin_ok hadmin
  exact ⟨Nat.pos_of_ne_zero hquorum, rfl⟩

theorem setMinimumDisputeBond_ok {bondAmount : Int}
    (h : s.setMinimumDisputeBond env caller bondAmount nonce = .ok s') :
    s' = { s.setNonce caller (s.nonce caller + 1) with minimumDisputeBond := bondAmount } := by
  simp only [setMinimumDisputeBond, bind_ok_iff, pure_ok_iff] at h
  obtain ⟨s₁, hadmin, rfl⟩ := h
  obtain ⟨-, rfl⟩ := asAdmin_ok hadmin
  rfl

theorem setProjectStalenessConfig_ok {projectId : Bytes32} {config : ProjectStalenessConfig}
    (h : s.setProjectStalenessConfig env caller projectId config nonce = .ok s') :
    s' = { s.setNonce caller (s.nonce caller + 1) with
      projectStalenessConfig := update s.projectStalenessConfig projectId config } := by
  simp only [setProjectStalenessConfig, bind_ok_iff, pure_ok_iff] at h
  obtain ⟨s₁, hadmin, rfl⟩ := h
  obtain ⟨-, rfl⟩ := asAdmin_ok hadmin
  rfl

theorem setSignatureThreshold_ok {threshold : Nat}
    (h : s.setSignatureThreshold env caller threshold nonce = .ok s') :
    s' = { s.setNonce caller (s.nonce caller + 1) with signatureThreshold := threshold } := by
  simp only [setSignatureThreshold, bind_ok_iff, pure_ok_iff] at h
  obtain ⟨s₁, hadmin, rfl⟩ := h
  obtain ⟨-, rfl⟩ := asAdmin_ok hadmin
  rfl

theorem setMinimumVerifierStake_ok {stake : Int}
    (h : s.setMinimumVerifierStake env caller stake nonce = .ok s') :
    s' = { s.setNonce caller (s.nonce caller + 1) with minimumVerifierStake := stake } := by
  simp only [setMinimumVerifierStake, bind_ok_iff, reject_ok_iff, pure_ok_iff, exists_unit_iff] at h
  obtain ⟨s₁, hadmin, -, rfl⟩ := h
  obtain ⟨-, rfl⟩ := asAdmin_ok hadmin
  rfl

/-! ## Providers -/

theorem registerProvider_ok {methodology : Symbol}
    (h : s.registerProvider env clock caller provider methodology nonce = .ok s') :
    s.provider provider = none ∧
      s' = { (s.setNonce caller (s.nonce caller + 1)).setProvider provider
          ⟨provider, methodology, 0, true, clock.timestamp⟩ with
        providerList := s.providerList ++ [provider] } := by
  simp only [registerProvider, bind_ok_iff, reject_ok_iff, pure_ok_iff, exists_unit_iff,
    Bool.not_eq_true, Option.isSome_eq_false_iff, Option.isNone_iff_eq_none] at h
  obtain ⟨s₁, hadmin, hnew, rfl⟩ := h
  obtain ⟨-, rfl⟩ := asAdmin_ok hadmin
  exact ⟨hnew, rfl⟩

theorem removeProvider_ok (h : s.removeProvider env caller provider nonce = .ok s') :
    ∃ p, s.provider provider = some p ∧
      s' = (s.setNonce caller (s.nonce caller + 1)).setProvider provider
        { p with active := false } := by
  simp only [removeProvider, bind_ok_iff, okOr_ok_iff, pure_ok_iff] at h
  obtain ⟨s₁, hadmin, p, hp, rfl⟩ := h
  obtain ⟨-, rfl⟩ := asAdmin_ok hadmin
  exact ⟨p, hp, rfl⟩

theorem addStake_ok (h : s.addStake env provider amount nonce = .ok s') :
    ∃ p, 0 < amount ∧ s.provider provider = some p ∧ InI128 (p.stake + amount) ∧
      s' = (s.setNonce provider (s.nonce provider + 1)).setProvider provider
        { p with stake := p.stake + amount } := by
  simp only [addStake, bind_ok_iff, requireAuth_ok_iff, okOr_ok_iff, reject_ok_iff, i128_eq_some,
    pure_ok_iff, exists_unit_iff, not_le] at h
  obtain ⟨-, s₁, hnonce, hpositive, p, hp, _, ⟨hfits, rfl⟩, rfl⟩ := h
  obtain ⟨-, rfl⟩ := consumeNonce_ok hnonce
  exact ⟨p, hpositive, hp, hfits, rfl⟩

theorem withdrawStake_ok (h : s.withdrawStake env provider amount nonce = .ok s') :
    ∃ p, 0 < amount ∧ s.provider provider = some p ∧ amount ≤ p.stake ∧
      s' = (s.setNonce provider (s.nonce provider + 1)).setProvider provider
        { p with stake := p.stake - amount } := by
  simp only [withdrawStake, bind_ok_iff, requireAuth_ok_iff, okOr_ok_iff, orTrap_ok_iff,
    reject_ok_iff, i128_eq_some, pure_ok_iff, exists_unit_iff, not_le, not_lt] at h
  obtain ⟨-, s₁, hnonce, hpositive, p, hp, hcovered, _, ⟨-, rfl⟩, rfl⟩ := h
  obtain ⟨-, rfl⟩ := consumeNonce_ok hnonce
  exact ⟨p, hpositive, hp, hcovered, rfl⟩

theorem slashProvider_ok {admin : Address} {reportId : Nat}
    (h : s.slashProvider clock admin provider reportId nonce = .ok s') :
    (s.setNonce admin (s.nonce admin + 1)).slash clock provider reportId = .ok s' := by
  simp only [slashProvider, bind_ok_iff, exists_unit_iff] at h
  obtain ⟨-, s₁, hnonce, hslash⟩ := h
  obtain ⟨-, rfl⟩ := consumeNonce_ok hnonce
  exact hslash

/-! ## Reports -/

/-- A submission that passed its checks. -/
structure Submission (s : OracleConsumer) (sub : ReportSubmission) : Prop where
  registered : (s.provider sub.provider).isSome = true
  period : sub.periodStart < sub.periodEnd
  value : 0 ≤ sub.carbonSequestered

theorem submitReport_ok (h : s.submitReport env clock sub = .ok (s', id)) :
    Submission s sub ∧ id = s.reportCount + 1 ∧
      s' = { (s.setNonce sub.provider (s.nonce sub.provider + 1)).setReport (s.reportCount + 1)
          (sub.report clock (s.reportCount + 1)) with
        reportCount := s.reportCount + 1
        projectReports := update s.projectReports sub.projectId
          (s.projectReports sub.projectId ++ [s.reportCount + 1])
        providerReportCount := update s.providerReportCount sub.provider
          (s.providerReportCount sub.provider + 1) } := by
  simp only [submitReport, bind_ok_iff, requireAuth_ok_iff, okOr_ok_iff, orTrap_ok_iff,
    reject_ok_iff, u64_eq_some, pure_ok_iff, exists_unit_iff, not_or, not_le, not_lt,
    Prod.mk.injEq] at h
  obtain ⟨-, s₁, hnonce, p, hp, -, ⟨hperiod, hvalue⟩, -, -, _, ⟨-, rfl⟩, _, ⟨-, rfl⟩, rfl, rfl⟩ := h
  obtain ⟨-, rfl⟩ := consumeNonce_ok hnonce
  exact ⟨⟨Option.isSome_of_eq_some hp, hperiod, hvalue⟩, rfl, rfl⟩

theorem checkOverlaps_ok {ids : List Nat} {u : Unit} (h : s.checkOverlaps sub ids = .ok u) :
    ∀ id ∈ ids, ∃ existing, s.report id = some existing ∧ ¬ sub.Overlaps existing := by
  induction ids with
  | nil => simp
  | cons existingId rest ih =>
      simp only [checkOverlaps, bind_ok_iff, okOr_ok_iff, reject_ok_iff, exists_unit_iff] at h
      obtain ⟨existing, hfound, hapart, hrest⟩ := h
      intro id hid
      rcases List.mem_cons.mp hid with rfl | hid
      · exact ⟨existing, hfound, hapart⟩
      · exact ih hrest id hid

/-- A submission overlaps none of the reports its project lists. -/
theorem submitReport_apart (h : s.submitReport env clock sub = .ok (s', id)) :
    ∀ id ∈ s.projectReports sub.projectId,
      ∃ existing, s.report id = some existing ∧ ¬ sub.Overlaps existing := by
  simp only [submitReport, bind_ok_iff, exists_unit_iff] at h
  obtain ⟨-, _, -, _, -, -, -, -, hchecked, -⟩ := h
  exact checkOverlaps_ok hchecked

theorem exec_submit (h : s.exec env clock (.submitReport sub) = .ok (s', reply)) :
    Submission s sub := by
  obtain ⟨id, hok, -⟩ := ofResult_ok_iff.mp (exec_ok_iff.mp h).2
  exact (submitReport_ok hok).1

theorem requireVerifier_ok {u : Unit} (h : s.requireVerifier caller = .ok u) :
    s.Qualifies caller := by
  unfold requireVerifier at h
  split at h
  · next hadmin => exact .inl hadmin
  · simp only [bind_ok_iff, okOr_ok_iff, reject_ok_iff, not_or, not_lt, Bool.not_eq_false] at h
    obtain ⟨p, hp, hactive, hstake⟩ := h
    exact .inr ⟨p, hp, hactive, hstake⟩

/-- A status that is neither of two is one of the other two. -/
theorem open_of_not {r : StoredReport}
    (h : ¬ (r.status = .challenged ∨ r.status = .rejected)) :
    r.status = .pending ∨ r.status = .verified := by
  cases hstatus : r.status with
  | pending => exact .inl rfl
  | verified => exact .inr rfl
  | challenged => exact absurd (.inl hstatus) h
  | rejected => exact absurd (.inr hstatus) h

end OracleConsumer

/-- A verification that passed its checks. -/
structure Vote (s : OracleConsumer) (caller : Address) (reportId : Nat) (r : StoredReport) :
    Prop where
  found : s.report reportId = some r
  status : r.status = .pending ∨ r.status = .verified
  undisputed : s.challenge reportId = none
  stranger : caller ≠ r.provider
  qualifies : s.Qualifies caller

/-- The verifiers that qualify, with the caller among them. -/
def OracleConsumer.tally (s : OracleConsumer) (reportId : Nat) (caller : Address) : Nat :=
  s.qualifyingVerifierCount (s.verifiersWith reportId caller)

/-- A challenge that passed its checks. -/
structure Contest (clock : Clock) (s : OracleConsumer) (reportId : Nat) (r : StoredReport) :
    Prop where
  found : s.report reportId = some r
  status : r.status = .pending ∨ r.status = .verified
  inTime : clock.timestamp - r.referenceTime ≤ s.challengeWindow
  first : s.challenge reportId = none

namespace OracleConsumer

variable {env : Env} {clock : Clock} {s s' : OracleConsumer}

variable {caller : Address} {reportId nonce : Nat}

theorem verifyReport_ok (h : s.verifyReport env clock caller reportId nonce = .ok s') :
    ∃ r, Vote s caller reportId r ∧
      s' = if s.signatureThreshold ≤ s.tally reportId caller then
          { ((s.setNonce caller (s.nonce caller + 1)).recordVerifier reportId caller).setReport
              reportId (s.markVerified clock r) with
            projectLastVerifiedAt := update ((s.setNonce caller (s.nonce caller + 1)).recordVerifier
              reportId caller).projectLastVerifiedAt r.projectId (some clock.timestamp) }
        else (s.setNonce caller (s.nonce caller + 1)).recordVerifier reportId caller := by
  simp only [verifyReport, bind_ok_iff, requireAuth_ok_iff, okOr_ok_iff, reject_ok_iff,
    exists_unit_iff, Bool.not_eq_true, Option.isSome_eq_false_iff, Option.isNone_iff_eq_none] at h
  obtain ⟨-, s₁, hnonce, r, hfound, hopen, hundisputed, hstranger, hverifier, h⟩ := h
  obtain ⟨-, rfl⟩ := consumeNonce_ok hnonce
  refine ⟨r, ⟨hfound, open_of_not hopen, hundisputed, hstranger, requireVerifier_ok hverifier⟩, ?_⟩
  unfold tally
  split at h
  · next hreached =>
      rw [if_pos hreached]
      exact (pure_ok_iff.mp h).symm
  · next hshort =>
      rw [if_neg hshort]
      exact (pure_ok_iff.mp h).symm

/-! ## Challenges -/

theorem challengeReport_ok {challenger : Address} {hash : Bytes32}
    (h : s.challengeReport env clock challenger reportId hash nonce = .ok s') :
    ∃ r, Contest clock s reportId r ∧
      s' = { (((s.setNonce challenger (s.nonce challenger + 1)).setChallenge reportId
          ⟨reportId, challenger, hash, clock.timestamp, false, 0⟩).setReport reportId
            { r with status := .challenged }).setProjectDisputed r.projectId true with
        providerChallenges := update s.providerChallenges r.provider
          (s.providerChallenges r.provider ++ [reportId]) } := by
  simp only [challengeReport, requireDisputeBond, bind_ok_iff, requireAuth_ok_iff, okOr_ok_iff,
    reject_ok_iff, pure_ok_iff, exists_unit_iff, not_lt, Bool.not_eq_true,
    Option.isSome_eq_false_iff, Option.isNone_iff_eq_none] at h
  obtain ⟨-, s₁, hnonce, r, hfound, hopen, -, hwindow, hfirst, rfl⟩ := h
  obtain ⟨-, rfl⟩ := consumeNonce_ok hnonce
  have hstatus : r.status = .pending ∨ r.status = .verified := by
    by_contra hnot
    exact hopen (not_or.mp hnot)
  exact ⟨r, ⟨hfound, hstatus, hwindow, hfirst⟩, rfl⟩

/-- The state in which a resolution leaves challenge, report and project, before it slashes. -/
def resolved (s : OracleConsumer) (caller : Address) (reportId : Nat) (c : Challenge)
    (r : StoredReport) (resolution : ReportStatus) : OracleConsumer :=
  (((s.setNonce caller (s.nonce caller + 1)).setChallenge reportId
    { c with resolved := true, resolution := resolution.code }).setReport reportId
      { r with status := resolution }).setProjectDisputed r.projectId false

/-- What a resolution does: nothing to a challenge that was resolved before; to an open one, what it
does to the provider of the report or to the challenger. -/
inductive Resolution (clock : Clock) (s s' : OracleConsumer) (caller : Address) (reportId : Nat)
    (c : Challenge) : ReportStatus → Prop where
  | settled {resolution : ReportStatus} (done : c.resolved = true)
      (state : s' = s.setNonce caller (s.nonce caller + 1)) :
      Resolution clock s s' caller reportId c resolution
  | upheld {r : StoredReport} (unresolved : c.resolved = false)
      (reported : s.report reportId = some r)
      (slash : (s.resolved caller reportId c r .rejected).slash clock r.provider reportId = .ok s') :
      Resolution clock s s' caller reportId c .rejected
  | exonerated {r : StoredReport} (unresolved : c.resolved = false)
      (reported : s.report reportId = some r)
      (fine : (s.resolved caller reportId c r .verified).slashChallenger c.challenger = .ok s') :
      Resolution clock s s' caller reportId c .verified

theorem resolveChallenge_ok {resolution : ReportStatus}
    (h : s.resolveChallenge env clock caller reportId resolution nonce = .ok s') :
    ∃ c, s.challenge reportId = some c ∧ Resolution clock s s' caller reportId c resolution := by
  simp only [resolveChallenge, bind_ok_iff, okOr_ok_iff, reject_ok_iff, exists_unit_iff] at h
  obtain ⟨s₁, hadmin, hterminal, c, hfound, h⟩ := h
  obtain ⟨-, rfl⟩ := asAdmin_ok hadmin
  refine ⟨c, hfound, ?_⟩
  by_cases hdone : c.resolved = true
  · rw [if_pos hdone, pure_ok_iff] at h
    exact .settled hdone h.symm
  · have hopen : c.resolved = false := Bool.not_eq_true _ ▸ hdone
    rw [if_neg hdone] at h
    simp only [bind_ok_iff, okOr_ok_iff] at h
    obtain ⟨r, hreported, h⟩ := h
    by_cases hrejected : resolution = .rejected
    · subst hrejected
      rw [if_pos rfl] at h
      exact .upheld hopen hreported h
    · have hverified : resolution = .verified := by
        by_contra hnot
        exact hterminal ⟨hnot, hrejected⟩
      subst hverified
      rw [if_neg hrejected] at h
      exact .exonerated hopen hreported h

end OracleConsumer

end VerdantBond
