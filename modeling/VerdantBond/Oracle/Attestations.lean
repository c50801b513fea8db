import VerdantBond.Oracle.Reports
import VerdantBond.Issuer.Supply
import VerdantBond.Coupon.EntryPoints

set_option autoImplicit false

/-! # OracleConsumer: the attestations behind a verification

`verify_report` decides by the number of recorded verifiers that qualify now. What it stores, and
what the coupon engine reads, is the number that qualified when the last verifier was recorded. The
two agree when the deciding call records a new verifier; a call of a verifier that is recorded
already can meet the threshold with an old count.
-/

namespace VerdantBond

open Function OracleConsumer

/-- The recorded verifiers of the report that qualify. -/
def OracleConsumer.attesters (s : OracleConsumer) (id : Nat) : Finset Address :=
  (s.reportVerifiers id).toFinset.filter (fun a => s.Qualifies a)

/-- The report is verified. -/
def ReportBook.Verified (b : ReportBook) (id : Nat) : Prop :=
  ∃ r, b.report id = some r ∧ r.status = .verified

/-- An event in which the report becomes verified. -/
def BecomesVerified (id : Nat) (e : OracleEvent) : Prop :=
  ¬ e.pre.oracle.book.Verified id ∧ e.post.oracle.book.Verified id

/-- The event is a `verify_report` call of `caller` that moves the report to verified. -/
def MovedToVerified (caller : Address) (id : Nat) (e : OracleEvent) : Prop :=
  (∃ env nonce, e.input = .call env (.verifyReport caller id nonce)) ∧ BecomesVerified id e

/-- **What backs a verification.** The stored count meets the threshold and is the number of recorded
verifiers that qualify, the provider of the report is none of them, and the coupon engine does not
turn the report away for want of attestations. -/
structure Backed (s : OracleConsumer) (id : Nat) : Prop where
  enough : s.signatureThreshold ≤ s.getVerificationCount id
  counted : s.getVerificationCount id = (s.attesters id).card
  independent : ∀ r, s.report id = some r → r.provider ∉ s.attesters id
  attested : ∀ (env : Env) (clock : Clock) (engine : CouponEngine) (b : CouponBond),
    s.Answers env → engine.minPerformanceAttestations ≤ s.signatureThreshold →
    engine.readOracle env clock b id ≠ .error (.err .insufficientAttestations)

/-- The caller is not recorded yet, or the stored count is up to date. -/
def CountCurrent (s : OracleConsumer) (caller : Address) (id : Nat) : Prop :=
  caller ∉ s.reportVerifiers id ∨
    s.verificationCount id = s.qualifyingVerifierCount (s.reportVerifiers id)

namespace OracleConsumer

variable {env : Env} {clock : Clock} {s s' : OracleConsumer}

theorem recordVerifier_frame (s : OracleConsumer) (id : Nat) (caller : Address) :
    (s.recordVerifier id caller).admin = s.admin ∧
      (s.recordVerifier id caller).provider = s.provider ∧
      (s.recordVerifier id caller).minimumVerifierStake = s.minimumVerifierStake ∧
      (s.recordVerifier id caller).signatureThreshold = s.signatureThreshold := by
  unfold recordVerifier
  split <;> exact ⟨rfl, rfl, rfl, rfl⟩

variable {caller : Address} {id : Nat}

/-- A verification changes nobody's standing, and not the threshold. -/
theorem verifyReport_frame {nonce : Nat} (h : s.verifyReport env clock caller id nonce = .ok s') :
    (∀ a, s'.Qualifies a ↔ s.Qualifies a) ∧ s'.signatureThreshold = s.signatureThreshold := by
  obtain ⟨r, -, rfl⟩ := verifyReport_ok h
  obtain ⟨hadmin, hprovider, hstake, hthreshold⟩ :=
    (s.setNonce caller (s.nonce caller + 1)).recordVerifier_frame id caller
  have hqualifies : ∀ a, ((s.setNonce caller (s.nonce caller + 1)).recordVerifier id caller).Qualifies
      a ↔ s.Qualifies a := by
    intro a
    unfold Qualifies IsAdmin HasStake
    rw [hadmin, hprovider, hstake]
    exact Iff.rfl
  split
  · exact ⟨hqualifies, hthreshold⟩
  · exact ⟨hqualifies, hthreshold⟩

theorem exec_verifyReport {nonce : Nat} {reply : OracleReply}
    (h : s.exec env clock (.verifyReport caller id nonce) = .ok (s', reply)) :
    s.verifyReport env clock caller id nonce = .ok s' ∧ reply = .unit := by
  exact ofUnit_ok_iff.mp (exec_ok_iff.mp h).2

/-- With distinct verifiers the count of the code is the number of attesters. -/
theorem card_attesters (hs : s.book.Sound) (id : Nat) :
    (s.attesters id).card = s.qualifyingVerifierCount (s.reportVerifiers id) := by
  unfold attesters
  have hdistinct : (s.reportVerifiers id).Nodup := hs.distinct id
  rw [qualifyingVerifierCount_eq_countP, List.countP_eq_length_filter,
    ← List.toFinset_card_of_nodup (hdistinct.filter _), List.toFinset_filter]
  simp only [decide_eq_true_eq]

/-- An engine that asks for no more attestations than there are does not complain. -/
theorem readOracle_attested {engine : CouponEngine} {b : CouponBond} (hanswers : s.Answers env)
    (henough : engine.minPerformanceAttestations ≤ s.getVerificationCount id) :
    engine.readOracle env clock b id ≠ .error (.err .insufficientAttestations) := by
  intro h
  simp only [CouponEngine.readOracle, bind_err_iff, okOr_err_iff, okOr_ok_iff, reject_err_iff,
    reject_ok_iff, orTrap_ne_err, orTrap_ok_iff, exists_unit_iff, reduceCtorEq, and_false, false_or,
    and_true] at h
  obtain ⟨_, -, _, -, -, _, -, -, _, -, -, -, -, attestations, hcount, hshort⟩ := h
  rw [hanswers.count] at hcount
  obtain rfl := Option.some.inj hcount
  rcases hshort with hshort | ⟨-, hpure⟩
  · omega
  · cases hpure

end OracleConsumer

theorem ReportBook.count_vote (b : ReportBook) (id : Nat) (caller : Address) (n : Nat) :
    (b.vote id caller n).count id = if caller ∈ b.verifiers id then b.count id else n := by
  unfold ReportBook.vote
  split
  · rfl
  · exact update_self ..

variable {env : Env} {clock : Clock} {s : OracleConsumer} {caller : Address} {id nonce : Nat}
  {r' : StoredReport}

/-- A call that moves the report to verified records the caller and meets the threshold. -/
theorem moved_to_verified {s' : OracleConsumer} (hnot : ¬ s.book.Verified id)
    (h : s.verifyReport env clock caller id nonce = .ok s') (hr' : s'.report id = some r')
    (hverified : r'.status = .verified) :
    s.signatureThreshold ≤ s.tally id caller ∧
      s'.reportVerifiers id = s.verifiersWith id caller ∧
      s'.verificationCount id = if caller ∈ s.reportVerifiers id then s.verificationCount id
        else s.tally id caller := by
  have hmove := verifyReport_move h
  have hpost : s'.book.report id = some r' := hr'
  cases hmove with
  | aside haside => cases haside
  | vote _ _ hbook =>
      rw [hbook, (s.book.vote_frame id caller _).1] at hpost
      exact absurd ⟨r', hpost, hverified⟩ hnot
  | verify _ hreached hbook =>
      refine ⟨hreached, ?_, ?_⟩
      · have hverifiers : s'.reportVerifiers id
            = (s.book.vote id caller (s.tally id caller)).verifiers id := by
          show s'.book.verifiers id = _
          rw [hbook]
          rfl
        rw [hverifiers, ReportBook.verifiers_vote]
        unfold verifiersWith
        by_cases hrecorded : caller ∈ s.reportVerifiers id
        · rw [if_pos hrecorded, if_neg (fun hthis => hthis.2 hrecorded)]
          rfl
        · rw [if_neg hrecorded, if_pos ⟨rfl, hrecorded⟩]
          rfl
      · show s'.book.count id = _
        rw [hbook]
        exact s.book.count_vote id caller _

theorem backed_iff_of_ok {s' : OracleConsumer} (hs' : s'.book.Sound) (hnot : ¬ s.book.Verified id)
    (h : s.verifyReport env clock caller id nonce = .ok s') (hr' : s'.report id = some r')
    (hverified : r'.status = .verified) : Backed s' id ↔ CountCurrent s caller id := by
  obtain ⟨hreached, hverifiers, hcount⟩ := moved_to_verified hnot h hr' hverified
  obtain ⟨hqualifies, hthreshold⟩ := verifyReport_frame h
  have hcard : (s'.attesters id).card = s.tally id caller := by
    rw [card_attesters hs', hverifiers]
    unfold tally
    rw [qualifyingVerifierCount_eq_countP, qualifyingVerifierCount_eq_countP]
    simp only [hqualifies]
  have hbacked : Backed s' id ↔ s'.verificationCount id = s.tally id caller := by
    constructor
    · intro hbacked
      exact hbacked.counted.trans hcard
    · intro hcurrent
      have henough : s'.signatureThreshold ≤ s'.getVerificationCount id := by
        show _ ≤ s'.verificationCount id
        rw [hthreshold, hcurrent]
        exact hreached
      refine ⟨henough, hcurrent.trans hcard.symm, fun r hr hmem => ?_, ?_⟩
      · have hlisted := List.mem_toFinset.mp (Finset.mem_filter.mp hmem).1
        exact hs'.independent id r hr hlisted
      · intro env clock engine b hanswers hminimum
        exact readOracle_attested hanswers (hminimum.trans henough)
  rw [hbacked, hcount]
  unfold CountCurrent
  by_cases hrecorded : caller ∈ s.reportVerifiers id
  · have htally : s.tally id caller = s.qualifyingVerifierCount (s.reportVerifiers id) := by
      unfold tally verifiersWith
      rw [if_pos hrecorded]
    rw [if_pos hrecorded, htally]
    exact (or_iff_right (not_not.mpr hrecorded)).symm
  · rw [if_neg hrecorded]
    exact iff_of_true rfl (.inl hrecorded)

/-- **A verification is backed exactly when its count is current.** -/
theorem backed_iff {w : OracleWorld} (hw : w.oracle.book.Sound) (hbecomes : BecomesVerified id
      (oracleMachine.event w (.call env (.verifyReport caller id nonce)))) :
    Backed (w.step (.call env (.verifyReport caller id nonce))).1.oracle id ↔
      CountCurrent w.oracle caller id := by
  have hsound := (w.step_cases (.call env (.verifyReport caller id nonce))).reports_sound hw
  obtain ⟨hnot, r', hr', hverified⟩ := hbecomes
  have hpost : (w.step (.call env (.verifyReport caller id nonce))).1.oracle.report id = some r' := hr'
  rcases w.step_call env (.verifyReport caller id nonce) with
    ⟨-, hstep⟩ | ⟨oracle, reply, hexec, hstep⟩
  · rw [hstep] at hpost
    exact absurd ⟨r', hpost, hverified⟩ hnot
  · rw [hstep] at hsound hpost ⊢
    obtain ⟨hverify, rfl⟩ := exec_verifyReport hexec
    exact backed_iff_of_ok hsound hnot hverify hpost hverified

/-- **Attestations back every verification exactly when every deciding call finds a current count**,
in every run. -/
theorem attestations_back_verifications_iff (clock : Clock) (admin : Address)
    (l : List OracleInput) :
    (∀ e ∈ oracleHistory clock admin l, ∀ caller id, MovedToVerified caller id e →
        Backed e.post.oracle id) ↔
      ∀ e ∈ oracleHistory clock admin l, ∀ caller id, MovedToVerified caller id e →
        CountCurrent e.pre.oracle caller id := by
  have hevent : ∀ e ∈ oracleHistory clock admin l, ∀ caller id, MovedToVerified caller id e →
      (Backed e.post.oracle id ↔ CountCurrent e.pre.oracle caller id) := by
    rintro e he caller id ⟨⟨env, nonce, hinput⟩, hbecomes⟩
    obtain ⟨l₁, i, l₂, -, rfl⟩ := exists_of_mem_oracleHistory clock admin he
    obtain rfl : i = .call env (.verifyReport caller id nonce) := hinput
    exact backed_iff (oracleRun_reports_sound clock admin l₁) hbecomes
  constructor
  · intro h e he caller id hmoved
    exact (hevent e he caller id hmoved).mp (h e he caller id hmoved)
  · intro h e he caller id hmoved
    exact (hevent e he caller id hmoved).mpr (h e he caller id hmoved)

/-! ## A verification with an old count -/

/-- Provider three verifies, withdraws its stake, and stakes it again after provider four has
verified. Then four repeats its call. -/
def sampleRestake : List OracleInput :=
  [.call sampleEnv (.registerProvider ⟨1⟩ ⟨2⟩ "verra_vcs" 0),
    .call sampleEnv (.registerProvider ⟨1⟩ ⟨3⟩ "satellite" 1),
    .call sampleEnv (.registerProvider ⟨1⟩ ⟨4⟩ "iot" 2),
    .call sampleEnv (.addStake ⟨3⟩ 10000 0), .call sampleEnv (.addStake ⟨4⟩ 10000 0),
    .call sampleEnv (.submitReport ⟨⟨2⟩, ⟨7⟩, 0, 10, 100, .absent, "verra_vcs", ⟨1⟩, 0⟩),
    .call sampleEnv (.verifyReport ⟨3⟩ 1 1), .call sampleEnv (.withdrawStake ⟨3⟩ 10000 2),
    .call sampleEnv (.verifyReport ⟨4⟩ 1 1), .call sampleEnv (.addStake ⟨3⟩ 10000 3),
    .call sampleEnv (.verifyReport ⟨4⟩ 1 2)]

/-- The last call moves the report from pending to verified under threshold two, with one
attestation on record. -/
theorem verified_with_stale_count :
    ((oracleRun ⟨10, 100⟩ ⟨1⟩ sampleRestake.dropLast).oracle.report 1).map (fun r => r.status)
        = some .pending ∧
      ((oracleRun ⟨10, 100⟩ ⟨1⟩ sampleRestake).oracle.report 1).map (fun r => r.status)
        = some .verified ∧
      (oracleRun ⟨10, 100⟩ ⟨1⟩ sampleRestake).oracle.signatureThreshold = 2 ∧
      (oracleRun ⟨10, 100⟩ ⟨1⟩ sampleRestake).oracle.getVerificationCount 1 = 1 := by
  decide

end VerdantBond
