import VerdantBond.Oracle.Reports
import VerdantBond.Coupon.EntryPoints
import VerdantBond.Issuer.Supply

set_option autoImplicit false

/-! # OracleConsumer: the freeze of a disputed project

One flag per project stands for all its open challenges. `challenge_report` raises it;
`resolve_challenge` lowers it without looking at the other reports of the project. The flag says
whether a report of the project is challenged exactly in the runs in which every resolution closes
the project's last open challenge.
-/

namespace VerdantBond

open Function

/-! ## The flag and the reports -/

namespace ReportBook

/-- A challenged report of the project. -/
def Challenged (b : ReportBook) (projectId : Bytes32) (id : Nat) : Prop :=
  ∃ r, b.report id = some r ∧ r.projectId = projectId ∧ r.status = .challenged

/-- The flag of the project is up exactly when one of its reports is challenged. -/
def FreezeExact (b : ReportBook) (projectId : Bytes32) : Prop :=
  b.disputed projectId = true ↔ ∃ id, b.Challenged projectId id

variable {b : ReportBook} {id : Nat} {r t : StoredReport}

/-- The challenged reports after one was rewritten. -/
theorem challenged_rewrite (hfound : b.report id = some r) (hproject : t.projectId = r.projectId)
    {a : ReportBook} (hreport : a.report = update b.report id (some t)) (projectId : Bytes32)
    (j : Nat) :
    a.Challenged projectId j ↔
      if j = id then r.projectId = projectId ∧ t.status = .challenged
      else b.Challenged projectId j := by
  unfold Challenged
  rw [hreport]
  by_cases hj : j = id
  · subst hj
    rw [if_pos rfl, update_self]
    constructor
    · rintro ⟨x, hx, hthis, hstatus⟩
      obtain rfl := Option.some.inj hx
      exact ⟨hproject ▸ hthis, hstatus⟩
    · rintro ⟨hthis, hstatus⟩
      exact ⟨t, rfl, hproject.trans hthis, hstatus⟩
  · rw [if_neg hj, update_of_ne hj]

theorem challenged_submit (h : b.Sound) (hpending : r.status = .pending) (projectId : Bytes32)
    (j : Nat) : (b.submit r).Challenged projectId j ↔ b.Challenged projectId j := by
  constructor
  · rintro ⟨x, hx, hthis, hstatus⟩
    by_cases hj : j = b.reportCount + 1
    · subst hj
      have hnew : (b.submit r).report (b.reportCount + 1) = some r := update_self ..
      obtain rfl : r = x := Option.some.inj (hnew.symm.trans hx)
      rw [hpending] at hstatus
      cases hstatus
    · exact ⟨x, (update_of_ne hj ..).symm.trans hx, hthis, hstatus⟩
  · rintro ⟨x, hx, hthis, hstatus⟩
    have hj : j ≠ b.reportCount + 1 := by
      have hnumbered := h.numbered j x hx
      omega
    exact ⟨x, (update_of_ne hj ..).trans hx, hthis, hstatus⟩

/-- Stamping a report that was not challenged changes no challenge. -/
theorem challenged_stamp (hfound : b.report id = some r) (hproject : t.projectId = r.projectId)
    (hopen : r.status ≠ .challenged) (hstamped : t.status ≠ .challenged) (projectId : Bytes32)
    (j : Nat) : (b.stamp id t).Challenged projectId j ↔ b.Challenged projectId j := by
  rw [challenged_rewrite hfound hproject (a := b.stamp id t) rfl]
  split
  · next hj =>
      subst hj
      constructor
      · rintro ⟨-, hstatus⟩
        exact absurd hstatus hstamped
      · rintro ⟨x, hx, -, hstatus⟩
        obtain rfl := Option.some.inj (hfound.symm.trans hx)
        exact absurd hstatus hopen
  · exact Iff.rfl

variable {projectId : Bytes32}

/-- The flag and the challenged reports are as they were. -/
theorem freezeExact_congr {b' : ReportBook}
    (hdisputed : b'.disputed projectId = b.disputed projectId)
    (hchallenged : ∀ j, b'.Challenged projectId j ↔ b.Challenged projectId j) :
    b'.FreezeExact projectId ↔ b.FreezeExact projectId := by
  unfold FreezeExact
  rw [hdisputed]
  simp only [hchallenged]

/-- A new challenge keeps the flag exact. -/
theorem FreezeExact.dispute (h : b.FreezeExact projectId) (hfound : b.report id = some r)
    (c : Challenge) : (b.dispute id r c).FreezeExact projectId := by
  have hchallenged := challenged_rewrite (t := { r with status := .challenged }) hfound rfl
    (a := b.dispute id r c) rfl projectId
  by_cases hproject : r.projectId = projectId
  · -- the project of the report: the flag is up, for this report
    have hflag : (b.dispute id r c).disputed projectId = true := by
      rw [← hproject]
      exact update_self ..
    refine ⟨fun _ => ⟨id, ?_⟩, fun _ => hflag⟩
    rw [hchallenged, if_pos rfl]
    exact ⟨hproject, rfl⟩
  · -- another project: the report is none of its own
    refine (freezeExact_congr ?_ (fun j => ?_)).mpr h
    · exact update_of_ne (Ne.symm hproject) ..
    · rw [hchallenged]
      split
      · next hj =>
          subst hj
          constructor
          · rintro ⟨hthis, -⟩
            exact absurd hthis hproject
          · rintro ⟨x, hx, hthis, -⟩
            obtain rfl := Option.some.inj (hfound.symm.trans hx)
            exact absurd hthis hproject
      · exact Iff.rfl

/-- **A resolution keeps the flag exact when no other report of the project is challenged**, and
only then. -/
theorem freezeExact_resolve (h : b.FreezeExact projectId) (hfound : b.report id = some r)
    (hchallenged : r.status = .challenged) (c : Challenge) {resolution : ReportStatus}
    (hterminal : resolution ≠ .challenged) :
    (b.resolve id r c resolution).FreezeExact projectId ↔
      ¬ (b.Challenged projectId id ∧ ∃ j, j ≠ id ∧ b.Challenged projectId j) := by
  have hafter := challenged_rewrite (t := { r with status := resolution }) hfound rfl
    (a := b.resolve id r c resolution) rfl projectId
  by_cases hproject : r.projectId = projectId
  · have hflag : (b.resolve id r c resolution).disputed projectId = false := by
      rw [← hproject]
      exact update_self ..
    have hthis : b.Challenged projectId id := ⟨r, hfound, hproject, hchallenged⟩
    unfold FreezeExact
    rw [hflag]
    constructor
    · rintro hexact ⟨-, j, hj, hother⟩
      have hstill : (b.resolve id r c resolution).Challenged projectId j := by
        rw [hafter, if_neg hj]
        exact hother
      exact absurd (hexact.mpr ⟨j, hstill⟩) (by decide)
    · intro hlast
      refine ⟨fun hfalse => absurd hfalse (by decide), ?_⟩
      rintro ⟨j, hj⟩
      rw [hafter] at hj
      split at hj
      · exact absurd hj.2 hterminal
      · next hne => exact absurd ⟨hthis, j, hne, hj⟩ hlast
  · have hnot : ¬ b.Challenged projectId id := by
      rintro ⟨x, hx, hthis, -⟩
      obtain rfl := Option.some.inj (hfound.symm.trans hx)
      exact hproject hthis
    refine iff_of_true ((freezeExact_congr ?_ (fun j => ?_)).mpr h) (fun hthis => hnot hthis.1)
    · exact update_of_ne (Ne.symm hproject) ..
    · rw [hafter]
      split
      · next hj =>
          subst hj
          exact iff_of_false (fun hthis => hproject hthis.1) hnot
      · exact Iff.rfl

end ReportBook

/-! ## Steps -/

/-- The call resolves a challenge of the project while another report of it is challenged. -/
def OracleCall.ThawsEarly (b : ReportBook) (projectId : Bytes32) : OracleCall → Prop
  | .resolveChallenge _ reportId _ _ =>
      b.Challenged projectId reportId ∧ ∃ j, j ≠ reportId ∧ b.Challenged projectId j
  | _ => False

/-- An event in which such a call succeeded. -/
def ThawsEarly (projectId : Bytes32) (e : OracleEvent) : Prop :=
  match e.input, e.output with
  | .call _ call, some _ => call.ThawsEarly e.pre.oracle.book projectId
  | _, _ => False

variable {clock : Clock} {s : OracleConsumer} {projectId : Bytes32}

theorem OracleMove.freezeExact {b' : ReportBook} {call : OracleCall} {reply : OracleReply}
    (hs : s.book.Sound) (hexact : s.book.FreezeExact projectId)
    (h : OracleMove clock s b' call reply) :
    b'.FreezeExact projectId ↔ ¬ call.ThawsEarly s.book projectId := by
  cases h with
  | aside haside hbook =>
      rw [hbook]
      refine iff_of_true hexact ?_
      cases call with
      | resolveChallenge => cases haside
      | _ => exact not_false
  | configure hbook =>
      rw [hbook]
      exact iff_of_true hexact not_false
  | submit hbook =>
      rw [hbook]
      refine iff_of_true ((ReportBook.freezeExact_congr ?_ ?_).mpr hexact) not_false
      · rfl
      · exact ReportBook.challenged_submit hs rfl projectId
  | @vote caller reportId _ _ _ _ hbook =>
      obtain ⟨hreport, -, -, hdisputed, -⟩ := s.book.vote_frame reportId caller
        (s.tally reportId caller)
      rw [hbook]
      refine iff_of_true ((ReportBook.freezeExact_congr (by rw [hdisputed]) (fun j => ?_)).mpr
        hexact) not_false
      unfold ReportBook.Challenged
      rw [hreport]
  | @verify caller reportId nonce r hvote _ hbook =>
      obtain ⟨hreport, -, -, hdisputed, -⟩ := s.book.vote_frame reportId caller
        (s.tally reportId caller)
      have hfound : (s.book.vote reportId caller (s.tally reportId caller)).report reportId
          = some r := by
        rw [hreport]
        exact hvote.found
      have hopen : r.status ≠ .challenged := by
        rcases hvote.status with hstatus | hstatus <;> rw [hstatus] <;> decide
      rw [hbook]
      refine iff_of_true ((ReportBook.freezeExact_congr ?_ (fun j => ?_)).mpr hexact) not_false
      · show (s.book.vote reportId caller (s.tally reportId caller)).disputed projectId = _
        rw [hdisputed]
      · rw [ReportBook.challenged_stamp (t := s.markVerified clock r) hfound rfl hopen
          (show ReportStatus.verified ≠ .challenged by decide)]
        unfold ReportBook.Challenged
        rw [hreport]
  | challenge hfound _ _ _ hbook =>
      rw [hbook]
      exact iff_of_true (hexact.dispute hfound _) not_false
  | @settled caller reportId resolution nonce c hfound hdone hbook =>
      rw [hbook]
      refine iff_of_true hexact ?_
      -- a challenged report has an open challenge
      rintro ⟨⟨r, hr, -, hchallenged⟩, -⟩
      obtain ⟨c', hc', hopen⟩ := (hs.lifecycle reportId r hr).mp hchallenged
      obtain rfl := Option.some.inj (hc'.symm.trans hfound)
      rw [hdone] at hopen
      cases hopen
  | resolve hfound hunresolved hreported hterminal hbook =>
      rw [hbook]
      refine ReportBook.freezeExact_resolve hexact hreported
        ((hs.lifecycle _ _ hreported).mpr ⟨_, hfound, hunresolved⟩) _ ?_
      rcases hterminal with hstatus | hstatus <;> rw [hstatus] <;> decide

theorem OracleStep.freezeExact {w w' : OracleWorld} {i : OracleInput} {reply : Option OracleReply}
    (h : OracleStep w i w' reply) (hw : w.oracle.book.Sound)
    (hexact : w.oracle.book.FreezeExact projectId) :
    w'.oracle.book.FreezeExact projectId ↔ ¬ ThawsEarly projectId ⟨w, i, reply, w'⟩ := by
  cases h with
  | close h | failed h =>
      subst h
      exact iff_of_true hexact not_false
  | moved h hmove =>
      subst h
      exact hmove.freezeExact hw hexact

/-! ## The coupon engine -/

/-- A distribution asks the oracle about the project of the bond, and goes on only if it is not
disputed. -/
theorem CouponEngine.exec_undisputed {env : Env} {issuer : BondIssuer} {engine : CouponEngine}
    {call : CouponCall} {batch : CouponBatch} {result : CouponEngine × CouponReply}
    (h : engine.exec env clock issuer call = .ok result) (hbatch : call.batch = some batch)
    (hproject : (engine.bond batch.bondId).bondProject = some projectId) :
    env.isProjectDisputed projectId = some false := by
  -- both entry points are one distribution
  have hdistribute : ∃ r, engine.distribute env clock issuer batch = .ok r := by
    simp only [exec, bind_ok_iff, hostRequire_ok_iff, exists_unit_iff] at h
    obtain ⟨-, h⟩ := h
    cases call with
    | distributeCoupon | distributeCouponBatch =>
        obtain rfl := Option.some.inj hbatch
        simp only [dispatch, CouponReply.ofResult, distributeCouponBatch, bind_ok_iff] at h
        obtain ⟨_, ⟨_, -, r, hr, -⟩, -⟩ := h
        exact ⟨r, hr⟩
    | _ => cases hbatch
  obtain ⟨r, hdistribute⟩ := hdistribute
  simp only [distribute, readOracle, bind_ok_iff, okOr_ok_iff, orTrap_ok_iff, reject_ok_iff,
    exists_unit_iff, Bool.not_eq_true] at hdistribute
  obtain ⟨-, _, ⟨projectId', hproject', disputed, hdisputed, hfalse, -⟩, -⟩ := hdistribute
  obtain rfl := Option.some.inj (hproject.symm.trans hproject')
  rw [hdisputed, hfalse]

/-! ## Runs -/

/-- **What the freeze of a project promises.** The flag is up exactly when a report of the project
is challenged, a report is challenged exactly while its challenge is unresolved, and meanwhile no
distribution for a bond of the project succeeds. -/
structure FreezeTracks (s : OracleConsumer) (projectId : Bytes32) : Prop where
  exact : s.isProjectDisputed projectId = true ↔
    ∃ id r, s.report id = some r ∧ r.projectId = projectId ∧ r.status = .challenged
  unresolved : ∀ id r, s.report id = some r →
    (r.status = .challenged ↔ ∃ c, s.challenge id = some c ∧ c.resolved = false)
  frozen : ∀ id r, s.report id = some r → r.projectId = projectId → r.status = .challenged →
    ∀ (env : Env) (clock : Clock) (issuer : BondIssuer) (engine : CouponEngine) (call : CouponCall)
      (batch : CouponBatch), s.Answers env → call.batch = some batch →
      (engine.bond batch.bondId).bondProject = some projectId →
      ∀ result, engine.exec env clock issuer call ≠ .ok result

theorem freezeTracks_iff (hs : s.book.Sound) (projectId : Bytes32) :
    FreezeTracks s projectId ↔ s.book.FreezeExact projectId := by
  constructor
  · intro h
    exact h.exact
  · intro hexact
    refine ⟨hexact, hs.lifecycle, ?_⟩
    intro id r hr hproject hstatus env clock issuer engine call batch hanswers hbatch hbond result h
    have hdisputed : s.isProjectDisputed projectId = true := hexact.mpr ⟨id, r, hr, hproject, hstatus⟩
    have hfalse := CouponEngine.exec_undisputed h hbatch hbond
    rw [hanswers.disputed, hdisputed] at hfalse
    cases hfalse

/-- **The freeze tracks the disputes of a project exactly when every resolution closes its last open
challenge**, in every run. -/
theorem freeze_tracks_disputes_iff (clock : Clock) (admin : Address) (l : List OracleInput)
    (projectId : Bytes32) :
    (∀ l₁, l₁ <+: l → FreezeTracks (oracleRun clock admin l₁).oracle projectId) ↔
      ∀ e ∈ oracleHistory clock admin l, ¬ ThawsEarly projectId e := by
  have hexact : (∀ l₁, l₁ <+: l → (oracleRun clock admin l₁).oracle.book.FreezeExact projectId) ↔
      ∀ e ∈ oracleHistory clock admin l, ¬ ThawsEarly projectId e := by
    refine oracleMachine.always_iff (P := fun w => w.oracle.book.FreezeExact projectId) ?_
      (fun l i h => ?_) l
    · show false = true ↔ _
      refine iff_of_false (by decide) ?_
      rintro ⟨id, r, hr, -⟩
      cases hr
    · exact ((oracleRun clock admin l).step_cases i).freezeExact
        (oracleRun_reports_sound clock admin l) h
  rw [← hexact]
  constructor
  · intro h l₁ hl
    exact (freezeTracks_iff (oracleRun_reports_sound clock admin l₁) projectId).mp (h l₁ hl)
  · intro h l₁ hl
    exact (freezeTracks_iff (oracleRun_reports_sound clock admin l₁) projectId).mpr (h l₁ hl)

/-! ## A resolution that thaws a disputed project -/

/-- The provider's report on project seven for a period. -/
def sampleReport (periodStart periodEnd nonce : Nat) : ReportSubmission :=
  ⟨⟨2⟩, ⟨7⟩, periodStart, periodEnd, 100, .absent, "verra_vcs", ⟨1⟩, nonce⟩

/-- Two reports of the project are challenged, and the first challenge is resolved. -/
def sampleDisputes : List OracleInput :=
  [.call sampleEnv (.registerProvider ⟨1⟩ ⟨2⟩ "verra_vcs" 0),
    .call sampleEnv (.submitReport (sampleReport 0 10 0)),
    .call sampleEnv (.submitReport (sampleReport 10 20 1)),
    .call sampleEnv (.challengeReport ⟨3⟩ 1 ⟨5⟩ 0), .call sampleEnv (.challengeReport ⟨3⟩ 2 ⟨5⟩ 1),
    .call sampleEnv (.resolveChallenge ⟨1⟩ 1 .verified 1)]

/-- The second report is still challenged, and the project is not frozen. -/
theorem resolution_thaws_disputed :
    (oracleRun ⟨10, 100⟩ ⟨1⟩ sampleDisputes).oracle.isProjectDisputed ⟨7⟩ = false ∧
      ((oracleRun ⟨10, 100⟩ ⟨1⟩ sampleDisputes).oracle.report 2).map
        (fun r => (r.projectId, r.status)) = some (⟨7⟩, .challenged) := by
  decide

end VerdantBond
