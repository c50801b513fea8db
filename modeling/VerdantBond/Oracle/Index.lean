import VerdantBond.Oracle.Reports

set_option autoImplicit false

/-! # OracleConsumer: the reports of a project

A project's list of reports has their ids in the order of submission, each once. After its submission
a report changes its status and its stamp and nothing else.
-/

namespace VerdantBond

open Function List

/-! ## What stays of a report -/

/-- The report as it was submitted. -/
def StoredReport.body (r : StoredReport) : StoredReport :=
  { r with status := .pending, verifiedAt := 0, providerStakeAtVerification := none }

/-- What a successful call makes of the submitted reports. -/
inductive BodyMove (clock : Clock) (s : OracleConsumer) (b' : ReportBook) (call : OracleCall) :
    Prop where
  | kept (count : b'.reportCount = s.reportCount) (listed : b'.projectReports = s.projectReports)
      (body : ∀ id, (b'.report id).map StoredReport.body = (s.report id).map StoredReport.body)
  | submitted {sub : ReportSubmission} (h : call = .submitReport sub)
      (book : b' = s.book.submit (sub.report clock (s.reportCount + 1)))

theorem body_update {f : Nat → Option StoredReport} {j : Nat} {x y : StoredReport}
    (hx : f j = some x) (hbody : y.body = x.body) (id : Nat) :
    (update f j (some y) id).map StoredReport.body = (f id).map StoredReport.body := by
  by_cases hid : id = j
  · subst hid
    rw [update_self, hx, Option.map_some, Option.map_some, hbody]
  · rw [update_of_ne hid]

theorem ReportBook.vote_projectReports (b : ReportBook) (id : Nat) (caller : Address) (n : Nat) :
    (b.vote id caller n).projectReports = b.projectReports := by
  unfold vote
  split <;> rfl

variable {clock : Clock} {s : OracleConsumer} {b' : ReportBook} {call : OracleCall}
  {reply : OracleReply}

theorem OracleMove.bodyMove (h : OracleMove clock s b' call reply) : BodyMove clock s b' call := by
  cases h with
  | aside _ hbook | configure hbook | settled _ _ hbook =>
      rw [hbook]
      exact .kept rfl rfl fun _ => rfl
  | submit hbook => exact .submitted rfl hbook
  | @vote caller reportId _ _ _ _ hbook =>
      obtain ⟨hreport, hcount, -⟩ := s.book.vote_frame reportId caller (s.tally reportId caller)
      rw [hbook]
      refine .kept hcount (s.book.vote_projectReports ..) fun id => ?_
      rw [hreport]
      rfl
  | @verify caller reportId _ r hvote _ hbook =>
      obtain ⟨hreport, hcount, -⟩ := s.book.vote_frame reportId caller (s.tally reportId caller)
      have hbody : (s.markVerified clock r).body = r.body := rfl
      rw [hbook]
      refine .kept hcount (s.book.vote_projectReports ..) fun id => ?_
      show (update (s.book.vote reportId caller _).report reportId _ id).map _ = _
      rw [hreport]
      exact body_update hvote.found hbody id
  | @challenge challenger reportId hash nonce r hfound _ _ _ hbook =>
      have hbody : ({ r with status := .challenged } : StoredReport).body = r.body := rfl
      rw [hbook]
      exact .kept rfl rfl fun id => body_update hfound hbody id
  | @resolve caller reportId resolution nonce c r _ _ hreported _ hbook =>
      have hbody : ({ r with status := resolution } : StoredReport).body = r.body := rfl
      rw [hbook]
      exact .kept rfl rfl fun id => body_update hreported hbody id

/-- A report stays, with its body. -/
theorem BodyMove.body_after (hs : s.book.Sound) (h : BodyMove clock s b' call) {id : Nat}
    {r : StoredReport} (hr : s.report id = some r) :
    ∃ r', b'.report id = some r' ∧ r'.body = r.body := by
  cases h with
  | kept _ _ hbody =>
      have hid := hbody id
      rw [hr, Option.map_some, Option.map_eq_some_iff] at hid
      exact hid
  | submitted _ hbook =>
      have hle : id ≤ s.reportCount := (hs.numbered id r hr).2
      refine ⟨r, ?_, rfl⟩
      rw [hbook]
      exact (update_of_ne (by omega : id ≠ s.reportCount + 1) ..).trans hr

/-! ## The index -/

namespace ReportBook

/-- The report is one of the project. -/
def InProject (b : ReportBook) (projectId : Bytes32) (id : Nat) : Prop :=
  (b.report id).map (fun r => r.body.projectId) = some projectId

instance (b : ReportBook) (projectId : Bytes32) (id : Nat) : Decidable (b.InProject projectId id) :=
  inferInstanceAs (Decidable (_ = _))

/-- **The index invariant.** The list of a project has its reports in the order of their ids; and a
challenge is one of a report. -/
structure Indexed (b : ReportBook) : Prop where
  listed : ∀ projectId, b.projectReports projectId
    = (List.range' 1 b.reportCount).filter fun id => b.InProject projectId id
  disputed : ∀ id c, b.challenge id = some c → (b.report id).isSome = true

variable {b : ReportBook}

theorem inProject_congr {b' : ReportBook} {id : Nat}
    (h : (b'.report id).map StoredReport.body = (b.report id).map StoredReport.body)
    (projectId : Bytes32) : b'.InProject projectId id ↔ b.InProject projectId id := by
  have hproject : ∀ o : Option StoredReport,
      o.map (fun r => r.body.projectId) = (o.map StoredReport.body).map (fun r => r.projectId) := by
    intro o
    rw [Option.map_map]
    rfl
  unfold InProject
  rw [hproject, hproject, h]

theorem inProject_submit_of_le {r : StoredReport} {id : Nat} (h : id ≤ b.reportCount)
    (projectId : Bytes32) : (b.submit r).InProject projectId id ↔ b.InProject projectId id := by
  refine inProject_congr ?_ projectId
  show (update b.report (b.reportCount + 1) (some r) id).map _ = _
  rw [update_of_ne (by omega)]

/-- The list of a project after a submission. -/
theorem listed_submit (h : b.Indexed) (r : StoredReport) (projectId : Bytes32) :
    (b.submit r).projectReports projectId
      = (range' 1 (b.reportCount + 1)).filter
          fun id => (b.submit r).InProject projectId id := by
  have hold : (range' 1 b.reportCount).filter (fun id => (b.submit r).InProject projectId id)
      = b.projectReports projectId := by
    rw [h.listed]
    refine filter_congr fun id hid => ?_
    have hle : id ≤ b.reportCount := by
      have := (mem_range'_1.mp hid).2
      omega
    exact decide_eq_decide.mpr (inProject_submit_of_le hle projectId)
  have hnew : (b.submit r).InProject projectId (b.reportCount + 1) ↔ r.projectId = projectId := by
    show (update b.report (b.reportCount + 1) (some r) (b.reportCount + 1)).map _ = _ ↔ _
    rw [update_self]
    exact Option.some_inj
  rw [range'_1_concat, filter_append, hold, add_comm 1 b.reportCount]
  show update b.projectReports r.projectId _ projectId = _
  by_cases hproject : r.projectId = projectId
  · subst hproject
    rw [update_self, filter_cons_of_pos (by simpa using hnew.mpr rfl), filter_nil]
  · rw [update_of_ne (Ne.symm hproject),
      filter_cons_of_neg (by simpa using fun hin => hproject (hnew.mp hin)), filter_nil,
      append_nil]

end ReportBook

/-- A challenge is opened where a report is. -/
theorem OracleMove.reported (h : OracleMove clock s b' call reply) {id : Nat} {c : Challenge}
    (hc : b'.challenge id = some c) :
    (∃ c', s.challenge id = some c') ∨ (s.report id).isSome = true := by
  cases h with
  | aside _ hbook | configure hbook | submit hbook | settled _ _ hbook =>
      rw [hbook] at hc
      exact .inl ⟨c, hc⟩
  | @vote caller reportId _ _ _ _ hbook =>
      obtain ⟨-, -, hchallenge, -⟩ := s.book.vote_frame reportId caller (s.tally reportId caller)
      rw [hbook, hchallenge] at hc
      exact .inl ⟨c, hc⟩
  | @verify caller reportId _ _ _ _ hbook =>
      obtain ⟨-, -, hchallenge, -⟩ := s.book.vote_frame reportId caller (s.tally reportId caller)
      rw [hbook] at hc
      have hc' : (s.book.vote reportId caller (s.tally reportId caller)).challenge id = some c := hc
      rw [hchallenge] at hc'
      exact .inl ⟨c, hc'⟩
  | @challenge challenger reportId _ _ r hfound _ _ _ hbook =>
      rw [hbook] at hc
      by_cases hid : id = reportId
      · subst hid
        exact .inr (by rw [hfound]; rfl)
      · exact .inl ⟨c, (update_of_ne hid ..).symm.trans hc⟩
  | @resolve caller reportId _ _ c' r _ _ hreported _ hbook =>
      rw [hbook] at hc
      by_cases hid : id = reportId
      · subst hid
        exact .inr (by rw [hreported]; rfl)
      · exact .inl ⟨c, (update_of_ne hid ..).symm.trans hc⟩

theorem OracleMove.indexed (hs : s.book.Sound) (hi : s.book.Indexed)
    (h : OracleMove clock s b' call reply) : b'.Indexed := by
  have hbody := h.bodyMove
  refine ⟨fun projectId => ?_, fun id c hc => ?_⟩
  · cases hbody with
    | kept hcount hlisted hbody =>
        have hold : s.projectReports projectId
            = (range' 1 s.reportCount).filter fun id => s.book.InProject projectId id :=
          hi.listed projectId
        rw [hcount, hlisted, hold]
        refine filter_congr fun id _ => ?_
        exact decide_eq_decide.mpr (ReportBook.inProject_congr (hbody id) projectId).symm
    | submitted _ hbook =>
        rw [hbook]
        exact ReportBook.listed_submit hi _ projectId
  · have hreported : ∃ r, s.report id = some r := by
      rcases h.reported hc with ⟨c', hc'⟩ | hsome
      · exact Option.isSome_iff_exists.mp (hi.disputed id c' hc')
      · exact Option.isSome_iff_exists.mp hsome
    obtain ⟨r, hr⟩ := hreported
    obtain ⟨r', hr', -⟩ := hbody.body_after hs hr
    rw [hr']
    rfl

/-- **The index invariant holds in every run.** -/
theorem oracleRun_indexed (clock : Clock) (admin : Address) (l : List OracleInput) :
    (oracleRun clock admin l).oracle.book.Indexed := by
  refine (oracleMachine.run_invariant
    (P := fun w => w.oracle.book.Sound ∧ w.oracle.book.Indexed) ?_ (fun w i hw => ?_) l).2
  · refine ⟨reports_sound_deploy admin, fun projectId => rfl, fun id c hc => ?_⟩
    cases hc
  · obtain ⟨hsound, hindexed⟩ := hw
    have hcases := w.step_cases i
    refine ⟨hcases.reports_sound hsound, ?_⟩
    show (w.step i).1.oracle.book.Indexed
    generalize (w.step i).1 = w' at hcases
    generalize (w.step i).2 = reply at hcases
    cases hcases with
    | close | failed => exact hindexed
    | moved _ hmove => exact hmove.indexed hsound hindexed

/-! ## Nothing submitted is lost -/

/-- Every report stays, with its body, and the lists go on. -/
structure ReportBook.Extends (b b' : ReportBook) : Prop where
  body : ∀ id r, b.report id = some r → ∃ r', b'.report id = some r' ∧ r'.body = r.body
  listed : ∀ projectId, b.projectReports projectId <+: b'.projectReports projectId

theorem ReportBook.Extends.trans {a b c : ReportBook} (h : a.Extends b) (h' : b.Extends c) :
    a.Extends c := by
  refine ⟨fun id r hr => ?_, fun projectId => (h.listed projectId).trans (h'.listed projectId)⟩
  obtain ⟨r₁, hr₁, hbody⟩ := h.body id r hr
  obtain ⟨r₂, hr₂, hbody'⟩ := h'.body id r₁ hr₁
  exact ⟨r₂, hr₂, hbody'.trans hbody⟩

theorem BodyMove.extend (hs : s.book.Sound) (h : BodyMove clock s b' call) : s.book.Extends b' := by
  refine ⟨fun id r => h.body_after hs, fun projectId => ?_⟩
  cases h with
  | kept _ hlisted => exact (prefix_refl _).trans (by rw [hlisted]; rfl)
  | @submitted sub _ hbook =>
      rw [hbook]
      show _ <+: update s.projectReports sub.projectId _ projectId
      by_cases hproject : projectId = sub.projectId
      · rw [hproject, update_self]
        exact prefix_append ..
      · rw [update_of_ne hproject]
        exact prefix_refl _

/-- **Reports are append-only.** Whatever calls follow, every report keeps all but its status, its
stamp and the stake beside it, and every list of a project goes on. At all times the list has exactly
the reports of its project, in the order of submission. -/
theorem oracle_reports_append_only (clock : Clock) (admin : Address) (l l' : List OracleInput) :
    let b := (oracleRun clock admin l).oracle.book
    b.Extends (oracleRun clock admin (l ++ l')).oracle.book ∧
      ∀ projectId, (b.projectReports projectId).Pairwise (· < ·) ∧
        ∀ id, id ∈ b.projectReports projectId ↔ ∃ r, b.report id = some r ∧ r.projectId = projectId := by
  intro b
  have hsound : b.Sound := oracleRun_reports_sound clock admin l
  refine ⟨(oracleMachine.run_after (P := fun w => w.oracle.book.Sound ∧ b.Extends w.oracle.book)
    ⟨hsound, ⟨fun _ r hr => ⟨r, hr, rfl⟩, fun _ => prefix_refl _⟩⟩
    fun w i ⟨hw, hextends⟩ => ?_).2, fun projectId => ?_⟩
  · have hcases := w.step_cases i
    refine ⟨hcases.reports_sound hw, ?_⟩
    show b.Extends (w.step i).1.oracle.book
    generalize (w.step i).1 = w' at hcases
    generalize (w.step i).2 = reply at hcases
    cases hcases with
    | close | failed => exact hextends
    | moved _ hmove => exact hextends.trans (hmove.bodyMove.extend hw)
  · have hindexed : b.Indexed := oracleRun_indexed clock admin l
    rw [hindexed.listed]
    refine ⟨(pairwise_lt_range' 1 Nat.one_pos).filter _, fun id => ?_⟩
    rw [mem_filter, mem_range'_1, decide_eq_true_iff, ReportBook.InProject,
      Option.map_eq_some_iff]
    refine ⟨And.right, fun h => ⟨?_, h⟩⟩
    obtain ⟨r, hr, -⟩ := h
    have hid := hsound.numbered id r hr
    omega

end VerdantBond
