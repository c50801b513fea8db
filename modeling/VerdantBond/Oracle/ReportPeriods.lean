import Mathlib.Order.Interval.Set.Disjoint
import VerdantBond.Oracle.Index
import Mathlib.Order.CompletePartialOrder

set_option autoImplicit false

/-! # OracleConsumer: the reporting periods

A report covers the half-open period from its start to its end. `submit_report` compares a new report
with those its project lists, and the list has all reports of the project, so no two reports of one
project, provider and methodology ever cover the same moment. What happens to a report afterwards
does not touch its period.
-/

namespace VerdantBond

open Function

/-- The moments a report covers. -/
def StoredReport.period (r : StoredReport) : Set Nat := Set.Ico r.periodStart r.periodEnd

/-- The reports are about the same project, by the same provider and methodology. -/
structure StoredReport.SameSeries (r t : StoredReport) : Prop where
  project : r.projectId = t.projectId
  provider : r.provider = t.provider
  methodology : r.methodology = t.methodology

theorem StoredReport.period_of_body {r t : StoredReport} (h : r.body = t.body) :
    r.period = t.period := by
  show r.body.period = t.body.period
  rw [h]

/-- Which series a report is in can be read off what was submitted. -/
theorem StoredReport.SameSeries.of_body {r r' t t' : StoredReport} (hr : r'.body = r.body)
    (ht : t'.body = t.body) (h : r'.SameSeries t') : r.SameSeries t := by
  have hbody : r.body.SameSeries t.body := by
    rw [← hr, ← ht]
    exact ⟨h.project, h.provider, h.methodology⟩
  exact ⟨hbody.project, hbody.provider, hbody.methodology⟩

namespace ReportBook

/-- The periods are not empty, and those of one series are disjoint. -/
structure PeriodsApart (b : ReportBook) : Prop where
  nonempty : ∀ id r, b.report id = some r → r.period.Nonempty
  disjoint : ∀ id r id' t, b.report id = some r → b.report id' = some t → id ≠ id' →
    r.SameSeries t → Disjoint r.period t.period

/-- A book whose reports were all there before, with the same bodies. -/
theorem PeriodsApart.of_body {b b' : ReportBook} (h : b.PeriodsApart)
    (hbody : ∀ id r', b'.report id = some r' → ∃ r, b.report id = some r ∧ r'.body = r.body) :
    b'.PeriodsApart where
  nonempty := fun id r' hr' => by
    obtain ⟨r, hr, heq⟩ := hbody id r' hr'
    rw [StoredReport.period_of_body heq]
    exact h.nonempty id r hr
  disjoint := fun id r' id' t' hr' ht' hne hseries => by
    obtain ⟨r, hr, hrbody⟩ := hbody id r' hr'
    obtain ⟨t, ht, htbody⟩ := hbody id' t' ht'
    rw [StoredReport.period_of_body hrbody, StoredReport.period_of_body htbody]
    exact h.disjoint id r id' t hr ht hne (hseries.of_body hrbody htbody)

/-- A new report that is apart from the others of its series. -/
theorem PeriodsApart.submit {b : ReportBook} (h : b.PeriodsApart) {t : StoredReport}
    (hperiod : t.period.Nonempty)
    (hapart : ∀ id r, b.report id = some r → r.SameSeries t → Disjoint r.period t.period) :
    (b.submit t).PeriodsApart := by
  have hold : ∀ {id r}, (b.submit t).report id = some r → id ≠ b.reportCount + 1 →
      b.report id = some r := by
    intro id r hr hid
    exact (update_of_ne hid ..).symm.trans hr
  have hnew : ∀ {r}, (b.submit t).report (b.reportCount + 1) = some r → r = t := by
    intro r hr
    have hself : (b.submit t).report (b.reportCount + 1) = some t := update_self ..
    exact Option.some.inj (hr.symm.trans hself)
  constructor
  · intro id r hr
    by_cases hid : id = b.reportCount + 1
    · subst hid
      rw [hnew hr]
      exact hperiod
    · exact h.nonempty id r (hold hr hid)
  · -- the new report may stand on either side
    intro id r id' r' hr hr' hne hseries
    by_cases hid : id = b.reportCount + 1
    · subst hid
      obtain rfl := hnew hr
      refine (hapart id' r' (hold hr' (Ne.symm hne)) ?_).symm
      exact ⟨hseries.project.symm, hseries.provider.symm, hseries.methodology.symm⟩
    · by_cases hid' : id' = b.reportCount + 1
      · subst hid'
        obtain rfl := hnew hr'
        exact hapart id r (hold hr hid) hseries
      · exact h.disjoint id r id' r' (hold hr hid) (hold hr' hid') hne hseries

end ReportBook

/-- The overlap test of `submit_report` is the one of half-open intervals. -/
theorem ReportSubmission.disjoint_of_not_overlaps {sub : ReportSubmission} {clock : Clock} {id : Nat}
    {existing : StoredReport} (h : ¬ sub.Overlaps existing)
    (hseries : existing.SameSeries (sub.report clock id)) :
    Disjoint existing.period (sub.report clock id).period := by
  rw [StoredReport.period, StoredReport.period, Set.Ico_disjoint_Ico]
  show min existing.periodEnd sub.periodEnd ≤ max existing.periodStart sub.periodStart
  by_contra hlt
  refine h ⟨hseries.provider, hseries.methodology, ?_, ?_⟩ <;> omega

namespace OracleConsumer

variable {env : Env} {clock : Clock} {s s' : OracleConsumer}

/-- A submission that succeeds is apart from every report of its series: the project lists all of
them. -/
theorem exec_submit_apart (hs : s.book.Sound) (hi : s.book.Indexed) {sub : ReportSubmission}
    {reply : OracleReply} (h : s.exec env clock (.submitReport sub) = .ok (s', reply))
    {id : Nat} {r : StoredReport} (hr : s.report id = some r)
    (hseries : r.SameSeries (sub.report clock (s.reportCount + 1))) :
    Disjoint r.period (sub.report clock (s.reportCount + 1)).period := by
  obtain ⟨newId, hok, -⟩ := ofResult_ok_iff.mp (exec_ok_iff.mp h).2
  have hlisted : id ∈ s.projectReports sub.projectId := by
    have hrange := hs.numbered id r hr
    have hproject : s.book.InProject sub.projectId id := by
      show (s.report id).map _ = _
      rw [hr]
      exact congrArg some hseries.project
    have hindex : s.projectReports sub.projectId
        = (List.range' 1 s.reportCount).filter fun id => s.book.InProject sub.projectId id :=
      hi.listed sub.projectId
    rw [hindex, List.mem_filter, List.mem_range'_1]
    have hcount : s.book.reportCount = s.reportCount := rfl
    exact ⟨by omega, by simpa using hproject⟩
  obtain ⟨existing, hfound, hnot⟩ := submitReport_apart hok id hlisted
  obtain rfl : existing = r := Option.some.inj (hfound.symm.trans hr)
  exact ReportSubmission.disjoint_of_not_overlaps hnot hseries

/-- A successful call keeps the periods apart. -/
theorem exec_periodsApart (hs : s.book.Sound) (hi : s.book.Indexed) (ha : s.book.PeriodsApart)
    {call : OracleCall} {reply : OracleReply} (h : s.exec env clock call = .ok (s', reply)) :
    s'.book.PeriodsApart := by
  cases (exec_move h).bodyMove with
  | kept _ _ hbody =>
      refine ha.of_body fun id r' hr' => ?_
      have hid := hbody id
      rw [hr', Option.map_some, eq_comm, Option.map_eq_some_iff] at hid
      obtain ⟨r, hr, heq⟩ := hid
      exact ⟨r, hr, heq.symm⟩
  | @submitted sub hcall hbook =>
      subst hcall
      rw [hbook]
      apply ha.submit
      · exact Set.nonempty_Ico.mpr (exec_submit h).period
      · intro id r hr hseries
        exact exec_submit_apart hs hi h hr hseries

end OracleConsumer

/-- **Reporting periods never overlap**: in every reachable state every report covers a moment, and no
two reports of one project, provider and methodology cover the same one. -/
theorem reporting_periods_disjoint (clock : Clock) (admin : Address) (l : List OracleInput) :
    (oracleRun clock admin l).oracle.book.PeriodsApart := by
  induction l using List.reverseRecOn with
  | nil =>
      constructor
      · intro id r h
        cases h
      · intro id r id' t h
        cases h
  | append_singleton l i ih =>
      have hs := oracleRun_reports_sound clock admin l
      have hi := oracleRun_indexed clock admin l
      have hsnoc : oracleRun clock admin (l ++ [i]) = ((oracleRun clock admin l).step i).1 :=
        oracleMachine.run_snoc _ l i
      rw [hsnoc]
      cases i with
      | close ledgers seconds => exact ih
      | call env call =>
          rcases (oracleRun clock admin l).step_call env call with
            ⟨-, hstep⟩ | ⟨oracle, reply, hexec, hstep⟩
          · rw [hstep]
            exact ih
          · rw [hstep]
            exact OracleConsumer.exec_periodsApart hs hi ih hexec

end VerdantBond
