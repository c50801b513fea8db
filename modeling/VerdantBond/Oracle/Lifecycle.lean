import VerdantBond.Oracle.Reports

set_option autoImplicit false

/-! # OracleConsumer: the lives of a report and of its challenge

The status of a report and its challenge are two records under two keys. They agree in every state;
a report is challenged once in its life, a resolution is final, and so is a rejection.
-/

namespace VerdantBond

open Function

/-! ## The life of a challenge -/

/-- The event challenges the report. -/
def challengesIn (id : Nat) (e : OracleEvent) : Bool :=
  match e.input, e.output with
  | .call _ (.challengeReport _ reportId _ _), some _ => decide (reportId = id)
  | _, _ => false

/-- What a challenge says from the start: who made it, of which report, when and with what
evidence. -/
def Challenge.origin (c : Challenge) : Nat × Address × Bytes32 × Nat :=
  (c.reportId, c.challenger, c.counterEvidenceHash, c.submittedAt)

/-- What an event makes of the challenge of a report. -/
inductive ChallengeStep (w w' : OracleWorld) (e : OracleEvent) (id : Nat) : Prop where
  | kept (quiet : challengesIn id e = false)
      (challenge : w'.oracle.challenge id = w.oracle.challenge id)
  | opened {c : Challenge} (opens : challengesIn id e = true)
      (first : w.oracle.challenge id = none) (challenge : w'.oracle.challenge id = some c)
  | resolved {c c' : Challenge} (quiet : challengesIn id e = false)
      (found : w.oracle.challenge id = some c) (unresolved : c.resolved = false)
      (challenge : w'.oracle.challenge id = some c') (origin : c'.origin = c.origin)

variable {call : OracleCall} {reply : OracleReply} {clock : Clock} {admin : Address}
  {l : List OracleInput} {id : Nat} {c : Challenge} {r : StoredReport}

theorem challengesIn_of_aside (h : call.aside = true) (id : Nat) (env : Env) (w w' : OracleWorld)
    (reply : Option OracleReply) : challengesIn id ⟨w, .call env call, reply, w'⟩ = false := by
  cases call with
  | challengeReport => cases h
  | _ => rfl

theorem challengesIn_failed (id : Nat) (env : Env) (call : OracleCall) (w w' : OracleWorld) :
    challengesIn id ⟨w, .call env call, none, w'⟩ = false := by
  cases call <;> rfl

theorem OracleMove.challengeStep {w w' : OracleWorld} {env : Env}
    (h : OracleMove w.clock w.oracle w'.oracle.book call reply) (id : Nat) :
    ChallengeStep w w' ⟨w, .call env call, some reply, w'⟩ id := by
  have hchallenge : w'.oracle.challenge = w'.oracle.book.challenge := rfl
  generalize w'.oracle.book = b' at h hchallenge
  cases h with
  | aside haside hbook =>
      refine .kept (challengesIn_of_aside haside ..) ?_
      rw [hchallenge, hbook]
      rfl
  | configure hbook | submit hbook | settled _ _ hbook =>
      refine .kept rfl ?_
      rw [hchallenge, hbook]
      rfl
  | @vote caller reportId nonce r _ _ hbook =>
      refine .kept rfl ?_
      obtain ⟨-, -, hvote, -⟩ := w.oracle.book.vote_frame reportId caller
        (w.oracle.tally reportId caller)
      rw [hchallenge, hbook, hvote]
      rfl
  | @verify caller reportId nonce r _ _ hbook =>
      refine .kept rfl ?_
      obtain ⟨-, -, hvote, -⟩ := w.oracle.book.vote_frame reportId caller
        (w.oracle.tally reportId caller)
      rw [hchallenge, hbook]
      show (w.oracle.book.vote reportId caller _).challenge id = _
      rw [hvote]
      rfl
  | @challenge challenger reportId hash nonce r _ _ _ hfirst hbook =>
      by_cases hid : reportId = id
      · subst hid
        have hnew : w'.oracle.challenge reportId
            = some ⟨reportId, challenger, hash, w.clock.timestamp, false, 0⟩ := by
          rw [hchallenge, hbook]
          exact update_self ..
        exact .opened (decide_eq_true rfl) hfirst hnew
      · refine .kept (decide_eq_false hid) ?_
        rw [hchallenge, hbook]
        exact update_of_ne (Ne.symm hid) ..
  | @resolve caller reportId resolution nonce c r hfound hunresolved _ _ hbook =>
      by_cases hid : reportId = id
      · subst hid
        have hnew : w'.oracle.challenge reportId
            = some { c with resolved := true, resolution := resolution.code } := by
          rw [hchallenge, hbook]
          exact update_self ..
        exact .resolved rfl hfound hunresolved hnew rfl
      · refine .kept rfl ?_
        rw [hchallenge, hbook]
        exact update_of_ne (Ne.symm hid) ..

theorem OracleWorld.challengeStep (w : OracleWorld) (i : OracleInput) (id : Nat) :
    ChallengeStep w (w.step i).1 (oracleMachine.event w i) id := by
  show ChallengeStep w (w.step i).1 ⟨w, i, (w.step i).2, (w.step i).1⟩ id
  have hcases := w.step_cases i
  generalize (w.step i).1 = w' at hcases
  generalize (w.step i).2 = reply at hcases
  cases hcases with
  | close h =>
      subst h
      exact .kept rfl rfl
  | failed h =>
      subst h
      exact .kept (challengesIn_failed ..) rfl
  | moved h hmove =>
      subst h
      exact hmove.challengeStep id

/-- **A report has a challenge exactly after the one event that challenged it.** -/
theorem countP_challengesIn (clock : Clock) (admin : Address) (l : List OracleInput) (id : Nat) :
    (oracleHistory clock admin l).countP (challengesIn id)
      = if ((oracleRun clock admin l).oracle.challenge id).isSome = true then 1 else 0 := by
  refine oracleMachine.history_induct (P := fun es w => es.countP (challengesIn id)
    = if (w.oracle.challenge id).isSome = true then 1 else 0) rfl (fun l i h => ?_) l
  rw [List.countP_append, List.countP_singleton, h]
  cases OracleWorld.challengeStep (oracleMachine.run (OracleWorld.deploy clock admin) l) i id with
  | kept hquiet hchallenge =>
      rw [hquiet]
      show _ = if (((oracleMachine.run _ l).step i).1.oracle.challenge id).isSome = true then 1 else 0
      rw [hchallenge]
      rfl
  | opened hopens hfirst hchallenge =>
      rw [hopens]
      show _ = if (((oracleMachine.run _ l).step i).1.oracle.challenge id).isSome = true then 1 else 0
      rw [hfirst, hchallenge]
      rfl
  | resolved hquiet hfound _ hchallenge _ =>
      rw [hquiet]
      show _ = if (((oracleMachine.run _ l).step i).1.oracle.challenge id).isSome = true then 1 else 0
      rw [hfound, hchallenge]
      rfl

/-- A challenge stays the challenge it was. -/
theorem origin_after (h : (oracleRun clock admin l).oracle.challenge id = some c)
    (l' : List OracleInput) :
    ∃ c', (oracleRun clock admin (l ++ l')).oracle.challenge id = some c' ∧
      c'.origin = c.origin := by
  refine oracleMachine.run_after (P := fun w => ∃ c', w.oracle.challenge id = some c' ∧
    c'.origin = c.origin) ⟨c, h, rfl⟩ (fun w i hw => ?_)
  obtain ⟨c₁, hc₁, horigin⟩ := hw
  cases w.challengeStep i id with
  | kept _ hchallenge => exact ⟨c₁, hchallenge.trans hc₁, horigin⟩
  | opened _ hfirst _ =>
      rw [hfirst] at hc₁
      cases hc₁
  | @resolved c₂ c₃ _ hfound _ hchallenge horigin' =>
      obtain rfl := Option.some.inj (hfound.symm.trans hc₁)
      exact ⟨c₃, hchallenge, horigin'.trans horigin⟩

/-- A resolved challenge stays as it was resolved. -/
theorem resolved_after (h : (oracleRun clock admin l).oracle.challenge id = some c)
    (hresolved : c.resolved = true) (l' : List OracleInput) :
    (oracleRun clock admin (l ++ l')).oracle.challenge id = some c := by
  refine oracleMachine.run_after (P := fun w => w.oracle.challenge id = some c) h
    (fun w i hw => ?_)
  cases w.challengeStep i id with
  | kept _ hchallenge => exact hchallenge.trans hw
  | opened _ hfirst _ =>
      rw [hfirst] at hw
      cases hw
  | resolved _ hfound hunresolved _ _ =>
      obtain rfl := Option.some.inj (hfound.symm.trans hw)
      rw [hresolved] at hunresolved
      cases hunresolved

/-! ## The end of a report -/

/-- No call changes a rejected report. -/
theorem OracleMove.rejected_kept {s : OracleConsumer} {b' : ReportBook} (hs : s.book.Sound)
    (h : OracleMove clock s b' call reply) (hr : s.report id = some r)
    (hrejected : r.status = .rejected) : b'.report id = some r := by
  have hopen : ¬ (r.status = .pending ∨ r.status = .verified) := by
    rw [hrejected]
    decide
  cases h with
  | aside _ hbook | configure hbook | settled _ _ hbook =>
      rw [hbook]
      exact hr
  | submit hbook =>
      have hle : id ≤ s.reportCount := (hs.numbered id r hr).2
      rw [hbook]
      exact (update_of_ne (by omega : id ≠ s.reportCount + 1) ..).trans hr
  | @vote caller reportId _ _ _ _ hbook =>
      rw [hbook, (s.book.vote_frame reportId caller _).1]
      exact hr
  | @verify caller reportId _ r' hvote _ hbook =>
      have hne : id ≠ reportId := by
        rintro rfl
        obtain rfl := Option.some.inj (hr.symm.trans hvote.found)
        exact hopen hvote.status
      rw [hbook]
      refine (update_of_ne hne ..).trans ?_
      rw [(s.book.vote_frame reportId caller _).1]
      exact hr
  | @challenge challenger reportId _ _ r' hfound hstatus _ _ hbook =>
      have hne : id ≠ reportId := by
        rintro rfl
        obtain rfl := Option.some.inj (hr.symm.trans hfound)
        exact hopen hstatus
      rw [hbook]
      exact (update_of_ne hne ..).trans hr
  | @resolve caller reportId _ _ c r' hfound hunresolved hreported _ hbook =>
      -- an open challenge belongs to a challenged report
      have hne : id ≠ reportId := by
        rintro rfl
        obtain rfl := Option.some.inj (hr.symm.trans hreported)
        have hchallenged := (hs.lifecycle id r hr).mpr ⟨c, hfound, hunresolved⟩
        rw [hrejected] at hchallenged
        cases hchallenged
      rw [hbook]
      exact (update_of_ne hne ..).trans hr

theorem rejected_after (h : (oracleRun clock admin l).oracle.report id = some r)
    (hrejected : r.status = .rejected) (l' : List OracleInput) :
    (oracleRun clock admin (l ++ l')).oracle.report id = some r := by
  refine (oracleMachine.run_after (P := fun w => w.oracle.book.Sound ∧ w.oracle.report id = some r)
    ⟨oracleRun_reports_sound clock admin l, h⟩ (fun w i hw => ?_)).2
  obtain ⟨hsound, hr⟩ := hw
  have hcases := w.step_cases i
  refine ⟨hcases.reports_sound hsound, ?_⟩
  show (w.step i).1.oracle.report id = some r
  generalize (w.step i).1 = w' at hcases
  generalize (w.step i).2 = reply at hcases
  cases hcases with
  | close | failed => exact hr
  | moved _ hmove => exact hmove.rejected_kept hsound hr hrejected

/-! ## Runs -/

/-- How the lives of a report and of its challenge go together, after the inputs `l` and any that
follow. -/
structure LifecyclesAgree (clock : Clock) (admin : Address) (l : List OracleInput) (id : Nat) :
    Prop where
  /-- The report is challenged exactly while its challenge is open. -/
  open_iff : ∀ r, (oracleRun clock admin l).oracle.report id = some r →
    ((∃ c, (oracleRun clock admin l).oracle.challenge id = some c ∧ c.resolved = false) ↔
      r.status = .challenged)
  /-- It is challenged at most once, and the challenge stays the one that was made. -/
  once : (oracleHistory clock admin l).countP (challengesIn id) ≤ 1
  same : ∀ c, (oracleRun clock admin l).oracle.challenge id = some c → ∀ l',
    ∃ c', (oracleRun clock admin (l ++ l')).oracle.challenge id = some c' ∧ c'.origin = c.origin
  /-- A resolution is final. -/
  resolution_final : ∀ c, (oracleRun clock admin l).oracle.challenge id = some c →
    c.resolved = true → ∀ l', (oracleRun clock admin (l ++ l')).oracle.challenge id = some c
  /-- A rejection is final. -/
  rejection_final : ∀ r, (oracleRun clock admin l).oracle.report id = some r →
    r.status = .rejected → ∀ l', (oracleRun clock admin (l ++ l')).oracle.report id = some r

/-- **Report and challenge lifecycles agree**, in every run. -/
theorem lifecycles_agree (clock : Clock) (admin : Address) (l : List OracleInput) (id : Nat) :
    LifecyclesAgree clock admin l id := by
  refine ⟨fun r hr => ?_, ?_, fun c hc l' => origin_after hc l',
    fun c hc hresolved l' => resolved_after hc hresolved l',
    fun r hr hrejected l' => rejected_after hr hrejected l'⟩
  · exact ((oracleRun_reports_sound clock admin l).lifecycle id r hr).symm
  · rw [countP_challengesIn]
    split
    · exact le_refl _
    · exact Nat.zero_le _

end VerdantBond
