import VerdantBond.Oracle.Steps

set_option autoImplicit false

/-! # OracleConsumer: the report invariant

Reports are numbered as they are submitted. A report is challenged exactly while its challenge is
open, and its verifiers are distinct and other than its provider. Every call keeps this.
-/

namespace VerdantBond

open Function

namespace ReportBook

/-- **The report invariant.** -/
structure Sound (b : ReportBook) : Prop where
  numbered : ∀ id r, b.report id = some r → 1 ≤ id ∧ id ≤ b.reportCount
  challenge_le : ∀ id c, b.challenge id = some c → id ≤ b.reportCount
  verifiers_nil : ∀ id, b.reportCount < id → b.verifiers id = []
  lifecycle : ∀ id r, b.report id = some r →
    (r.status = .challenged ↔ ∃ c, b.challenge id = some c ∧ c.resolved = false)
  distinct : ∀ id, (b.verifiers id).Nodup
  independent : ∀ id r, b.report id = some r → r.provider ∉ b.verifiers id

variable {b : ReportBook} {id : Nat} {r t : StoredReport}

theorem Sound.submit (h : b.Sound) (hpending : r.status = .pending) : (b.submit r).Sound where
  numbered := fun j x hx => by
    show 1 ≤ j ∧ j ≤ b.reportCount + 1
    by_cases hj : j = b.reportCount + 1
    · omega
    · obtain ⟨hlo, hhi⟩ := h.numbered j x ((update_of_ne hj ..).symm.trans hx)
      omega
  challenge_le := fun j c hc => by
    have hle := h.challenge_le j c hc
    show j ≤ b.reportCount + 1
    omega
  verifiers_nil := fun j hj => by
    have hlt : b.reportCount + 1 < j := hj
    exact h.verifiers_nil j (by omega)
  lifecycle := fun j x hx => by
    by_cases hj : j = b.reportCount + 1
    · subst hj
      have hnew : (b.submit r).report (b.reportCount + 1) = some r := update_self ..
      obtain rfl : r = x := Option.some.inj (hnew.symm.trans hx)
      constructor
      · intro hchallenged
        rw [hpending] at hchallenged
        cases hchallenged
      · -- a challenge belongs to a report that was submitted before
        rintro ⟨c, hc, -⟩
        have hle := h.challenge_le _ c hc
        omega
    · exact h.lifecycle j x ((update_of_ne hj ..).symm.trans hx)
  distinct := h.distinct
  independent := fun j x hx => by
    by_cases hj : j = b.reportCount + 1
    · have hnil : b.verifiers j = [] := h.verifiers_nil j (by omega)
      show x.provider ∉ b.verifiers j
      rw [hnil]
      exact List.not_mem_nil
    · exact h.independent j x ((update_of_ne hj ..).symm.trans hx)

theorem verifiers_vote (b : ReportBook) (id : Nat) (caller : Address) (n j : Nat) :
    (b.vote id caller n).verifiers j
      = if j = id ∧ caller ∉ b.verifiers id then b.verifiers id ++ [caller] else b.verifiers j := by
  unfold vote
  by_cases hrecorded : caller ∈ b.verifiers id
  · rw [if_pos hrecorded, if_neg (fun hthis => hthis.2 hrecorded)]
  · rw [if_neg hrecorded]
    show update b.verifiers id _ j = _
    by_cases hj : j = id
    · subst hj
      rw [update_self, if_pos ⟨rfl, hrecorded⟩]
    · rw [update_of_ne hj, if_neg (fun hthis => hj hthis.1)]

/-- A vote leaves everything but the verifiers and their count. -/
theorem vote_frame (b : ReportBook) (id : Nat) (caller : Address) (n : Nat) :
    (b.vote id caller n).report = b.report ∧ (b.vote id caller n).reportCount = b.reportCount ∧
      (b.vote id caller n).challenge = b.challenge ∧ (b.vote id caller n).disputed = b.disputed ∧
      (b.vote id caller n).config = b.config ∧
      (b.vote id caller n).lastVerifiedAt = b.lastVerifiedAt ∧
      (b.vote id caller n).window = b.window := by
  unfold vote
  split <;> exact ⟨rfl, rfl, rfl, rfl, rfl, rfl, rfl⟩

theorem Sound.vote (h : b.Sound) (hfound : b.report id = some r) {caller : Address}
    (hstranger : caller ≠ r.provider) (n : Nat) : (b.vote id caller n).Sound := by
  obtain ⟨hreport, hcount, hchallenge, -⟩ := vote_frame b id caller n
  refine ⟨?_, ?_, fun j hj => ?_, ?_, fun j => ?_, fun j x hx => ?_⟩
  · rw [hreport, hcount]
    exact h.numbered
  · rw [hchallenge, hcount]
    exact h.challenge_le
  · rw [hcount] at hj
    have hne : j ≠ id := by
      have hle := (h.numbered id r hfound).2
      omega
    rw [verifiers_vote, if_neg (fun hthis => hne hthis.1)]
    exact h.verifiers_nil j hj
  · rw [hreport, hchallenge]
    exact h.lifecycle
  · rw [verifiers_vote]
    split
    · next hnew =>
        rw [← List.concat_eq_append]
        exact (List.nodup_concat _ _).mpr ⟨hnew.2, h.distinct id⟩
    · exact h.distinct j
  · rw [hreport] at hx
    rw [verifiers_vote]
    split
    · next hnew =>
        obtain ⟨rfl, -⟩ := hnew
        obtain rfl : x = r := Option.some.inj (hx.symm.trans hfound)
        intro hmem
        rcases List.mem_append.mp hmem with hmem | hmem
        · exact h.independent j x hfound hmem
        · exact hstranger (List.mem_singleton.mp hmem).symm
    · exact h.independent j x hx

/-- Rewriting a report, and perhaps its challenge, keeps the invariant when the two agree. -/
theorem Sound.rewrite (h : b.Sound) (hfound : b.report id = some r)
    (hprovider : t.provider = r.provider) {b' : ReportBook}
    (hreport : b'.report = update b.report id (some t)) (hcount : b'.reportCount = b.reportCount)
    (hverifiers : b'.verifiers = b.verifiers)
    (hchallenge : ∀ j, j ≠ id → b'.challenge j = b.challenge j)
    (hlifecycle : t.status = .challenged ↔ ∃ c, b'.challenge id = some c ∧ c.resolved = false) :
    b'.Sound := by
  obtain ⟨hlo, hhi⟩ := h.numbered id r hfound
  refine ⟨fun j x hx => ?_, fun j c hc => ?_, ?_, fun j x hx => ?_, ?_, fun j x hx => ?_⟩
  · rw [hcount]
    by_cases hj : j = id
    · omega
    · rw [hreport, update_of_ne hj] at hx
      exact h.numbered j x hx
  · rw [hcount]
    by_cases hj : j = id
    · omega
    · rw [hchallenge j hj] at hc
      exact h.challenge_le j c hc
  · rw [hcount, hverifiers]
    exact h.verifiers_nil
  · by_cases hj : j = id
    · subst hj
      rw [hreport, update_self] at hx
      obtain rfl := Option.some.inj hx
      exact hlifecycle
    · rw [hreport, update_of_ne hj] at hx
      rw [hchallenge j hj]
      exact h.lifecycle j x hx
  · rw [hverifiers]
    exact h.distinct
  · rw [hverifiers]
    by_cases hj : j = id
    · subst hj
      rw [hreport, update_self] at hx
      obtain rfl := Option.some.inj hx
      rw [hprovider]
      exact h.independent j r hfound
    · rw [hreport, update_of_ne hj] at hx
      exact h.independent j x hx

theorem Sound.stamp (h : b.Sound) (hfound : b.report id = some r)
    (hundisputed : b.challenge id = none) (hprovider : t.provider = r.provider)
    (hverified : t.status = .verified) : (b.stamp id t).Sound := by
  refine h.rewrite hfound hprovider rfl rfl rfl (fun _ _ => rfl) ?_
  show t.status = .challenged ↔ ∃ c, b.challenge id = some c ∧ c.resolved = false
  rw [hverified, hundisputed]
  simp

theorem Sound.dispute (h : b.Sound) (hfound : b.report id = some r) {c : Challenge}
    (hopen : c.resolved = false) : (b.dispute id r c).Sound :=
  h.rewrite (t := { r with status := .challenged }) hfound rfl rfl rfl rfl
    (fun _ hj => update_of_ne hj ..) ⟨fun _ => ⟨c, update_self .., hopen⟩, fun _ => rfl⟩

theorem Sound.resolve (h : b.Sound) (hfound : b.report id = some r) (c : Challenge)
    {resolution : ReportStatus} (hterminal : resolution = .verified ∨ resolution = .rejected) :
    (b.resolve id r c resolution).Sound := by
  refine h.rewrite (t := { r with status := resolution }) hfound rfl rfl rfl rfl
    (fun _ hj => update_of_ne hj ..) ?_
  show resolution = .challenged ↔ ∃ x, update b.challenge id _ id = some x ∧ x.resolved = false
  rw [update_self]
  constructor
  · rintro rfl
    rcases hterminal with h | h <;> cases h
  · rintro ⟨x, hx, hopen⟩
    rw [← Option.some.inj hx] at hopen
    cases hopen

end ReportBook

/-! ## Calls and runs -/

/-- Every successful call keeps the invariant. -/
theorem OracleMove.reports_sound {clock : Clock} {s : OracleConsumer} {b' : ReportBook}
    {call : OracleCall} {reply : OracleReply} (hs : s.book.Sound)
    (h : OracleMove clock s b' call reply) : b'.Sound := by
  cases h with
  | aside _ hbook =>
      rw [hbook]
      exact hs
  | configure hbook =>
      rw [hbook]
      exact ⟨hs.numbered, hs.challenge_le, hs.verifiers_nil, hs.lifecycle, hs.distinct,
        hs.independent⟩
  | submit hbook =>
      rw [hbook]
      exact hs.submit rfl
  | vote hvote _ hbook =>
      rw [hbook]
      exact hs.vote hvote.found hvote.stranger _
  | @verify caller reportId nonce r hvote _ hbook =>
      obtain ⟨hreport, -, hchallenge, -⟩ := s.book.vote_frame reportId caller
        (s.tally reportId caller)
      rw [hbook]
      refine (hs.vote hvote.found hvote.stranger _).stamp (r := r) ?_ ?_ rfl rfl
      · rw [hreport]
        exact hvote.found
      · rw [hchallenge]
        exact hvote.undisputed
  | challenge hfound _ _ _ hbook =>
      rw [hbook]
      exact hs.dispute hfound rfl
  | settled _ _ hbook =>
      rw [hbook]
      exact hs
  | resolve _ _ hreported hterminal hbook =>
      rw [hbook]
      exact hs.resolve hreported _ hterminal

theorem OracleStep.reports_sound {w w' : OracleWorld} {i : OracleInput}
    {reply : Option OracleReply} (h : OracleStep w i w' reply) (hw : w.oracle.book.Sound) :
    w'.oracle.book.Sound := by
  cases h with
  | close | failed => exact hw
  | moved _ hmove => exact hmove.reports_sound hw

theorem reports_sound_deploy (admin : Address) : (OracleConsumer.deploy admin).book.Sound := by
  refine ⟨?_, ?_, fun _ _ => rfl, ?_, fun _ => List.nodup_nil, ?_⟩
  · intro id r h
    cases h
  · intro id c h
    cases h
  · intro id r h
    cases h
  · intro id r h
    cases h

/-- **The report invariant holds in every run.** -/
theorem oracleRun_reports_sound (clock : Clock) (admin : Address) (l : List OracleInput) :
    (oracleRun clock admin l).oracle.book.Sound := by
  refine oracleMachine.run_invariant (P := fun w => w.oracle.book.Sound)
    (reports_sound_deploy admin) (fun w i hw => ?_) l
  exact (w.step_cases i).reports_sound hw

end VerdantBond
