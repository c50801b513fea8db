import VerdantBond.Backfill.Runner

set_option autoImplicit false
set_option linter.unusedSectionVars false

/-! # Interrupted runs

For a job that plans nothing for a record it has changed, every record is at any time as it was before
the run or `settled`, and a key at or before the cursor is settled. So it does not matter how often a
batch is planned again: a completed run leaves what one uninterrupted `apply` leaves
(`completed_eq_uninterrupted`).
-/

namespace VerdantBond

open Function List BackfillWorld

variable {κ R : Type} [LinearOrder κ] {job : BackfillJob κ R}

/-! ## Settled records -/

/-- The record after its change. -/
def BackfillJob.settled (job : BackfillJob κ R) (key : κ) (record : Option R) : Option R :=
  record.map fun r =>
    match job.plan key r with
    | .update after => after
    | _ => r

/-- The job plans no change for a record that it has changed. -/
def BackfillJob.PlansOnce (job : BackfillJob κ R) : Prop :=
  ∀ key r after, job.plan key r = .update after → ∀ again, job.plan key after ≠ .update again

theorem settled_settled (h : job.PlansOnce) (key : κ) (record : Option R) :
    job.settled key (job.settled key record) = job.settled key record := by
  cases record with
  | none => rfl
  | some r =>
      simp only [BackfillJob.settled, Option.map_some, Option.some.injEq]
      cases hplan : job.plan key r with
      | update after =>
          cases hagain : job.plan key after with
          | update again => exact absurd hagain (h key r after hplan again)
          | noop => rfl
          | skip => rfl
          | fails => rfl
      | noop => simp only [hplan]
      | skip => simp only [hplan]
      | fails => simp only [hplan]

theorem commitChanges_snoc (records : κ → Option R) (changes : List (BackfillChange κ R))
    (c : BackfillChange κ R) : commitChanges records (changes ++ [c])
      = update (commitChanges records changes) c.key (some c.after) := by
  rw [commitChanges, foldl_append]
  rfl

variable {records : κ → Option R} {changes : List (BackfillChange κ R)}

theorem commitChanges_of_not_mem {key : κ} (h : ∀ c ∈ changes, c.key ≠ key) :
    commitChanges records changes key = records key := by
  induction changes using reverseRecOn with
  | nil => rfl
  | append_singleton changes c ih =>
      rw [commitChanges_snoc, update_of_ne (h c (by simp)).symm]
      exact ih fun c' hc' => h c' (mem_append_left _ hc')

theorem commitChanges_of_mem {key : κ} {after : R} (hmem : ∃ c ∈ changes, c.key = key)
    (h : ∀ c ∈ changes, c.key = key → c.after = after) :
    commitChanges records changes key = some after := by
  induction changes using reverseRecOn with
  | nil =>
      obtain ⟨c, hc, -⟩ := hmem
      cases hc
  | append_singleton changes c ih =>
      rw [commitChanges_snoc]
      by_cases hkey : c.key = key
      · subst hkey
        rw [update_self, h c (by simp) rfl]
      · rw [update_of_ne (Ne.symm hkey)]
        refine ih ?_ fun c' hc' => h c' (mem_append_left _ hc')
        obtain ⟨c', hc', hc'key⟩ := hmem
        rcases mem_append.mp hc' with hc' | hc'
        · exact ⟨c', hc', hc'key⟩
        · cases mem_singleton.mp hc'
          exact absurd hc'key hkey

/-- **A committed batch settles its keys** and leaves the others. -/
theorem commitChanges_planBatch (records : κ → Option R) (keys : List κ) (key : κ) :
    commitChanges records (job.planBatch records keys) key
      = if key ∈ keys then job.settled key (records key) else records key := by
  by_cases hplanned : ∃ c ∈ job.planBatch records keys, c.key = key
  · obtain ⟨c, hc, rfl⟩ := hplanned
    obtain ⟨hkey, hbefore, hplan⟩ := mem_planBatch hc
    -- another change of the record has the same plan
    have hsame : ∀ c' ∈ job.planBatch records keys, c'.key = c.key → c'.after = c.after := by
      intro c' hc' hc'key
      obtain ⟨-, hbefore', hplan'⟩ := mem_planBatch hc'
      rw [hc'key, hbefore] at hbefore'
      rw [hc'key, ← Option.some.inj hbefore', hplan] at hplan'
      exact (BackfillDecision.update.inj hplan').symm
    rw [if_pos hkey, hbefore, commitChanges_of_mem ⟨c, hc, rfl⟩ hsame]
    simp [BackfillJob.settled, hplan]
  · rw [commitChanges_of_not_mem fun c hc hkey => hplanned ⟨c, hc, hkey⟩]
    split
    · next hkey =>
        cases hrecord : records key with
        | none => rfl
        | some r =>
            simp only [BackfillJob.settled, Option.map_some]
            cases hplan : job.plan key r with
            | update after =>
                refine absurd ⟨⟨key, r, after⟩, ?_, rfl⟩ hplanned
                exact mem_filterMap.mpr ⟨key, hkey, by simp [hrecord, hplan]⟩
            | noop => rfl
            | skip => rfl
            | fails => rfl
    · rfl

/-! ## The invariant -/

/-- The key has its change and has been planned. -/
def Reached (job : BackfillJob κ R) (origin : κ → Option R) (planned : κ → Prop)
    (w : BackfillWorld κ R) (key : κ) : Prop :=
  w.records key = job.settled key (origin key) ∧ planned key

structure Advanced (job : BackfillJob κ R) (origin : κ → Option R) (planned : κ → Prop)
    (w : BackfillWorld κ R) : Prop where
  records : ∀ key, w.records key = origin key ∨
    key ∈ job.listKeys ∧ w.records key = job.settled key (origin key)
  cursor : ∀ checkpoint, w.checkpoint = some checkpoint → ∀ c, checkpoint.cursor = some c →
    ∀ key ∈ job.listKeys, key ≤ c → Reached job origin planned w key
  ahead : ∀ s, w.session = some s → s.ahead.Pairwise (· ≤ ·) ∧ s.ahead ⊆ job.listKeys ∧
    ∀ key ∈ job.listKeys, key ∉ s.ahead → Reached job origin planned w key
  completed : ∀ checkpoint, w.checkpoint = some checkpoint → checkpoint.status = .completed →
    ∀ key ∈ job.listKeys, Reached job origin planned w key

variable {origin : κ → Option R} {planned : κ → Prop} {w : BackfillWorld κ R}

theorem Advanced.begin (h : Advanced job origin planned w) (cursor : Option κ)
    (hcursor : ∀ c, cursor = some c → ∀ key ∈ job.listKeys, key ≤ c → Reached job origin planned w key)
    (batchSize : Nat) (limit : Option Nat) :
    Advanced job origin planned (w.begin job cursor batchSize limit) := by
  have hmem : ∀ key, key ∈ job.selectKeys cursor ↔
      key ∈ job.listKeys ∧ ∀ c, cursor = some c → c < key := by
    intro key
    rw [BackfillJob.selectKeys, mem_filter, mem_insertionSort]
    cases cursor with
    | none => simp
    | some c => simp
  refine ⟨h.records, ?_, ?_, ?_⟩
  · rintro checkpoint ⟨⟩ c hc
    exact hcursor c hc
  · rintro s ⟨⟩
    refine ⟨?_, fun key hkey => ((hmem key).mp hkey).1, fun key hkey hnot => ?_⟩
    · exact (pairwise_insertionSort (· ≤ ·) job.listKeys).filter _
    · -- a key that is not selected is not behind the cursor
      rw [hmem, not_and, not_forall] at hnot
      obtain ⟨c, hc⟩ := hnot hkey
      rw [Classical.not_imp, not_lt] at hc
      exact hcursor c hc.1 key hkey hc.2
  · rintro checkpoint ⟨⟩ hstatus
    cases hstatus

theorem Advanced.lose (h : Advanced job origin planned w) : Advanced job origin planned w.lose :=
  ⟨h.records, h.cursor, fun s hs => (by cases hs), h.completed⟩

theorem Advanced.conclude (h : Advanced job origin planned w) (status : BackfillStatus)
    (hstatus : status = .completed → ∀ key ∈ job.listKeys, Reached job origin planned w key) :
    Advanced job origin planned (w.conclude status) := by
  refine ⟨h.records, ?_, fun s hs => (by cases hs), ?_⟩
  · intro checkpoint hcheckpoint c hc
    obtain ⟨old, hold, rfl⟩ := Option.map_eq_some_iff.mp hcheckpoint
    exact h.cursor old hold c hc
  · intro checkpoint hcheckpoint hcompleted
    obtain ⟨old, hold, rfl⟩ := Option.map_eq_some_iff.mp hcheckpoint
    exact hstatus hcompleted

theorem Advanced.planned_mono (planned' : κ → Prop) (h : Advanced job origin planned w)
    (hmono : ∀ key, planned key → planned' key) : Advanced job origin planned' w := by
  have hreached : ∀ key, Reached job origin planned w key → Reached job origin planned' w key :=
    fun key hkey => ⟨hkey.1, hmono key hkey.2⟩
  exact ⟨h.records, fun p hp c hc key hkey hle => hreached key (h.cursor p hp c hc key hkey hle),
    fun s hs => ⟨(h.ahead s hs).1, (h.ahead s hs).2.1,
      fun key hkey hnot => hreached key ((h.ahead s hs).2.2 key hkey hnot)⟩,
    fun p hp hstatus key hkey => hreached key (h.completed p hp hstatus key hkey)⟩

/-- The journal does not matter here. -/
theorem Advanced.withJournal (h : Advanced job origin planned w) (journal : BackfillJournal κ R) :
    Advanced job origin planned { w with journal } :=
  ⟨h.records, h.cursor, h.ahead, h.completed⟩

section Commit

variable {s : BackfillSession κ}

variable {keys : List κ}

/-- What is reached stays so when a batch is committed, and its keys are reached. -/
theorem reached_commit (hplan : job.PlansOnce) (h : Advanced job origin planned w) {key : κ}
    (hkey : Reached job origin planned w key ∨ key ∈ keys ∧ planned key) {w' : BackfillWorld κ R}
    (hrecords : w'.records = commitChanges w.records (job.planBatch w.records keys)) :
    Reached job origin planned w' key := by
  have hsettled : ∀ key, job.settled key (w.records key) = job.settled key (origin key) := by
    intro key
    rcases h.records key with heq | ⟨-, heq⟩
    · rw [heq]
    · rw [heq, settled_settled hplan]
  refine ⟨?_, hkey.elim And.right And.right⟩
  rw [hrecords, commitChanges_planBatch, hsettled]
  split
  · rfl
  · next hnot => exact (hkey.resolve_right fun hmem => hnot hmem.1).1

/-- The batch is committed; nothing else happens yet. -/
theorem Advanced.commit (hplan : job.PlansOnce) (h : Advanced job origin planned w)
    (hkeys : keys ⊆ job.listKeys) (journal : BackfillJournal κ R) :
    Advanced job origin planned
      { w with journal, records := commitChanges w.records (job.planBatch w.records keys) } := by
  refine ⟨fun key => ?_, fun p hp c hc key hkey hle => ?_, fun s hs => ?_,
    fun p hp hstatus key hkey => ?_⟩
  · dsimp only
    rw [commitChanges_planBatch]
    split
    · next hmem =>
        refine .inr ⟨hkeys hmem, ?_⟩
        rcases h.records key with heq | ⟨-, heq⟩
        · rw [heq]
        · rw [heq, settled_settled hplan]
    · exact h.records key
  · exact reached_commit hplan h (.inl (h.cursor p hp c hc key hkey hle)) rfl
  · refine ⟨(h.ahead s hs).1, (h.ahead s hs).2.1, fun key hkey hnot => ?_⟩
    exact reached_commit hplan h (.inl ((h.ahead s hs).2.2 key hkey hnot)) rfl
  · exact reached_commit hplan h (.inl (h.completed p hp hstatus key hkey)) rfl

/-- **The checkpoint behind a committed batch**: no key up to its last one is left. -/
theorem Advanced.checkpoint (hplan : job.PlansOnce) (h : Advanced job origin planned w)
    (hs : w.session = some s) (hbatch : ∀ key ∈ s.batch, planned key) (journal : BackfillJournal κ R) :
    Advanced job origin planned
      { w with
        journal
        records := commitChanges w.records (job.planBatch w.records s.batch)
        checkpoint := some ⟨.running, s.batch.getLast?⟩
        session := some s.next } := by
  obtain ⟨hsorted, hsubset, hahead⟩ := h.ahead s hs
  have hkeys : s.batch ⊆ job.listKeys := fun key hkey => hsubset (mem_of_mem_take hkey)
  have hsplit : s.batch ++ s.next.ahead = s.ahead := take_append_drop _ _
  rw [← hsplit, pairwise_append] at hsorted
  have hcommit := h.commit hplan hkeys journal
  refine ⟨hcommit.records, ?_, ?_, ?_⟩
  · rintro checkpoint ⟨⟩ c hc key hkey hle
    have hlast : c ∈ s.batch := mem_of_getLast? hc
    refine reached_commit hplan h ?_ rfl
    by_cases hmem : key ∈ s.ahead
    · -- what comes behind the batch is not before its last key
      rw [← hsplit] at hmem
      rcases mem_append.mp hmem with hin | hbehind
      · exact .inr ⟨hin, hbatch key hin⟩
      · have heq : key = c := le_antisymm hle (hsorted.2.2 c hlast key hbehind)
        exact .inr ⟨heq ▸ hlast, hbatch key (heq ▸ hlast)⟩
    · exact .inl (hahead key hkey hmem)
  · rintro s' ⟨⟩
    refine ⟨hsorted.2.1, fun key hkey => hsubset (mem_of_mem_drop hkey), fun key hkey hnot => ?_⟩
    refine reached_commit hplan h ?_ rfl
    by_cases hmem : key ∈ s.ahead
    · rw [← hsplit] at hmem
      have hin := (mem_append.mp hmem).resolve_right hnot
      exact .inr ⟨hin, hbatch key hin⟩
    · exact .inl (hahead key hkey hmem)
  · rintro checkpoint ⟨⟩ hstatus
    cases hstatus

theorem runBatch_planned (w : BackfillWorld κ R) (course : BatchCourse) :
    (w.runBatch job s course).2.planned = s.batch := by
  cases course with
  | tornAppend whole torn => rfl
  | crash committed =>
      cases committed with
      | false => rfl
      | true => rfl
  | commitFails wrote =>
      simp only [runBatch]
      split
      · rfl
      · cases wrote with
        | false => rfl
        | true => rfl
  | done abort => rfl

/-- **One batch**, however it goes. -/
theorem Advanced.runBatch (hplan : job.PlansOnce) (h : Advanced job origin planned w)
    (hs : w.session = some s) (hbatch : ∀ key ∈ s.batch, planned key) (course : BatchCourse) :
    Advanced job origin planned (w.runBatch job s course).1 := by
  have hkeys : s.batch ⊆ job.listKeys := fun key hkey =>
    (h.ahead s hs).2.1 (mem_of_mem_take hkey)
  have hnot : ∀ status : BackfillStatus, status = .aborted → status ≠ .completed := by
    rintro status rfl hcompleted
    cases hcompleted
  cases course with
  | tornAppend whole torn => exact (h.withJournal _).lose
  | crash committed =>
      cases committed with
      | false => exact (h.withJournal _).lose
      | true => exact (h.commit hplan hkeys _).lose
  | commitFails wrote =>
      simp only [BackfillWorld.runBatch]
      split
      · exact h.checkpoint hplan hs hbatch _
      · cases wrote with
        | false => exact (h.withJournal _).conclude _ fun hstatus => absurd hstatus (hnot _ rfl)
        | true =>
            exact (h.commit hplan hkeys _).conclude _ fun hstatus => absurd hstatus (hnot _ rfl)
  | done abort =>
      cases abort with
      | false => exact h.checkpoint hplan hs hbatch _
      | true =>
          exact (h.checkpoint hplan hs hbatch _).conclude _ fun hstatus =>
            absurd hstatus (hnot _ rfl)

end Commit

/-! ## Runs -/

/-- The keys that the steps have planned. -/
def PlannedIn (events : List (BackfillEvent κ R)) (key : κ) : Prop := ∃ e ∈ events, key ∈ e.output.planned

theorem advanced_step (hplan : job.PlansOnce) (h : Advanced job origin planned w) (input : BackfillInput) :
    Advanced job origin
      (fun key => planned key ∨ key ∈ ((backfillMachine job).step w input).2.planned)
      ((backfillMachine job).step w input).1 := by
  have hmono := h.planned_mono
    (fun key => planned key ∨ key ∈ ((backfillMachine job).step w input).2.planned) fun key => .inl
  cases input with
  | apply resume batchSize limit =>
      change Advanced job origin _ (w.apply job resume batchSize limit)
      unfold apply
      split
      · exact hmono.begin none (fun c hc => (by cases hc)) batchSize limit
      · next checkpoint _ hcheckpoint =>
          split
          · exact hmono
          · exact hmono.begin checkpoint.cursor (hmono.cursor checkpoint hcheckpoint) batchSize limit
      · exact hmono
  | batch course =>
      revert hmono
      simp only [backfillMachine]
      cases hsession : w.session with
      | none => exact fun hmono => hmono
      | some s =>
          by_cases hactive : s.active
          · simp only [if_pos hactive]
            intro hmono
            refine hmono.runBatch hplan hsession (fun key hkey => .inr ?_) course
            rwa [runBatch_planned]
          · simp only [if_neg hactive]
            exact fun hmono => hmono
  | stop =>
      revert hmono
      simp only [backfillMachine]
      cases w.session with
      | none => exact fun hmono => hmono
      | some s =>
          intro hmono
          dsimp only at hmono ⊢
          split
          · exact hmono.conclude _ fun hstatus => (by cases hstatus)
          · exact hmono
  | finish =>
      revert hmono
      simp only [backfillMachine]
      cases hsession : w.session with
      | none => exact fun hmono => hmono
      | some s =>
          intro hmono
          dsimp only at hmono ⊢
          split
          · exact hmono
          · split
            · next hahead =>
                -- nothing is left
                refine hmono.conclude _ fun _ key hkey => (hmono.ahead s hsession).2.2 key hkey ?_
                rw [hahead]
                exact not_mem_nil
            · exact hmono.conclude _ fun hstatus => (by cases hstatus)
  | crash => exact hmono.lose

theorem advanced_run (hplan : job.PlansOnce) (records : κ → Option R) (inputs : List BackfillInput) :
    Advanced job records (PlannedIn ((backfillMachine job).history (.initial records) inputs))
      ((backfillMachine job).run (.initial records) inputs) := by
  refine (backfillMachine job).history_induct (P := fun es w => Advanced job records (PlannedIn es) w)
    ?_ ?_ inputs
  · refine ⟨fun key => .inl rfl, ?_, ?_, ?_⟩
    · rintro checkpoint ⟨⟩
    · rintro s ⟨⟩
    · rintro checkpoint ⟨⟩
  · intro l input hadvanced
    refine (advanced_step hplan hadvanced input).planned_mono _ fun key hkey => ?_
    rcases hkey with ⟨e, he, hkey⟩ | hkey
    · exact ⟨e, mem_append_left _ he, hkey⟩
    · exact ⟨_, mem_append_right _ mem_cons_self, hkey⟩

/-- The run has status `completed`. -/
def BackfillWorld.IsCompleted (w : BackfillWorld κ R) : Prop :=
  ∃ checkpoint, w.checkpoint = some checkpoint ∧ checkpoint.status = .completed

/-- A completed run has settled its keys, and only these. -/
theorem records_of_completed (hplan : job.PlansOnce) {inputs : List BackfillInput}
    (h : ((backfillMachine job).run (.initial records) inputs).IsCompleted) (key : κ) :
    ((backfillMachine job).run (.initial records) inputs).records key
      = if key ∈ job.listKeys then job.settled key (records key) else records key := by
  obtain ⟨checkpoint, hcheckpoint, hstatus⟩ := h
  have hadvanced := advanced_run hplan records inputs
  split
  · next hkey => exact (hadvanced.completed checkpoint hcheckpoint hstatus key hkey).1
  · next hkey => exact (hadvanced.records key).resolve_right fun hin => hkey hin.1

/-- One `apply` of the whole job, in one batch. -/
def uninterrupted (job : BackfillJob κ R) : List BackfillInput :=
  [.apply false job.listKeys.length none, .batch (.done false), .finish]

theorem uninterrupted_completed (job : BackfillJob κ R) (records : κ → Option R) :
    ((backfillMachine job).run (.initial records) (uninterrupted job)).IsCompleted := by
  let s : BackfillSession κ := ⟨job.selectKeys none, job.listKeys.length, none⟩
  -- the end of a loop that has nothing left
  have hfinish : ∀ (w : BackfillWorld κ R) (s : BackfillSession κ), w.session = some s → s.ahead = [] →
      w.checkpoint.isSome → ((backfillMachine job).step w .finish).1.IsCompleted := by
    intro w s hs hahead hcheckpoint
    obtain ⟨checkpoint, hcheckpoint⟩ := Option.isSome_iff_exists.mp hcheckpoint
    have hinactive : ¬ s.active := fun h => h.1 hahead
    simp only [backfillMachine, hs, if_neg hinactive, if_pos hahead]
    exact ⟨{ checkpoint with status := .completed }, by simp [conclude, hcheckpoint], rfl⟩
  have hrest : s.next.ahead = [] := by
    refine drop_eq_nil_of_le ?_
    have hlength : (job.selectKeys none).length ≤ job.listKeys.length :=
      (length_filter_le _ _).trans (length_insertionSort _ _).le
    exact hlength.trans (le_max_right _ _)
  simp only [Machine.run, uninterrupted, foldl_cons, foldl_nil]
  change ((backfillMachine job).step ((backfillMachine job).step
    (begin job (.initial records) none _ none) (.batch (.done false))).1 .finish).1.IsCompleted
  have hsession : (begin job (.initial records) none job.listKeys.length none).session
      = some s := rfl
  by_cases hactive : s.active
  · refine hfinish _ s.next ?_ hrest ?_
    · simp only [backfillMachine, hsession, if_pos hactive]
      rfl
    · simp only [backfillMachine, hsession, if_pos hactive]
      rfl
  · have hahead : s.ahead = [] := by
      by_contra hne
      exact hactive ⟨hne, fun hroom => (by cases hroom)⟩
    refine hfinish _ s ?_ hahead ?_
    · simp only [backfillMachine, hsession, if_neg hactive]
    · simp only [backfillMachine, hsession, if_neg hactive]
      rfl

/-- **A completed run leaves what one uninterrupted `apply` leaves**, and has planned every key. -/
theorem completed_eq_uninterrupted (job : BackfillJob κ R) (hplan : job.PlansOnce)
    (records : κ → Option R) (inputs : List BackfillInput)
    (h : ((backfillMachine job).run (.initial records) inputs).IsCompleted) :
    ((backfillMachine job).run (.initial records) (uninterrupted job)).IsCompleted ∧
      ((backfillMachine job).run (.initial records) inputs).records
        = ((backfillMachine job).run (.initial records) (uninterrupted job)).records ∧
      ∀ key ∈ job.listKeys, ∃ e ∈ (backfillMachine job).history (.initial records) inputs,
        key ∈ e.output.planned := by
  have honce := uninterrupted_completed job records
  refine ⟨honce, ?_, fun key hkey => ?_⟩
  · funext key
    rw [records_of_completed hplan h, records_of_completed hplan honce]
  · obtain ⟨checkpoint, hcheckpoint, hstatus⟩ := h
    exact ((advanced_run hplan records inputs).completed checkpoint hcheckpoint hstatus key hkey).2

namespace BackfillSample

/-- A limit, a commit that is reported as failed, and a stop. -/
def interrupted : List BackfillInput :=
  [.apply false 1 (some 1), .batch (.done false), .finish, .apply true 2 none,
   .batch (.commitFails true), .apply true 2 none, .stop, .apply true 2 none, .batch (.done false),
   .finish]

end BackfillSample

open BackfillSample in
theorem completed_eq_uninterrupted_sample :
    (after [2, 1] interrupted).records 1 = some 11 ∧
      (after [2, 1] interrupted).records
        = (after [2, 1] (uninterrupted (BackfillSample.job [2, 1]))).records := by
  refine ⟨by decide,
    (completed_eq_uninterrupted (BackfillSample.job [2, 1]) ?_ records interrupted ?_).2.1⟩
  · intro key r after hplan again hagain
    simp only [BackfillSample.job] at hplan hagain
    split at hplan
    · next hlt =>
        cases hplan
        rw [if_neg (by omega)] at hagain
        cases hagain
    · cases hplan
  · exact ⟨⟨.completed, some 2⟩, by decide, rfl⟩

end VerdantBond
