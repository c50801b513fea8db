import VerdantBond.Backfill.Runner

set_option autoImplicit false
set_option linter.unusedSectionVars false

/-! # Rolling a run back

Every change is in the journal before it is committed, with the value that the record has at that time.
So undoing the entries of the journal, the newest first, takes the records back through the states in
which the entries were written, whether an entry was committed or not (`Undoes`), down to the records
before the run (`backfill_rolls_back`).

This needs every entry to be read. A crash in the middle of an append leaves a line without its end,
and the first entry of the next batch is written behind it: the two are one line that is no entry
(`backfill_rollback_misses`).
-/

namespace VerdantBond

open Function List

variable {κ R : Type} [LinearOrder κ] [DecidableEq R]

/-! ## Undoing entries -/

/-- Undoing the entries, the newest first, leads from the records to the origin without a conflict. -/
def Undoes (entries : List (BackfillChange κ R)) (records origin : κ → Option R) : Prop :=
  ∀ result, ∃ restored, entries.reverse.foldl restoreChange (records, result)
    = (origin, ⟨restored, result.conflicts⟩)

theorem undoes_nil (records : κ → Option R) : Undoes [] records records := fun result =>
  ⟨result.restored, rfl⟩

section Runs

variable {entries changes : List (BackfillChange κ R)} {records origin made : κ → Option R}
  {file : LineFile (BackfillChange κ R)} {journal : BackfillJournal κ R} {job : BackfillJob κ R}

theorem Undoes.append {between : κ → Option R} (h : Undoes entries between origin)
    (h' : Undoes changes records between) : Undoes (entries ++ changes) records origin := by
  intro result
  obtain ⟨restored', hchanges⟩ := h' result
  obtain ⟨restored, hentries⟩ := h ⟨restored', result.conflicts⟩
  refine ⟨restored, ?_⟩
  rw [reverse_append, foldl_append, hchanges, hentries]

/-- Changes planned for the records: each has the value of its record, and one result for a key. -/
structure PlannedFor (records : κ → Option R) (changes : List (BackfillChange κ R)) : Prop where
  before : ∀ c ∈ changes, records c.key = some c.before
  after : ∀ c ∈ changes, ∀ c' ∈ changes, c.key = c'.key → c.after = c'.after

/-- Some of the changes have been made. -/
def Between (records made : κ → Option R) (changes : List (BackfillChange κ R)) : Prop :=
  ∀ key, made key = records key ∨ ∃ c ∈ changes, c.key = key ∧ made key = some c.after

theorem PlannedFor.subset {changes' : List (BackfillChange κ R)} (h : PlannedFor records changes)
    (hsubset : changes' ⊆ changes) : PlannedFor records changes' :=
  ⟨fun c hc => h.before c (hsubset hc), fun c hc c' hc' => h.after c (hsubset hc) c' (hsubset hc')⟩

/-- Undoing the last of the changes leaves the others to be undone. -/
theorem restoreChange_between {c : BackfillChange κ R} (h : PlannedFor records (changes ++ [c]))
    (hmade : Between records made (changes ++ [c])) (result : BackfillRestoreResult κ) :
    ∃ made', Between records made' changes ∧ restoreChange (made, result) c
      = (made', ⟨result.restored ++ [c.key], result.conflicts⟩) := by
  have hbefore : records c.key = some c.before := h.before c (by simp)
  -- what is left of the other keys
  have hothers : ∀ key, key ≠ c.key →
      made key = records key ∨ ∃ c' ∈ changes, c'.key = key ∧ made key = some c'.after := by
    intro key hkey
    refine (hmade key).imp_right ?_
    rintro ⟨c', hc', hc'key, hafter⟩
    rcases mem_append.mp hc' with hc' | hc'
    · exact ⟨c', hc', hc'key, hafter⟩
    · cases mem_singleton.mp hc'
      exact absurd hc'key.symm hkey
  by_cases hafter : made c.key = some c.after
  · refine ⟨update made c.key (some c.before), fun key => ?_, ?_⟩
    · by_cases hkey : key = c.key
      · subst hkey
        rw [update_self]
        exact .inl hbefore.symm
      · rw [update_of_ne hkey]
        exact hothers key hkey
    · rw [restoreChange, if_pos hafter]
  · have hunmade : made c.key = some c.before := by
      rcases hmade c.key with hrecords | ⟨c', hc', hkey, hc'after⟩
      · exact hrecords.trans hbefore
      · rw [h.after c' hc' c (by simp) hkey] at hc'after
        exact absurd hc'after hafter
    refine ⟨made, fun key => ?_, ?_⟩
    · by_cases hkey : key = c.key
      · subst hkey
        exact .inl (hunmade.trans hbefore.symm)
      · exact hothers key hkey
    · rw [restoreChange, if_neg hafter, if_pos hunmade]

/-- **Undoing planned changes restores the records**, whichever of them have been made. -/
theorem PlannedFor.undoes (h : PlannedFor records changes) (hmade : Between records made changes) :
    Undoes changes made records := by
  induction changes using reverseRecOn generalizing made with
  | nil =>
      have heq : made = records := by
        funext key
        refine (hmade key).resolve_right ?_
        rintro ⟨c, hc, -⟩
        cases hc
      exact heq ▸ undoes_nil records
  | append_singleton changes c ih =>
      intro result
      obtain ⟨made', hmade', hstep⟩ := restoreChange_between h hmade result
      obtain ⟨restored, hrest⟩ := ih (h.subset (subset_append_left _ _)) hmade'
        ⟨result.restored ++ [c.key], result.conflicts⟩
      refine ⟨restored, ?_⟩
      rw [reverse_append, reverse_singleton, singleton_append, foldl_cons, hstep]
      exact hrest

theorem between_self (records : κ → Option R) (changes : List (BackfillChange κ R)) :
    Between records records changes := fun _ => .inl rfl

theorem between_commitChanges (records : κ → Option R) (changes : List (BackfillChange κ R)) :
    Between records (commitChanges records changes) changes := by
  induction changes using reverseRecOn with
  | nil => exact between_self records []
  | append_singleton changes c ih =>
      intro key
      rw [commitChanges, foldl_append]
      change update (commitChanges records changes) c.key (some c.after) key = _ ∨ _
      by_cases hkey : key = c.key
      · subst hkey
        exact .inr ⟨c, by simp, rfl, update_self ..⟩
      · refine (ih key).imp (fun h => ?_) ?_
        · rw [update_of_ne hkey, h]
        · rintro ⟨c', hc', hc'key, hafter⟩
          refine ⟨c', mem_append_left _ hc', hc'key, ?_⟩
          change update (commitChanges records changes) c.key (some c.after) key = _
          rw [update_of_ne hkey, hafter]

theorem plannedFor_planBatch (job : BackfillJob κ R) (records : κ → Option R) (keys : List κ) :
    PlannedFor records (job.planBatch records keys) := by
  refine ⟨fun c hc => (mem_planBatch hc).2.1, fun c hc c' hc' hkey => ?_⟩
  obtain ⟨-, hbefore, hplan⟩ := mem_planBatch hc
  obtain ⟨-, hbefore', hplan'⟩ := mem_planBatch hc'
  rw [← hkey, hbefore] at hbefore'
  rw [← hkey, ← Option.some.inj hbefore', hplan] at hplan'
  exact BackfillDecision.update.inj hplan'

/-! ## Reading the journal -/

/-- The entries of a journal whose lines are all entries; a rest that is no entry is not counted. -/
def Journals (journal : BackfillJournal κ R) (entries : List (BackfillChange κ R)) : Prop :=
  match journal with
  | none => entries = []
  | some file => ∃ whole, file.lines = whole.map some ∧
      match file.rest with
      | .whole c => entries = whole ++ [c]
      | _ => entries = whole

theorem readLines_append {α : Type} (as : List α) (last : List (Option α)) :
    readLines (as.map some ++ last) = (readLines last).map (as ++ ·) := by
  induction as with
  | nil => simp
  | cons a as ih =>
      rw [map_cons, cons_append, readLines, ih, Option.map_map]
      rfl

theorem Journals.readJournal (h : Journals (some file) entries) :
    readJournal (some file) = some entries := by
  obtain ⟨whole, hlines, hrest⟩ := h
  change readLines file.read = some entries
  rw [LineFile.read]
  split at hrest
  · next c hc =>
      simp only [hc, hlines, readLines_append, readLines, Option.map_some]
      rw [hrest]
  · next hnot =>
      cases hc : file.rest with
      | whole c => exact absurd hc (hnot c)
      | none =>
          have hnil := readLines_append whole []
          rw [append_nil] at hnil
          simp only [hlines, hnil, readLines, Option.map_some, append_nil]
          rw [hrest]
      | part =>
          simp only [hlines, readLines_append, readLines, Option.map_some, append_nil]
          rw [hrest]

/-- The journal ends with a newline, or there is none yet. -/
def Terminated (journal : BackfillJournal κ R) : Prop := ∀ file, journal = some file → file.rest = .none

theorem Journals.holds (h : Journals journal entries) (hend : Terminated journal) :
    (journal.getD .empty).Holds entries := by
  cases journal with
  | none =>
      have hnil : entries = [] := h
      subst hnil
      exact LineFile.holds_empty
  | some file =>
      obtain ⟨whole, hlines, hrest⟩ := h
      have hnone := hend file rfl
      rw [hnone] at hrest
      have hentries : entries = whole := hrest
      subst hentries
      obtain ⟨lines, rest⟩ := file
      cases hlines
      cases hnone
      rfl

theorem LineFile.Holds.journals (h : file.Holds entries) : Journals (some file) entries := by
  rw [h]
  exact ⟨entries, rfl, rfl⟩

theorem Journals.append (h : Journals journal entries) (hend : changes ≠ [] → Terminated journal) :
    Journals (appendJournal journal changes) (entries ++ changes) := by
  unfold appendJournal
  split
  · next hempty =>
      rw [isEmpty_iff.mp hempty, append_nil]
      exact h
  · next hempty =>
      have hne : changes ≠ [] := fun hnil => hempty (isEmpty_iff.mpr hnil)
      exact ((h.holds (hend hne)).appendAll changes).journals

/-- A torn append leaves some of the entries. -/
theorem Journals.tear (h : Journals journal entries) (hend : changes ≠ [] → Terminated journal)
    (whole : Nat) (torn : TornLine) :
    ∃ some' ⊆ changes, Journals (tearJournal journal changes whole torn) (entries ++ some') := by
  unfold tearJournal
  split
  · exact ⟨[], nil_subset _, by rwa [append_nil]⟩
  · next hempty =>
      have hne : changes ≠ [] := fun hnil => hempty (isEmpty_iff.mpr hnil)
      have hholds := (h.holds (hend hne)).appendAll (changes.take whole)
      have htake : changes.take whole ⊆ changes := take_subset whole changes
      dsimp only
      split
      · refine ⟨changes.take whole, htake, ?_⟩
        rw [hholds]
        exact ⟨_, rfl, rfl⟩
      · next c hc =>
          refine ⟨changes.take whole ++ [c], ?_, ?_⟩
          · exact append_subset.mpr ⟨htake, by simpa using mem_of_getElem? hc⟩
          · rw [hholds, ← append_assoc]
            exact ⟨_, rfl, rfl⟩
      · exact ⟨changes.take whole, htake, hholds.journals⟩

/-! ## Runs -/

/-- The journal has the committed changes, and undoing it leads to the origin. -/
structure Recoverable (origin : κ → Option R) (committed : BackfillChange κ R → Prop)
    (w : BackfillWorld κ R) (entries : List (BackfillChange κ R)) : Prop where
  journals : Journals w.journal entries
  committed : ∀ c, committed c → c ∈ entries
  undoes : Undoes entries w.records origin

/-- A batch with changes finds a journal that ends with a newline. -/
def FindsTerminated (job : BackfillJob κ R) (e : BackfillEvent κ R) : Prop :=
  ∀ s course, e.pre.session = some s → e.input = .batch course →
    job.planBatch e.pre.records s.batch ≠ [] → Terminated e.pre.journal

/-- The changes that the steps have committed. -/
def CommittedIn (events : List (BackfillEvent κ R)) (c : BackfillChange κ R) : Prop :=
  ∃ e ∈ events, c ∈ e.output.committed

theorem recoverable_step {committed : BackfillChange κ R → Prop} {w : BackfillWorld κ R}
    (h : Recoverable origin committed w entries) (input : BackfillInput)
    (hend : FindsTerminated job ((backfillMachine job).event w input)) :
    ∃ entries', Recoverable origin
      (fun c => committed c ∨ c ∈ ((backfillMachine job).step w input).2.committed)
      ((backfillMachine job).step w input).1 entries' := by
  rcases backfill_step_cases job w input with
    ⟨s, course, hs, -, hinput, hstep⟩ | ⟨houtput, hrecords, hjournal⟩
  · rw [hstep]
    have hend' := hend s course hs hinput
    have hplanned := plannedFor_planBatch job w.records s.batch
    rcases runBatch_cases job w s course with
      ⟨hrecords, hnone, hjournal | ⟨whole, torn, hjournal⟩⟩ | ⟨hrecords, hall, hjournal⟩
    · -- journalled, not committed
      refine ⟨_, hjournal ▸ h.journals.append hend', fun c hc => ?_, ?_⟩
      · rw [hnone] at hc
        exact mem_append_left _ (h.committed c (hc.resolve_right not_mem_nil))
      · rw [hrecords]
        exact h.undoes.append (hplanned.undoes (between_self _ _))
    · obtain ⟨some', hsubset, hjournals⟩ := h.journals.tear hend' whole torn
      refine ⟨_, hjournal ▸ hjournals, fun c hc => ?_, ?_⟩
      · rw [hnone] at hc
        exact mem_append_left _ (h.committed c (hc.resolve_right not_mem_nil))
      · rw [hrecords]
        exact h.undoes.append ((hplanned.subset hsubset).undoes (between_self _ _))
    · -- journalled and committed
      refine ⟨_, hjournal ▸ h.journals.append hend', fun c hc => ?_, ?_⟩
      · rw [hall] at hc
        rcases hc with hc | hc
        · exact mem_append_left _ (h.committed c hc)
        · exact mem_append_right _ hc
      · rw [hrecords]
        exact h.undoes.append (hplanned.undoes (between_commitChanges _ _))
  · refine ⟨entries, hjournal ▸ h.journals, fun c hc => ?_, hrecords ▸ h.undoes⟩
    rw [houtput] at hc
    exact h.committed c (hc.resolve_right not_mem_nil)

theorem recoverable_run {inputs : List BackfillInput}
    (h : ∀ e ∈ (backfillMachine job).history (.initial records) inputs, FindsTerminated job e) :
    ∃ entries, Recoverable records
      (CommittedIn ((backfillMachine job).history (.initial records) inputs))
      ((backfillMachine job).run (.initial records) inputs) entries := by
  refine (backfillMachine job).guarded_induct (G := fun _ e => FindsTerminated job e)
    (P := fun es w => ∃ entries, Recoverable records (CommittedIn es) w entries) ?_ ?_ inputs
    (Machine.guarded_of_forall h)
  · refine ⟨[], rfl, ?_, undoes_nil records⟩
    rintro c ⟨e, he, -⟩
    cases he
  · rintro l input ⟨entries, hrecoverable⟩ hend
    obtain ⟨entries', hstep⟩ := recoverable_step hrecoverable input hend
    refine ⟨entries', hstep.journals, ?_, hstep.undoes⟩
    rintro c ⟨e, he, hc⟩
    refine hstep.committed c ?_
    rcases mem_append.mp he with he | he
    · exact .inl ⟨e, he, hc⟩
    · cases mem_singleton.mp he
      exact .inr hc

/-- Restoring slice by slice is restoring everything. -/
theorem restoreSlices_eq (records : κ → Option R) (slices : List (List (BackfillChange κ R))) :
    restoreSlices records slices = slices.flatten.foldl restoreChange (records, ⟨[], []⟩) := by
  rw [restoreSlices, foldl_flatten]

/-- **A run can be rolled back**, at every time and with slices of any size: every change that was
committed is read from the journal, and the rollback leaves the records from before the run, if no batch
with changes is written behind an unterminated line. -/
theorem backfill_rolls_back (job : BackfillJob κ R) (records : κ → Option R) (inputs : List BackfillInput)
    (h : ∀ e ∈ (backfillMachine job).history (.initial records) inputs, FindsTerminated job e) :
    ∃ entries,
      (((backfillMachine job).run (.initial records) inputs).journal ≠ none →
        readJournal ((backfillMachine job).run (.initial records) inputs).journal = some entries) ∧
      (((backfillMachine job).run (.initial records) inputs).journal = none → entries = []) ∧
      (∀ e ∈ (backfillMachine job).history (.initial records) inputs,
        ∀ c ∈ e.output.committed, c ∈ entries) ∧
      ∀ slices, slices.flatten = entries.reverse →
        (restoreSlices ((backfillMachine job).run (.initial records) inputs).records slices).1 = records ∧
        (restoreSlices ((backfillMachine job).run (.initial records) inputs).records
          slices).2.conflicts = [] := by
  obtain ⟨entries, hjournals, hcommitted, hundoes⟩ := recoverable_run h
  refine ⟨entries, fun hfile => ?_, fun hnone => ?_, fun e he c hc => hcommitted c ⟨e, he, hc⟩, ?_⟩
  · obtain ⟨file, hfile⟩ := Option.ne_none_iff_exists'.mp hfile
    rw [hfile] at hjournals ⊢
    exact hjournals.readJournal
  · rw [hnone] at hjournals
    exact hjournals
  · intro slices hslices
    obtain ⟨restored, hfold⟩ := hundoes ⟨[], []⟩
    rw [restoreSlices_eq, hslices, hfold]
    exact ⟨rfl, rfl⟩

end Runs

/-! ## A journal that cannot be read -/

namespace BackfillSample

/-- A crash tears the first append, and the run is resumed. -/
def torn : List BackfillInput :=
  [.apply false 1 none, .batch (.tornAppend 0 .part), .apply true 1 none, .batch (.done false),
   .batch (.done false), .finish]

/-- A crash comes between the commit and the checkpoint. -/
def recommitted : List BackfillInput :=
  [.apply false 2 none, .batch (.crash true), .apply true 2 none, .batch (.done false), .finish]

end BackfillSample

open BackfillSample in
theorem backfill_rollback_misses :
    ((after [1, 2] torn).records 1 = some 11 ∧ readJournal (after [1, 2] torn).journal = none) ∧
      (after [1] torn).records 1 = some 11 ∧ readJournal (after [1] torn).journal = some [] := by
  decide

open BackfillSample in
theorem backfill_rolls_back_sample :
    (after [1, 2] recommitted).records 1 = some 11 ∧
      ∃ entries, readJournal (after [1, 2] recommitted).journal = some entries ∧
        (restoreSlices (after [1, 2] recommitted).records [entries.reverse]).1 = records := by
  -- no append is torn
  have hterminated : ∀ e ∈ (backfillMachine (job [1, 2])).history (.initial records) recommitted,
      FindsTerminated (job [1, 2]) e := by
    intro e he
    simp only [recommitted, Machine.history, mem_cons, not_mem_nil, or_false] at he
    rcases he with rfl | rfl | rfl | rfl | rfl
    all_goals
      rintro s course hs hinput - file hfile
      cases hfile
    all_goals rfl
  obtain ⟨entries, hread, -, -, hrestores⟩ :=
    backfill_rolls_back (job [1, 2]) records recommitted hterminated
  exact ⟨by decide, entries, hread (by decide), (hrestores [entries.reverse] (by simp)).1⟩

end VerdantBond
