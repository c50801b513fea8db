import VerdantBond.Lib.LineFile
import VerdantBond.Lib.Machine

set_option autoImplicit false

/-! # The backfill runner

`BackfillRunner` walks the keys of a job in order, batch by batch: a batch is planned, its changes are
written to the journal of the run, committed, and the checkpoint with the last key is saved. A process
may crash between any two of these, and in the middle of the append; `apply` with resume continues
behind the cursor of the checkpoint.

The model is of one run. Whether a commit fails (before or after it has written), whether the number of
failed records has reached the threshold, and where the process crashes comes with the step.
-/

namespace VerdantBond

open Function

structure BackfillChange (κ R : Type) where
  key : κ
  before : R
  after : R
deriving DecidableEq

/-- What `plan` says of a record; `fails` is an exception. -/
inductive BackfillDecision (R : Type) where
  | update (after : R)
  | noop | skip | fails
deriving DecidableEq

structure BackfillJob (κ R : Type) where
  listKeys : List κ
  plan : κ → R → BackfillDecision R

inductive BackfillStatus where
  | running | interrupted | aborted | completed
deriving DecidableEq

structure BackfillCheckpoint (κ : Type) where
  status : BackfillStatus
  cursor : Option κ
deriving DecidableEq

/-- The loop of a process: the keys that are left, and how many of them the limit allows. -/
structure BackfillSession (κ : Type) where
  ahead : List κ
  batchSize : Nat
  room : Option Nat

structure BackfillWorld (κ R : Type) where
  records : κ → Option R
  /-- The journal of the run; `none` if there is no file. -/
  journal : Option (LineFile (BackfillChange κ R))
  checkpoint : Option (BackfillCheckpoint κ)
  session : Option (BackfillSession κ)

/-- How much of a line is written by the time of a crash. -/
inductive TornLine where
  | nothing | part | withoutNewline

/-- How a batch goes. -/
inductive BatchCourse where
  /-- The process crashes in the append, behind some whole lines. -/
  | tornAppend (whole : Nat) (torn : TornLine)
  /-- It crashes between the append and the checkpoint, before or after the commit. -/
  | crash (committed : Bool)
  /-- Every attempt reports a failure; one of them may have committed. -/
  | commitFails (committed : Bool)
  /-- The batch is committed and the checkpoint written; the failed records may abort the run. -/
  | done (abort : Bool)

inductive BackfillInput where
  | apply (resume : Bool) (batchSize : Nat) (limit : Option Nat)
  | batch (course : BatchCourse)
  /-- `shouldStop`. -/
  | stop
  /-- The end of the loop. -/
  | finish
  | crash

/-- What a step has planned and committed. -/
structure BackfillOutput (κ R : Type) where
  planned : List κ
  committed : List (BackfillChange κ R)

namespace BackfillSession

variable {κ : Type}

/-- `i < keys.length && processed < limit`. -/
def active (s : BackfillSession κ) : Prop := s.ahead ≠ [] ∧ s.room ≠ some 0

instance [DecidableEq κ] (s : BackfillSession κ) : Decidable s.active :=
  inferInstanceAs (Decidable (_ ∧ _))

def size (s : BackfillSession κ) : Nat := s.room.elim (max 1 s.batchSize) (min (max 1 s.batchSize))

def batch (s : BackfillSession κ) : List κ := s.ahead.take s.size

def next (s : BackfillSession κ) : BackfillSession κ :=
  { s with
    ahead := s.ahead.drop s.size
    room := s.room.map (· - s.batch.length) }

end BackfillSession

variable {κ R : Type}

/-- The changes of a batch. -/
def BackfillJob.planBatch (job : BackfillJob κ R) (records : κ → Option R) (keys : List κ) :
    List (BackfillChange κ R) :=
  keys.filterMap fun key =>
    match records key with
    | none => none
    | some record =>
        match job.plan key record with
        | .update after => some ⟨key, record, after⟩
        | _ => none

/-- The keys behind the cursor, in order. -/
def BackfillJob.selectKeys [LinearOrder κ] (job : BackfillJob κ R) (cursor : Option κ) : List κ :=
  (job.listKeys.insertionSort (· ≤ ·)).filter fun key => cursor.all fun c => decide (c < key)

def commitChanges [DecidableEq κ] (records : κ → Option R) (changes : List (BackfillChange κ R)) :
    κ → Option R :=
  changes.foldl (fun records c => update records c.key (some c.after)) records

/-! ## The journal -/

abbrev BackfillJournal (κ R : Type) := Option (LineFile (BackfillChange κ R))

/-- `appendJournal`. -/
def appendJournal (journal : BackfillJournal κ R) (changes : List (BackfillChange κ R)) :
    BackfillJournal κ R :=
  if changes.isEmpty then journal else some (changes.foldl LineFile.append (journal.getD .empty))

/-- An append that a crash has cut. -/
def tearJournal (journal : BackfillJournal κ R) (changes : List (BackfillChange κ R)) (whole : Nat)
    (torn : TornLine) : BackfillJournal κ R :=
  if changes.isEmpty then journal
  else
    let written := (changes.take whole).foldl LineFile.append (journal.getD .empty)
    match changes[whole]?, torn with
    | some _, .part => some (written.tear .part)
    | some c, .withoutNewline => some (written.tear (.whole c))
    | _, _ => some written

/-- The entries of the lines; only the last one may be the text of no entry. -/
def readLines {α : Type} : List (Option α) → Option (List α)
  | [] => some []
  | some a :: rest => (readLines rest).map (a :: ·)
  | [none] => some []
  | none :: _ => none

/-- `readJournal`; `none` where it throws. -/
def readJournal (journal : BackfillJournal κ R) : Option (List (BackfillChange κ R)) :=
  journal.bind fun file => readLines file.read

structure BackfillRestoreResult (κ : Type) where
  restored : List κ
  conflicts : List κ

/-- One round of the loop of `restore`. -/
def restoreChange [DecidableEq κ] [DecidableEq R]
    (state : (κ → Option R) × BackfillRestoreResult κ) (c : BackfillChange κ R) :
    (κ → Option R) × BackfillRestoreResult κ :=
  if state.1 c.key = some c.after then
    (update state.1 c.key (some c.before), { state.2 with restored := state.2.restored ++ [c.key] })
  else if state.1 c.key = some c.before then
    (state.1, { state.2 with restored := state.2.restored ++ [c.key] })
  else (state.1, { state.2 with conflicts := state.2.conflicts ++ [c.key] })

/-- `rollback`: the entries newest first, given in the slices in which they are restored. -/
def restoreSlices [DecidableEq κ] [DecidableEq R] (records : κ → Option R)
    (slices : List (List (BackfillChange κ R))) : (κ → Option R) × BackfillRestoreResult κ :=
  slices.foldl (fun state changes => changes.foldl restoreChange state) (records, ⟨[], []⟩)

/-! ## Steps -/

namespace BackfillWorld

variable [LinearOrder κ]

def initial (records : κ → Option R) : BackfillWorld κ R := ⟨records, none, none, none⟩

variable (job : BackfillJob κ R) (w : BackfillWorld κ R)

/-- A process takes up the run behind a cursor. -/
def begin (cursor : Option κ) (batchSize : Nat) (limit : Option Nat) : BackfillWorld κ R :=
  { w with
    checkpoint := some ⟨.running, cursor⟩
    session := some ⟨job.selectKeys cursor, batchSize, limit⟩ }

/-- `apply`: an unfinished run must be resumed, and nothing else can be. -/
def apply (resume : Bool) (batchSize : Nat) (limit : Option Nat) : BackfillWorld κ R :=
  match w.session, w.checkpoint, resume with
  | none, none, false => begin job w none batchSize limit
  | none, some checkpoint, true =>
      if checkpoint.status = .completed then w else begin job w checkpoint.cursor batchSize limit
  | _, _, _ => w

/-- The last write of a process. -/
def conclude (status : BackfillStatus) : BackfillWorld κ R :=
  { w with
    checkpoint := w.checkpoint.map fun c => { c with status }
    session := none }

/-- A process is gone. -/
def lose : BackfillWorld κ R := { w with session := none }

/-- One round of the loop, from the plan of the batch to the checkpoint. -/
def runBatch (s : BackfillSession κ) (course : BatchCourse) :
    BackfillWorld κ R × BackfillOutput κ R :=
  let changes := job.planBatch w.records s.batch
  let journalled := { w with journal := appendJournal w.journal changes }
  let committed := { journalled with records := commitChanges w.records changes }
  let checkpointed := { committed with
    checkpoint := some ⟨.running, s.batch.getLast?⟩
    session := some s.next }
  match course with
  | .tornAppend whole torn =>
      (lose { w with journal := tearJournal w.journal changes whole torn }, ⟨s.batch, []⟩)
  | .crash false => (lose journalled, ⟨s.batch, []⟩)
  | .crash true => (lose committed, ⟨s.batch, changes⟩)
  | .commitFails wrote =>
      -- without changes there is no commit
      if changes.isEmpty then (checkpointed, ⟨s.batch, changes⟩)
      else if wrote then (conclude committed .aborted, ⟨s.batch, changes⟩)
      else (conclude journalled .aborted, ⟨s.batch, []⟩)
  | .done abort =>
      (if abort then conclude checkpointed .aborted else checkpointed, ⟨s.batch, changes⟩)

end BackfillWorld

open BackfillWorld in
def backfillMachine [LinearOrder κ] (job : BackfillJob κ R) :
    Machine (BackfillWorld κ R) BackfillInput (BackfillOutput κ R) where
  step w
    | .apply resume batchSize limit => (w.apply job resume batchSize limit, ⟨[], []⟩)
    | .batch course =>
        match w.session with
        | some s => if s.active then w.runBatch job s course else (w, ⟨[], []⟩)
        | none => (w, ⟨[], []⟩)
    | .stop =>
        match w.session with
        | some s => (if s.active then w.conclude .interrupted else w, ⟨[], []⟩)
        | none => (w, ⟨[], []⟩)
    | .finish =>
        match w.session with
        | some s =>
            (if s.active then w
              else if s.ahead = [] then w.conclude .completed else w.conclude .interrupted, ⟨[], []⟩)
        | none => (w, ⟨[], []⟩)
    | .crash => (w.lose, ⟨[], []⟩)

abbrev BackfillEvent (κ R : Type) := Event (BackfillWorld κ R) BackfillInput (BackfillOutput κ R)

/-! ## What a step can do -/

section Steps

variable [LinearOrder κ] {job : BackfillJob κ R}

omit [LinearOrder κ] in
theorem mem_planBatch {records : κ → Option R} {keys : List κ} {c : BackfillChange κ R}
    (h : c ∈ job.planBatch records keys) :
    c.key ∈ keys ∧ records c.key = some c.before ∧ job.plan c.key c.before = .update c.after := by
  obtain ⟨key, hkey, hc⟩ := List.mem_filterMap.mp h
  split at hc
  · cases hc
  · next record hrecord =>
      split at hc
      · next after hplan =>
          cases hc
          exact ⟨hkey, hrecord, hplan⟩
      · cases hc

/-- The records, the journal and the committed changes after a batch. -/
theorem runBatch_cases (job : BackfillJob κ R) (w : BackfillWorld κ R) (s : BackfillSession κ)
    (course : BatchCourse) :
    let changes := job.planBatch w.records s.batch
    let result := w.runBatch job s course
    result.1.records = w.records ∧ result.2.committed = [] ∧
        (result.1.journal = appendJournal w.journal changes ∨
          ∃ whole torn, result.1.journal = tearJournal w.journal changes whole torn) ∨
      result.1.records = commitChanges w.records changes ∧ result.2.committed = changes ∧
        result.1.journal = appendJournal w.journal changes := by
  cases course with
  | tornAppend whole torn => exact .inl ⟨rfl, rfl, .inr ⟨whole, torn, rfl⟩⟩
  | crash committed =>
      cases committed with
      | false => exact .inl ⟨rfl, rfl, .inl rfl⟩
      | true => exact .inr ⟨rfl, rfl, rfl⟩
  | commitFails wrote =>
      simp only [BackfillWorld.runBatch]
      split
      · exact .inr ⟨rfl, rfl, rfl⟩
      · cases wrote with
        | false => exact .inl ⟨rfl, rfl, .inl rfl⟩
        | true => exact .inr ⟨rfl, rfl, rfl⟩
  | done abort =>
      cases abort with
      | false => exact .inr ⟨rfl, rfl, rfl⟩
      | true => exact .inr ⟨rfl, rfl, rfl⟩

/-- **What one step can do**: a batch of a process, or nothing to the records and the journal. -/
theorem backfill_step_cases (job : BackfillJob κ R) (w : BackfillWorld κ R)
    (input : BackfillInput) :
    (∃ s course, w.session = some s ∧ s.active ∧ input = .batch course ∧
      (backfillMachine job).step w input = w.runBatch job s course) ∨
    ((backfillMachine job).step w input).2 = ⟨[], []⟩ ∧
      ((backfillMachine job).step w input).1.records = w.records ∧
      ((backfillMachine job).step w input).1.journal = w.journal := by
  cases input with
  | apply resume batchSize limit =>
      refine .inr ⟨rfl, ?_⟩
      simp only [backfillMachine, BackfillWorld.apply]
      split
      · exact ⟨rfl, rfl⟩
      · split
        · exact ⟨rfl, rfl⟩
        · exact ⟨rfl, rfl⟩
      · exact ⟨rfl, rfl⟩
  | batch course =>
      simp only [backfillMachine]
      cases hsession : w.session with
      | none => exact .inr ⟨rfl, rfl, rfl⟩
      | some s =>
          by_cases hactive : s.active
          · refine .inl ⟨s, course, rfl, hactive, rfl, ?_⟩
            simp only [if_pos hactive]
          · refine .inr ?_
            simp only [if_neg hactive, and_self]
  | stop =>
      simp only [backfillMachine]
      cases w.session with
      | none => exact .inr ⟨rfl, rfl, rfl⟩
      | some s =>
          refine .inr ⟨rfl, ?_⟩
          dsimp only
          split
          · exact ⟨rfl, rfl⟩
          · exact ⟨rfl, rfl⟩
  | finish =>
      simp only [backfillMachine]
      cases w.session with
      | none => exact .inr ⟨rfl, rfl, rfl⟩
      | some s =>
          refine .inr ⟨rfl, ?_⟩
          dsimp only
          split
          · exact ⟨rfl, rfl⟩
          · split
            · exact ⟨rfl, rfl⟩
            · exact ⟨rfl, rfl⟩
  | crash => exact .inr ⟨rfl, rfl, rfl⟩

end Steps

/-! ## A small job -/

namespace BackfillSample

/-- Records below ten are raised. -/
def job (keys : List Nat) : BackfillJob Nat Nat where
  listKeys := keys
  plan _ r := if r < 10 then .update (r + 10) else .noop

def records : Nat → Option Nat := fun key => if key < 3 then some key else none

def after (keys : List Nat) (inputs : List BackfillInput) : BackfillWorld Nat Nat :=
  (backfillMachine (job keys)).run (.initial records) inputs

end BackfillSample

end VerdantBond
