import VerdantBond.Kyc.Store

set_option autoImplicit false
set_option linter.unusedSectionVars false

/-! # Duplicate candidates and merges

`DeduplicationService` keeps candidate pairs of duplicate entities and a journal of merges. A scan
finds candidates, a review approves them, `executeMerge` merges an approved one through the adapter of
its entities and journals the states before, and `reverseMerge` puts these back. The functions are cut
at their awaits; the pieces below run without interruption.

A merge is named by its position in the journal: the random ids of the source are never reused.
-/

namespace VerdantBond

open Function

inductive CandidateStatus where
  | pendingReview | approved | rejected | dismissed | merged | reversed
deriving DecidableEq

inductive ReviewDecision where
  | approved | rejected | dismissed
deriving DecidableEq

def ReviewDecision.status : ReviewDecision → CandidateStatus
  | .approved => .approved
  | .rejected => .rejected
  | .dismissed => .dismissed

/-- `terms` stands for reviewer, reason, time and field strategies. -/
structure CandidateReview (ρ : Type) where
  decision : ReviewDecision
  terms : ρ
deriving DecidableEq

structure CandidateDuplicate (κ δ ρ : Type) where
  primaryId : κ
  secondaryId : κ
  status : CandidateStatus
  primaryDigest : δ
  secondaryDigest : δ
  review : Option (CandidateReview ρ)
  mergeId : Option Nat
deriving DecidableEq

inductive MergeStatus where
  | merged | reversed
deriving DecidableEq

structure MergeJournalEntry (ι κ ε : Type) where
  candidateId : ι
  primaryId : κ
  secondaryId : κ
  preMergePrimary : ε
  preMergeSecondary : ε
  /-- Milliseconds, as the ISO text of the source keeps them. -/
  executedAt : Int
  status : MergeStatus

inductive DedupError where
  | candidateNotFound
  | alreadyMerged
  | notApproved (status : CandidateStatus)
  | selfMerge
  | transitiveConflict
  | entitiesMissing
  | stateDrift
  | adapterFailed
  | mergeNotFound
  | alreadyReversed
  | subsequentMerge
deriving DecidableEq

structure DeduplicationService (ι κ ε δ ρ : Type) where
  candidates : ι → Option (CandidateDuplicate κ δ ρ)
  mergeJournals : List (MergeJournalEntry ι κ ε)

/-- What the service asks of the entities. `applyMerge` and `applyReversal` say what the writes of the
adapter make of the records: the first of the two it read, the second of the current record and the
snapshot. -/
structure DeduplicationAdapter (ι κ ε δ ρ : Type) where
  idOf : ε → κ
  candidateId : κ → κ → ι
  /-- `idA.localeCompare(idB) <= 0` -/
  precedes : κ → κ → Bool
  computeStateDigest : ε → δ
  computeMergedState : ε → ε → Option (CandidateReview ρ) → ε × ε
  applyMerge : ε → ε → ε × ε → ε × ε
  applyReversal : Option ε → ε → ε

variable {ι κ ε δ ρ : Type}

namespace DeduplicationAdapter

variable (a : DeduplicationAdapter ι κ ε δ ρ)

/-- The primary and the secondary of a pair. -/
def orient (pair : ε × ε) : ε × ε :=
  if a.precedes (a.idOf pair.1) (a.idOf pair.2) then pair else (pair.2, pair.1)

def pairId (pair : ε × ε) : ι := a.candidateId (a.idOf pair.1) (a.idOf pair.2)

def digests (pair : ε × ε) : δ × δ :=
  (a.computeStateDigest (a.orient pair).1, a.computeStateDigest (a.orient pair).2)

/-- The checks after the entities are fetched. -/
def checkDrift [DecidableEq δ] (c : CandidateDuplicate κ δ ρ) :
    Option ε → Option ε → Except DedupError (ε × ε)
  | some primary, some secondary =>
      if a.computeStateDigest primary ≠ c.primaryDigest ∨
          a.computeStateDigest secondary ≠ c.secondaryDigest then .error .stateDrift
      else .ok (primary, secondary)
  | _, _ => .error .entitiesMissing

end DeduplicationAdapter

variable [DecidableEq ι] [DecidableEq κ] [DecidableEq δ]

namespace DeduplicationService

variable (s : DeduplicationService ι κ ε δ ρ)

/-- The journal entries of the merges in force. -/
def active : List (MergeJournalEntry ι κ ε) := s.mergeJournals.filter fun j => j.status = .merged

variable (id : ι) (c : CandidateDuplicate κ δ ρ) (a : DeduplicationAdapter ι κ ε δ ρ)

def modifyCandidate (f : CandidateDuplicate κ δ ρ → CandidateDuplicate κ δ ρ) :
    DeduplicationService ι κ ε δ ρ :=
  { s with candidates := update s.candidates id ((s.candidates id).map f) }

/-! ## Scanning and reviewing -/

/-- A pair of entities that is found to be a duplicate becomes a candidate, or replaces the candidate
there is. -/
def discover (pair : ε × ε) : DeduplicationService ι κ ε δ ρ :=
  let id := a.pairId pair
  let (primaryDigest, secondaryDigest) := a.digests pair
  let fresh : CandidateDuplicate κ δ ρ :=
    ⟨a.idOf (a.orient pair).1, a.idOf (a.orient pair).2, .pendingReview, primaryDigest,
      secondaryDigest, none, none⟩
  let candidate :=
    match s.candidates id with
    | none => fresh
    | some existing =>
        if existing.primaryDigest = primaryDigest ∧ existing.secondaryDigest = secondaryDigest then
          { fresh with
            status := existing.status, review := existing.review, mergeId := existing.mergeId }
        -- the entities have changed: the candidate waits for review again, even if it is merged
        else if existing.status ≠ .merged then { fresh with mergeId := existing.mergeId }
        else { fresh with review := existing.review, mergeId := existing.mergeId }
  { s with candidates := update s.candidates id (some candidate) }

/-- The pairs of a list, earlier element first. -/
def pairs : List ε → List (ε × ε)
  | [] => []
  | e :: rest => rest.map (e, ·) ++ pairs rest

/-- The pairs of different entities whose confidence reaches the least one of the scan. -/
def duplicates (confident : ε → ε → Bool) (entities : List ε) : List (ε × ε) :=
  (pairs entities).filter fun p => a.idOf p.1 ≠ a.idOf p.2 ∧ confident p.1 p.2

def scan (confident : ε → ε → Bool) (entities : List ε) : DeduplicationService ι κ ε δ ρ :=
  (duplicates a confident entities).foldl (fun s p => s.discover a p) s

def reviewCandidate (review : CandidateReview ρ) :
    Except DedupError (DeduplicationService ι κ ε δ ρ) :=
  match s.candidates id with
  | none => .error .candidateNotFound
  | some c =>
      if c.status = .merged then .error .alreadyMerged
      else .ok (s.modifyCandidate id fun c =>
        { c with status := review.decision.status, review := some review })

/-! ## Merging -/

/-- A merge in force has one of the entities of the candidate as its secondary. -/
def conflicts : Bool :=
  s.active.any fun j => j.secondaryId = c.secondaryId || j.secondaryId = c.primaryId

/-- The checks before the entities are fetched. -/
def checkMerge : Except DedupError (CandidateDuplicate κ δ ρ) :=
  match s.candidates id with
  | none => .error .candidateNotFound
  | some c =>
      if c.status ≠ .approved then .error (.notApproved c.status)
      else if c.primaryId = c.secondaryId then .error .selfMerge
      else if s.conflicts c then .error .transitiveConflict
      else .ok c

/-- What follows the writes of the adapter. -/
def journalMerge (primary secondary : ε) (now : Int) : DeduplicationService ι κ ε δ ρ :=
  let journalled : DeduplicationService ι κ ε δ ρ := { s with
    mergeJournals := s.mergeJournals ++
      [⟨id, c.primaryId, c.secondaryId, primary, secondary, now, .merged⟩] }
  journalled.modifyCandidate id fun c =>
    { c with status := .merged, mergeId := some s.mergeJournals.length }

/-! ## Reversing -/

/-- A reversal is refused while a merge with a later time has the primary of the merge. -/
def checkReversal (m : Nat) : Except DedupError (MergeJournalEntry ι κ ε) :=
  match s.mergeJournals[m]? with
  | none => .error .mergeNotFound
  | some journal =>
      if journal.status = .reversed then .error .alreadyReversed
      -- merges of the same millisecond are not later
      else if s.active.any fun other => journal.executedAt < other.executedAt &&
          (other.primaryId = journal.primaryId || other.secondaryId = journal.primaryId) then
        .error .subsequentMerge
      else .ok journal

def journalReversal (m : Nat) (journal : MergeJournalEntry ι κ ε) : DeduplicationService ι κ ε δ ρ :=
  let journalled : DeduplicationService ι κ ε δ ρ := { s with
    mergeJournals := s.mergeJournals.modify m fun j => { j with status := .reversed } }
  journalled.modifyCandidate journal.candidateId fun c => { c with status := .reversed }

/-! ## What the pieces do -/

variable {s}

variable {id : ι} {m : Nat} {journal : MergeJournalEntry ι κ ε}

theorem checkMerge_ok {c : CandidateDuplicate κ δ ρ} (h : s.checkMerge id = .ok c) :
    s.candidates id = some c ∧ c.status = .approved ∧ c.primaryId ≠ c.secondaryId ∧
      ∀ j ∈ s.active, j.secondaryId ≠ c.secondaryId ∧ j.secondaryId ≠ c.primaryId := by
  unfold checkMerge at h
  split at h
  · cases h
  · next c' hc =>
      split at h
      · cases h
      · next hstatus =>
          split at h
          · cases h
          · next hne =>
              split at h
              · cases h
              · next hconflicts =>
                  cases h
                  refine ⟨hc, not_not.mp hstatus, hne, fun j hj => ?_⟩
                  simpa using fun hbad => hconflicts (List.any_eq_true.mpr ⟨j, hj, hbad⟩)

theorem checkReversal_ok (h : s.checkReversal m = .ok journal) :
    s.mergeJournals[m]? = some journal ∧ journal.status = .merged ∧
      ∀ other ∈ s.active, journal.executedAt < other.executedAt →
        other.primaryId ≠ journal.primaryId ∧ other.secondaryId ≠ journal.primaryId := by
  unfold checkReversal at h
  split at h
  · cases h
  · next journal' hj =>
      split at h
      · cases h
      · next hstatus =>
          split at h
          · cases h
          · next hlater =>
              cases h
              refine ⟨hj, ?_, fun other hother hlt => ?_⟩
              · revert hstatus
                cases journal.status <;> simp
              · simpa [hlt] using fun hbad => hlater (List.any_eq_true.mpr ⟨other, hother, hbad⟩)

theorem journalMerge_journals (primary secondary : ε) (now : Int) :
    (s.journalMerge id c primary secondary now).mergeJournals =
      s.mergeJournals ++ [⟨id, c.primaryId, c.secondaryId, primary, secondary, now, .merged⟩] := rfl

theorem active_journalMerge (primary secondary : ε) (now : Int) :
    (s.journalMerge id c primary secondary now).active =
      s.active ++ [⟨id, c.primaryId, c.secondaryId, primary, secondary, now, .merged⟩] := by
  simp [active, journalMerge_journals]

/-- A reversal takes one merge out of those in force. -/
theorem active_journalReversal (hj : s.mergeJournals[m]? = some journal)
    (hstatus : journal.status = .merged) :
    ∃ earlier later, s.active = earlier ++ journal :: later ∧
      (s.journalReversal m journal).active = earlier ++ later ∧
      earlier = (s.mergeJournals.take m).filter (fun j => j.status = .merged) ∧
      later = (s.mergeJournals.drop (m + 1)).filter fun j => j.status = .merged := by
  obtain ⟨hm, hget⟩ := List.getElem?_eq_some_iff.mp hj
  refine ⟨_, _, ?_, ?_, rfl, rfl⟩
  · have hsplit : s.mergeJournals =
        s.mergeJournals.take m ++ journal :: s.mergeJournals.drop (m + 1) := by
      rw [← hget, List.getElem_cons_drop, List.take_append_drop]
    conv_lhs => rw [active, hsplit]
    simp [hstatus]
  · show (s.mergeJournals.modify m _).filter _ = _
    rw [List.modify_eq_take_cons_drop hm]
    simp

/-- Whatever a reversal names, it puts no merge in force. -/
theorem active_journalReversal_sublist (m : Nat) (journal : MergeJournalEntry ι κ ε) :
    (s.journalReversal m journal).active.Sublist s.active := by
  have hmodify : ∀ (l : List (MergeJournalEntry ι κ ε)) m,
      ((l.modify m fun j => { j with status := .reversed }).filter
        fun j => j.status = .merged).Sublist (l.filter fun j => j.status = .merged) := by
    intro l
    induction l with
    | nil => exact fun _ => by simp
    | cons j l ih =>
        intro m
        cases m with
        | zero =>
            rw [List.modify_zero_cons, List.filter_cons_of_neg (by simp)]
            exact (List.sublist_cons_self j l).filter _
        | succ m =>
            rw [List.modify_succ_cons, List.filter_cons, List.filter_cons]
            split
            · exact (ih m).cons_cons j
            · exact ih m
  exact hmodify _ m

theorem modifyCandidate_self (f : CandidateDuplicate κ δ ρ → CandidateDuplicate κ δ ρ) :
    (s.modifyCandidate id f).candidates id = (s.candidates id).map f := update_self ..

theorem modifyCandidate_of_ne {id' : ι} (h : id' ≠ id)
    (f : CandidateDuplicate κ δ ρ → CandidateDuplicate κ δ ρ) :
    (s.modifyCandidate id f).candidates id' = s.candidates id' := update_of_ne h ..

end DeduplicationService

end VerdantBond
