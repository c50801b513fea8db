import VerdantBond.Dedup.Service

set_option autoImplicit false
set_option linter.unusedSectionVars false

/-! # One operation after another

The service with the store of its entities, where every operation runs to its end before the next one
starts, and others may edit the entities in between. A failing adapter writes nothing. -/

namespace VerdantBond

open Function DeduplicationService

variable {ι κ ε δ ρ : Type}

structure DedupStore (ι κ ε δ ρ : Type) where
  service : DeduplicationService ι κ ε δ ρ
  entities : κ → Option ε

inductive DedupOp (ι κ ε ρ : Type) where
  /-- The adapter lists the entities `ids`; `confident` is the confidence of the scan. -/
  | scan (ids : List κ) (confident : ε → ε → Bool)
  | reviewCandidate (id : ι) (review : CandidateReview ρ)
  | executeMerge (id : ι) (now : Int) (applies : Bool)
  | reverseMerge (m : Nat) (applies : Bool)
  /-- Somebody else writes an entity. -/
  | edit (k : κ) (e : Option ε)

variable [DecidableEq ι] [DecidableEq κ] [DecidableEq δ]

namespace DedupStore

variable (a : DeduplicationAdapter ι κ ε δ ρ) (w : DedupStore ι κ ε δ ρ)

def executeMerge (id : ι) (now : Int) (applies : Bool) :
    Except DedupError (DedupStore ι κ ε δ ρ) := do
  let c ← w.service.checkMerge id
  let (primary, secondary) ← a.checkDrift c (w.entities c.primaryId) (w.entities c.secondaryId)
  if applies then
    let stored := a.applyMerge primary secondary (a.computeMergedState primary secondary c.review)
    .ok ⟨w.service.journalMerge id c primary secondary now,
      update (update w.entities c.primaryId (some stored.1)) c.secondaryId (some stored.2)⟩
  else .error .adapterFailed

/-- The primary is another entity than the secondary, so it does not see the first write. -/
def reverseMerge (m : Nat) (applies : Bool) : Except DedupError (DedupStore ι κ ε δ ρ) := do
  let journal ← w.service.checkReversal m
  if applies then
    let primary := a.applyReversal (w.entities journal.primaryId) journal.preMergePrimary
    let secondary := a.applyReversal (w.entities journal.secondaryId) journal.preMergeSecondary
    .ok ⟨w.service.journalReversal m journal,
      update (update w.entities journal.secondaryId (some secondary)) journal.primaryId (some primary)⟩
  else .error .adapterFailed

def perform : DedupOp ι κ ε ρ → Except DedupError (DedupStore ι κ ε δ ρ)
  | .scan ids confident => .ok { w with service := w.service.scan a confident (ids.filterMap w.entities) }
  | .reviewCandidate id review => (w.service.reviewCandidate id review).map fun s => { w with service := s }
  | .executeMerge id now applies => w.executeMerge a id now applies
  | .reverseMerge m applies => w.reverseMerge a m applies
  | .edit k e => .ok { w with entities := update w.entities k e }

variable {a w}

variable {applies : Bool} {w' : DedupStore ι κ ε δ ρ}

theorem executeMerge_ok {id : ι} {now : Int} (h : w.executeMerge a id now applies = .ok w') :
    ∃ c p q, ∃ stored : ε × ε, w.service.checkMerge id = .ok c ∧ w.entities c.primaryId = some p ∧
      w.entities c.secondaryId = some q ∧
      w' = ⟨w.service.journalMerge id c p q now,
        update (update w.entities c.primaryId (some stored.1)) c.secondaryId (some stored.2)⟩ := by
  unfold executeMerge at h
  cases hcheck : w.service.checkMerge id with
  | error e =>
      rw [hcheck] at h
      cases h
  | ok c =>
      rw [hcheck] at h
      cases hp : w.entities c.primaryId with
      | none => simp [hp, DeduplicationAdapter.checkDrift, bind, Except.bind] at h
      | some p =>
          cases hq : w.entities c.secondaryId with
          | none => simp [hp, hq, DeduplicationAdapter.checkDrift, bind, Except.bind] at h
          | some q =>
              -- both entities are there; what is left is the drift and the adapter
              simp only [hp, hq, DeduplicationAdapter.checkDrift, bind, Except.bind] at h
              split at h
              · cases h
              · next pair hdrift =>
                  split at hdrift
                  · cases hdrift
                  · cases hdrift
                    cases applies with
                    | false => cases h
                    | true =>
                        cases h
                        exact ⟨c, p, q, _, rfl, hp, hq, rfl⟩

theorem reverseMerge_ok {m : Nat} (h : w.reverseMerge a m applies = .ok w') :
    ∃ journal, w.service.checkReversal m = .ok journal ∧
      w' = ⟨w.service.journalReversal m journal,
        update (update w.entities journal.secondaryId
            (some (a.applyReversal (w.entities journal.secondaryId) journal.preMergeSecondary)))
          journal.primaryId
            (some (a.applyReversal (w.entities journal.primaryId) journal.preMergePrimary))⟩ := by
  unfold reverseMerge at h
  cases hcheck : w.service.checkReversal m with
  | error e =>
      rw [hcheck] at h
      cases h
  | ok journal =>
      rw [hcheck] at h
      cases applies with
      | false => cases h
      | true =>
          cases h
          exact ⟨journal, rfl, rfl⟩

end DedupStore

/-- The service without candidates, over any entities. -/
def DedupStore.initial (entities : κ → Option ε) : DedupStore ι κ ε δ ρ :=
  ⟨⟨fun _ => none, []⟩, entities⟩

/-- An operation that fails changes nothing. -/
def dedupOpMachine (a : DeduplicationAdapter ι κ ε δ ρ) :
    Machine (DedupStore ι κ ε δ ρ) (DedupOp ι κ ε ρ) (Except DedupError Unit) where
  step w op :=
    match w.perform a op with
    | .error e => (w, .error e)
    | .ok w' => (w', .ok ())

abbrev DedupOpEvent (ι κ ε δ ρ : Type) :=
  Event (DedupStore ι κ ε δ ρ) (DedupOp ι κ ε ρ) (Except DedupError Unit)

/-- A step performs its operation, or fails and changes nothing. -/
theorem dedupOp_step_cases (a : DeduplicationAdapter ι κ ε δ ρ) (w : DedupStore ι κ ε δ ρ)
    (op : DedupOp ι κ ε ρ) :
    (∃ w', w.perform a op = .ok w' ∧ (dedupOpMachine a).step w op = (w', .ok ())) ∨
      ∃ e, (dedupOpMachine a).step w op = (w, .error e) := by
  simp only [dedupOpMachine]
  cases h : w.perform a op with
  | error e => exact .inr ⟨e, rfl⟩
  | ok w' => exact .inl ⟨w', rfl, rfl⟩

theorem scan_journals (a : DeduplicationAdapter ι κ ε δ ρ) (s : DeduplicationService ι κ ε δ ρ)
    (confident : ε → ε → Bool) (entities : List ε) :
    (s.scan a confident entities).mergeJournals = s.mergeJournals := by
  have hfold : ∀ (pairs : List (ε × ε)) (s : DeduplicationService ι κ ε δ ρ),
      (pairs.foldl (fun s p => s.discover a p) s).mergeJournals = s.mergeJournals := by
    intro pairs
    induction pairs with
    | nil => exact fun _ => rfl
    | cons p pairs ih => exact fun s => ih _
  exact hfold _ s

theorem perform_reviewCandidate_ok {a : DeduplicationAdapter ι κ ε δ ρ} {w w' : DedupStore ι κ ε δ ρ}
    {id : ι} {review : CandidateReview ρ} (h : w.perform a (.reviewCandidate id review) = .ok w') :
    ∃ c, w.service.candidates id = some c ∧ c.status ≠ .merged ∧
      w' = { w with service := w.service.modifyCandidate id fun c =>
        { c with status := review.decision.status, review := some review } } := by
  change (w.service.reviewCandidate id review).map _ = _ at h
  unfold reviewCandidate at h
  split at h
  · cases h
  · next c hc =>
      split at h
      · cases h
      · next hstatus =>
          cases h
          exact ⟨c, hc, hstatus, rfl⟩

/-- An entity is a number with a value, and a merge puts the sum of the values at the primary. -/
def DedupSample.sums : DeduplicationAdapter (Nat × Nat) Nat (Nat × Nat) Nat Unit where
  idOf := Prod.fst
  candidateId := fun x y => (min x y, max x y)
  precedes := fun x y => x ≤ y
  computeStateDigest := Prod.snd
  computeMergedState := fun p s _ => ((p.1, p.2 + s.2), s)
  applyMerge := fun _ _ merged => merged
  applyReversal := fun _ snapshot => snapshot

end VerdantBond
