import VerdantBond.Dedup.Service

set_option autoImplicit false

/-! # Merging KYC records

`KycDeduplicationAdapter` merges the states of two KYC records field by field, and writes them through
the transitions of the KYC store. An entity is an address with its state; the digest of a state is
collision free, so a state is its own digest. -/

namespace VerdantBond

variable {κ : Type}

inductive FieldResolutionStrategy where
  | primaryWins | secondaryWins | latest | union | manual
deriving DecidableEq

/-- The strategies of a review, with their manual values. -/
structure KycStrategies where
  status : Option (FieldResolutionStrategy × Option KycStatus)
  expiresAt : Option (FieldResolutionStrategy × Option Int)
  providerReference : Option (FieldResolutionStrategy × Option JsString)
deriving DecidableEq

namespace KycStatus

/-- `STATUS_RANKS` -/
def rank : KycStatus → Nat
  | .accredited => 5
  | .verified => 4
  | .pending => 3
  | .expired => 2
  | .rejected => 1
  | .none => 0

def merge (strategy : Option (FieldResolutionStrategy × Option KycStatus))
    (primary secondary : KycStatus) : KycStatus :=
  match strategy with
  | some (.manual, some status) => status
  | some (.secondaryWins, _) => secondary
  | _ => if primary.rank < secondary.rank then secondary else primary

end KycStatus

def mergeExpiry (strategy : Option (FieldResolutionStrategy × Option Int))
    (primary secondary : Option Int) : Option Int :=
  match strategy with
  | some (.manual, expiresAt) => expiresAt
  | some (.secondaryWins, _) => secondary
  | some (.primaryWins, _) => primary
  | _ =>
      let latest := max (primary.getD 0) (secondary.getD 0)
      if latest = 0 then none else some latest

/-- An empty reference counts as none. -/
def mergeReference (strategy : Option (FieldResolutionStrategy × Option JsString))
    (primary secondary : Option JsString) : Option JsString :=
  match strategy with
  | some (.manual, reference) => reference
  | some (.secondaryWins, _) => secondary
  | _ =>
      let given := fun r : Option JsString => r.getD [] ≠ []
      if ¬ given primary ∧ given secondary then secondary else primary

/-- What the store makes of a transition. -/
def KycState.write (existing : KycState) (toStatus : KycStatus) (providerReference : Option JsString)
    (expiresAt : Option Int) : KycState :=
  if existing.unchanged toStatus expiresAt then existing
  else existing.transition toStatus providerReference expiresAt

/-- A write over the record gives the snapshot back: either it is not made, or it has nothing to leave
out that the record has. -/
def KycState.Restorable (existing snapshot : KycState) : Prop :=
  if existing.status = snapshot.status ∧ existing.expiresAt = snapshot.expiresAt then
    existing.providerReference = snapshot.providerReference
  else
    (snapshot.providerReference = none → existing.providerReference = none) ∧
      (snapshot.expiresAt = none → existing.expiresAt = none)

theorem KycState.write_eq_iff (existing snapshot : KycState) :
    existing.write snapshot.status snapshot.providerReference snapshot.expiresAt = snapshot ↔
      existing.Restorable snapshot := by
  have hkeeps : ∀ {α : Type} (x y : Option α), x.or y = x ↔ (x = none → y = none) := by
    rintro α (_ | x) y <;> simp
  obtain ⟨status, reference, expiresAt⟩ := existing
  obtain ⟨status', reference', expiresAt'⟩ := snapshot
  by_cases hsame : status = status' ∧ expiresAt = expiresAt'
  · obtain ⟨rfl, rfl⟩ := hsame
    simp [write, Restorable, unchanged]
  · simp [write, Restorable, unchanged, transition, hsame, hkeeps]

def kycAdapter (candidateId : κ → κ → κ × κ) (precedes : κ → κ → Bool) :
    DeduplicationAdapter (κ × κ) κ (κ × KycState) KycState KycStrategies where
  idOf := Prod.fst
  candidateId := candidateId
  precedes := precedes
  computeStateDigest := Prod.snd
  computeMergedState := fun (p, primary) (s, secondary) review =>
    let strategies := (review.map CandidateReview.terms).getD ⟨none, none, none⟩
    ((p, ⟨KycStatus.merge strategies.status primary.status secondary.status,
        mergeReference strategies.providerReference primary.providerReference secondary.providerReference,
        mergeExpiry strategies.expiresAt primary.expiresAt secondary.expiresAt⟩),
      (s, { secondary with status := .none }))
  applyMerge := fun (p, primary) (s, secondary) (merged, _) =>
    ((p, primary.write merged.2.status merged.2.providerReference merged.2.expiresAt),
      (s, secondary.write .none secondary.providerReference none))
  applyReversal := fun current (k, snapshot) =>
    (k, match current with
      | some (_, existing) =>
          existing.write snapshot.status snapshot.providerReference snapshot.expiresAt
      | none => snapshot)

theorem kycAdapter_applyReversal_eq_iff {candidateId : κ → κ → κ × κ} {precedes : κ → κ → Bool}
    (current : Option (κ × KycState)) (snapshot : κ × KycState) :
    (kycAdapter candidateId precedes).applyReversal current snapshot = snapshot ↔
      ∀ record ∈ current, record.2.Restorable snapshot.2 := by
  obtain ⟨k, snapshot⟩ := snapshot
  cases current with
  | none => simp [kycAdapter]
  | some record => simp [kycAdapter, KycState.write_eq_iff]

end VerdantBond
