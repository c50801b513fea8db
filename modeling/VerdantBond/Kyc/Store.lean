import VerdantBond.Lib.LineFile
import VerdantBond.Lib.Machine
import VerdantBond.Lib.Utf16

set_option autoImplicit false

/-! # The KYC store

`KycStoreService` keeps the KYC records in memory. A transition changes the memory at once; then it
appends a line to the audit log and replaces the snapshot file, both at the same time, and returns. A
crash may come anywhere in between. A restart reads the snapshot and applies the whole audit log to
it, where every line overwrites what it names.

Transitions that overlap are taken one after the other: each changes the memory before it first waits,
and their writes queue. A crash that finds one written and the next waiting leaves what a crash of the
next one with a snapshot and no line leaves (`crash t .nothing true`), as the snapshot holds both. -/

namespace VerdantBond

open Function

inductive KycStatus where
  | none | pending | verified | accredited | expired | rejected
deriving DecidableEq

inductive KycStatusSource where
  | provider | admin | system | imported
deriving DecidableEq

/-- The part of a record that `computeStateDigest` covers. -/
structure KycState where
  status : KycStatus
  providerReference : Option JsString
  expiresAt : Option Int
deriving DecidableEq

/-- A missing reference or expiry keeps the one there is. -/
def KycState.transition (existing : KycState) (toStatus : KycStatus)
    (providerReference : Option JsString) (expiresAt : Option Int) : KycState :=
  ⟨toStatus, providerReference <|> existing.providerReference, expiresAt <|> existing.expiresAt⟩

/-- A transition that would change neither status nor expiry is not made. -/
def KycState.unchanged (existing : KycState) (toStatus : KycStatus) (expiresAt : Option Int) : Bool :=
  existing.status = toStatus && existing.expiresAt = expiresAt

structure KycRecord where
  state : KycState
  source : KycStatusSource
  actor : Option JsString
  reason : Option JsString
  createdAt : Int
  updatedAt : Int
deriving DecidableEq

/-- A line of the audit log, without its random id. -/
structure KycAuditEntry (κ : Type) where
  address : κ
  fromStatus : KycStatus
  toStatus : KycStatus
  source : KycStatusSource
  actor : Option JsString
  reason : Option JsString
  providerReference : Option JsString
  expiresAt : Option Int
  timestamp : Int

/-- The argument of `applyTransition`, with the time at which it is called. -/
structure KycTransition (κ : Type) where
  address : κ
  toStatus : KycStatus
  source : KycStatusSource
  actor : Option JsString
  reason : Option JsString
  providerReference : Option JsString
  expiresAt : Option Int
  now : Int

variable {κ : Type}

/-- The record that an audit line makes of an existing one. `applyTransition` and `replayAudit` make
it the same way. -/
def KycAuditEntry.recordOver (e : KycAuditEntry κ) : Option KycRecord → KycRecord
  | some existing =>
      { existing with
        state := existing.state.transition e.toStatus e.providerReference e.expiresAt
        source := e.source
        actor := e.actor <|> existing.actor
        reason := e.reason <|> existing.reason
        updatedAt := e.timestamp }
  | none =>
      ⟨⟨e.toStatus, e.providerReference, e.expiresAt⟩, e.source, e.actor, e.reason, e.timestamp,
        e.timestamp⟩

namespace KycTransition

variable (t : KycTransition κ)

def unchanged (existing : Option KycRecord) : Bool :=
  existing.any fun r => r.state.unchanged t.toStatus t.expiresAt

def entry (existing : Option KycRecord) : KycAuditEntry κ :=
  ⟨t.address, (existing.map fun r => r.state.status).getD .pending, t.toStatus, t.source, t.actor,
    t.reason, t.providerReference, t.expiresAt, t.now⟩

end KycTransition

abbrev KycRecords (κ : Type) := κ → Option KycRecord

/-- The file `kyc-records.json`. It is written beside and renamed, so it never holds a part. -/
inductive KycSnapshot (κ : Type) where
  | missing
  | unreadable
  | holds (records : KycRecords κ)

structure KycStore (κ : Type) where
  records : KycRecords κ
  snapshot : KycSnapshot κ
  audit : LineFile (KycAuditEntry κ)

namespace KycStore

/-- An empty directory. -/
def initial : KycStore κ := ⟨fun _ => none, .missing, .empty⟩

variable [DecidableEq κ]

def applyEntry (records : KycRecords κ) (e : KycAuditEntry κ) : KycRecords κ :=
  update records e.address (some (e.recordOver (records e.address)))

/-- Lines that cannot be parsed are skipped. -/
def replayAudit (records : KycRecords κ) (audit : LineFile (KycAuditEntry κ)) : KycRecords κ :=
  (audit.read.filterMap id).foldl applyEntry records

variable (s : KycStore κ) (t : KycTransition κ)

/-- Without a snapshot file the audit log is not read either. -/
def loadSnapshot : KycStore κ :=
  { s with
    records :=
      match s.snapshot with
      | .missing => fun _ => none
      | .unreadable => replayAudit (fun _ => none) s.audit
      | .holds records => replayAudit records s.audit }

/-- The change of the memory, before anything is written. -/
def remember : KycStore κ :=
  { s with records := applyEntry s.records (t.entry (s.records t.address)) }

def appendAuditLine (e : KycAuditEntry κ) : KycStore κ :=
  { s with audit := s.audit.append e }

def writeSnapshot : KycStore κ := { s with snapshot := .holds s.records }

/-- A transition whose writes both succeed. -/
def applyTransition : KycStore κ :=
  let existing := s.records t.address
  if t.unchanged existing then s
  else ((s.remember t).appendAuditLine (t.entry existing)).writeSnapshot

/-- How far the append of a line has come. -/
inductive LineProgress where
  | nothing | part | unterminated | complete
deriving DecidableEq

def LineProgress.write (p : LineProgress) (s : KycStore κ) (e : KycAuditEntry κ) : KycStore κ :=
  match p with
  | .nothing => s
  | .part => { s with audit := s.audit.tear .part }
  | .unterminated => { s with audit := s.audit.tear (.whole e) }
  | .complete => s.appendAuditLine e

/-- What a crash in the middle of a transition leaves. -/
def interrupted (line : LineProgress) (renamed : Bool) : KycStore κ :=
  let existing := s.records t.address
  if t.unchanged existing then s
  else
    -- the two files are written at the same time: either may be done without the other
    let written := line.write (s.remember t) (t.entry existing)
    if renamed then written.writeSnapshot else written

end KycStore

inductive KycStoreInput (κ : Type) where
  | applyTransition (t : KycTransition κ)
  /-- The process dies in the middle of a transition and is started again. -/
  | crash (t : KycTransition κ) (line : KycStore.LineProgress) (renamed : Bool)
  | restart

/-- A transition answers with the record it leaves. -/
def kycStoreMachine (κ : Type) [DecidableEq κ] :
    Machine (KycStore κ) (KycStoreInput κ) (Option KycRecord) where
  step s
    | .applyTransition t => (s.applyTransition t, (s.applyTransition t).records t.address)
    | .crash t line renamed => ((s.interrupted t line renamed).loadSnapshot, none)
    | .restart => (s.loadSnapshot, none)

end VerdantBond
