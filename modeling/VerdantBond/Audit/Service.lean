import VerdantBond.Lib.Utf16

set_option autoImplicit false

/-! # The audit service

`AuditService`: for every entity a list of entries, each with the next sequence, the hash of the entry
before it and the hash of its own content. A write is refused at either bound. What `record` appends
verifies (`Sound.record`).

The hash of a content is a parameter; what an entry says (action, actor, reason, time, before and after)
is one value of any type.
-/

namespace VerdantBond

structure AuditWrite (α : Type) where
  entityType : JsString
  entityId : JsString
  action : JsString
  actor : JsString
  payload : α

structure AuditContent (α η : Type) extends AuditWrite α where
  sequence : Nat
  previousHash : Option η

structure AuditEntry (α η : Type) extends AuditContent α η where
  hash : η

inductive AuditFailure where
  | previousHashMismatch | sequenceBreak | firstSequence | contentHashMismatch
deriving DecidableEq

/-- The entries of every entity, by `entityKey`, and their number. The last hash and the last sequence
of an entity are those of its last entry. -/
structure AuditWorld (α η : Type) where
  chains : JsString → List (AuditEntry α η)
  totalEntries : Nat

def maxTotalEntries : Nat := 10000
def maxEntriesPerEntity : Nat := 5000

def entityKey (entityType entityId : JsString) : JsString := entityType ++ unit ':' :: entityId

namespace AuditWorld

variable {α η : Type} [DecidableEq η]

def initial : AuditWorld α η := ⟨fun _ => [], 0⟩

variable (digest : AuditContent α η → η) (w : AuditWorld α η)

def getEntityHistory (entityType entityId : JsString) : List (AuditEntry α η) :=
  w.chains (entityKey entityType entityId)

/-- The entry that `record` makes for a write. -/
def entryFor (entries : List (AuditEntry α η)) (write : AuditWrite α) : AuditEntry α η :=
  let content : AuditContent α η :=
    { write with
      sequence := entries.getLast?.elim 0 (·.sequence) + 1
      previousHash := entries.getLast?.map AuditEntry.hash }
  { content with hash := digest content }

/-- `record`: the new entry and the world with it; `none` for a rejected write. -/
def record (write : AuditWrite α) : Option (AuditEntry α η × AuditWorld α η) :=
  let key := entityKey write.entityType write.entityId
  let entries := w.chains key
  if write.entityId = [] ∨ write.action = [] ∨ write.actor = [] then none
  else if maxEntriesPerEntity ≤ entries.length ∨ maxTotalEntries ≤ w.totalEntries then none
  else
    let entry := entryFor digest entries write
    some (entry, ⟨Function.update w.chains key (entries ++ [entry]), w.totalEntries + 1⟩)

/-- The checks of one entry, after the entry before it. -/
def entryFailures (before : Option (AuditEntry α η)) (entry : AuditEntry α η) : List AuditFailure :=
  (match before with
    | some e =>
        (if entry.previousHash = some e.hash then [] else [.previousHashMismatch]) ++
          (if entry.sequence = e.sequence + 1 then [] else [.sequenceBreak])
    | none => if entry.sequence = 1 then [] else [.firstSequence]) ++
  if digest entry.toAuditContent = entry.hash then [] else [.contentHashMismatch]

def failuresFrom (digest : AuditContent α η → η) :
    Option (AuditEntry α η) → List (AuditEntry α η) → List AuditFailure
  | _, [] => []
  | before, entry :: entries =>
      entryFailures digest before entry ++ failuresFrom digest (some entry) entries

/-- `verifyEntity`, strict: the failures it reports. -/
def verifyEntity (entityType entityId : JsString) : List AuditFailure :=
  failuresFrom digest none (w.getEntityHistory entityType entityId)

/-! ## What `record` keeps -/

variable {digest : AuditContent α η → η} {w w' : AuditWorld α η} {write : AuditWrite α}
  {entry : AuditEntry α η}

theorem failuresFrom_snoc (before : Option (AuditEntry α η)) (es : List (AuditEntry α η))
    (e : AuditEntry α η) : failuresFrom digest before (es ++ [e])
      = failuresFrom digest before es ++ entryFailures digest (es.getLast?.or before) e := by
  -- the entry before the last one is the last of `es`, if there is one
  induction es generalizing before with
  | nil => simp [failuresFrom]
  | cons x es ih =>
      rw [List.cons_append, failuresFrom, failuresFrom, ih, List.append_assoc]
      cases es with
      | nil => rfl
      | cons y es => simp [List.getLast?_cons]

theorem entryFailures_entryFor (es : List (AuditEntry α η)) (write : AuditWrite α) :
    entryFailures digest es.getLast? (entryFor digest es write) = [] := by
  cases hlast : es.getLast? with
  | none => simp [entryFailures, entryFor, hlast]
  | some e => simp [entryFailures, entryFor, hlast]

/-- Every history verifies. -/
def Sound (digest : AuditContent α η → η) (w : AuditWorld α η) : Prop :=
  ∀ key, failuresFrom digest none (w.chains key) = []

omit [DecidableEq η] in
theorem record_some (h : w.record digest write = some (entry, w')) :
    entry = entryFor digest (w.chains (entityKey write.entityType write.entityId)) write ∧
      w'.chains = Function.update w.chains (entityKey write.entityType write.entityId)
        (w.chains (entityKey write.entityType write.entityId) ++ [entry]) := by
  simp only [record] at h
  split at h
  · cases h
  · split at h
    · cases h
    · cases h
      exact ⟨rfl, rfl⟩

/-- **A recorded entry extends a history that verifies to one that verifies.** -/
theorem Sound.record (hsound : Sound digest w) (h : w.record digest write = some (entry, w')) :
    Sound digest w' := by
  obtain ⟨hentry, hchains⟩ := record_some h
  intro key
  rw [hchains]
  by_cases hkey : key = entityKey write.entityType write.entityId
  · subst hkey
    rw [Function.update_self, failuresFrom_snoc, hsound, Option.or_none, hentry,
      entryFailures_entryFor]
    rfl
  · rw [Function.update_of_ne hkey]
    exact hsound key

end AuditWorld

end VerdantBond
