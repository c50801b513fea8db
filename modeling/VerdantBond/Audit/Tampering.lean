import Mathlib.Logic.Equiv.List
import VerdantBond.Audit.Service
import VerdantBond.Lib.Machine

set_option autoImplicit false

/-! # What the audit chain tells about itself

`verifyEntity` walks the entries of an entity and checks that each links to the one before it, that the
sequences go up from one, and that every hash is the hash of its content. With a hash without collisions
this finds every change of a content and every removal before an entry that stays. It does not look at
the last hash and the last sequence the service remembers, so entries taken off the end are not missed
(`tampering_detected_iff`, `truncation_undetected`).

The hash of an entry is taken of its canonical JSON. What `canonicalize` makes of the payload is a
parameter; the other hashed fields are strings and numbers, which it leaves alone.
-/

namespace VerdantBond

variable {α γ η : Type} [DecidableEq η]

/-- What is hashed of a content. -/
def AuditContent.canonical (canonicalize : α → γ) (c : AuditContent α η) : AuditContent γ η :=
  { c with payload := canonicalize c.payload }

/-- `computeEntryHash` -/
def computeEntryHash (sha256 : AuditContent γ η → η) (canonicalize : α → γ) (c : AuditContent α η) : η :=
  sha256 (c.canonical canonicalize)

/-- The stored entries after an attack: at each position the entry is removed, or its content is changed
while its hash stays. -/
def tamper (edit : Nat → Option (AuditContent α η → AuditContent α η)) :
    List (AuditEntry α η) → List (AuditEntry α η)
  | [] => []
  | e :: es =>
      match edit 0 with
      | none => tamper (fun p => edit (p + 1)) es
      | some change => { change e.toAuditContent with hash := e.hash } :: tamper (fun p => edit (p + 1)) es

namespace AuditWorld

/-- The world in which the chain of an entity was tampered with. -/
def tampered (w : AuditWorld α η) (entityType entityId : JsString)
    (edit : Nat → Option (AuditContent α η → AuditContent α η)) : AuditWorld α η :=
  let key := entityKey entityType entityId
  { w with chains := Function.update w.chains key (tamper edit (w.chains key)) }

/-- The audit service: every input is a call of `record`. -/
def auditMachine (digest : AuditContent α η → η) :
    Machine (AuditWorld α η) (AuditWrite α) (Option (AuditEntry α η)) where
  step w write :=
    match w.record digest write with
    | none => (w, none)
    | some (entry, w') => (w', some entry)

omit [DecidableEq η] in
theorem auditMachine_step (digest : AuditContent α η → η) (w : AuditWorld α η) (write : AuditWrite α) :
    (w.record digest write = none ∧ (auditMachine digest).step w write = (w, none)) ∨
      ∃ entry w', w.record digest write = some (entry, w') ∧
        (auditMachine digest).step w write = (w', some entry) := by
  simp only [auditMachine]
  cases h : w.record digest write with
  | none => exact .inl ⟨rfl, rfl⟩
  | some r => exact .inr ⟨r.1, r.2, rfl, rfl⟩

/-- Every chain that `record` has made verifies. -/
theorem sound_run (digest : AuditContent α η → η) (writes : List (AuditWrite α)) :
    Sound digest ((auditMachine digest).run .initial writes) := by
  refine (auditMachine digest).run_invariant (fun _ => rfl) (fun w write hsound => ?_) writes
  rcases auditMachine_step digest w write with ⟨-, hstep⟩ | ⟨entry, w', hrecord, hstep⟩
  · rw [hstep]
    exact hsound
  · rw [hstep]
    exact hsound.record hrecord

/-! ## Entries that pass -/

/-- The sequence before an entry. -/
def sequenceBefore (before : Option (AuditEntry α η)) : Nat := before.elim 0 (·.sequence)

variable {digest : AuditContent α η → η} {before : Option (AuditEntry α η)} {e : AuditEntry α η}
  {es : List (AuditEntry α η)}

theorem entryFailures_nil_iff :
    entryFailures digest before e = [] ↔ e.sequence = sequenceBefore before + 1 ∧
      (∀ b ∈ before, e.previousHash = some b.hash) ∧ digest e.toAuditContent = e.hash := by
  cases before with
  | none =>
      by_cases hsequence : e.sequence = 1 <;> by_cases hhash : digest e.toAuditContent = e.hash <;>
        simp [entryFailures, sequenceBefore, hsequence, hhash]
  | some b =>
      by_cases hlink : e.previousHash = some b.hash <;>
        by_cases hsequence : e.sequence = b.sequence + 1 <;>
        by_cases hhash : digest e.toAuditContent = e.hash <;>
        simp [entryFailures, sequenceBefore, hlink, hsequence, hhash]

theorem failuresFrom_cons_nil_iff :
    failuresFrom digest before (e :: es) = [] ↔
      entryFailures digest before e = [] ∧ failuresFrom digest (some e) es = [] := by
  rw [failuresFrom, List.append_eq_nil_iff]

/-- Of the entry before it, an entry is checked against the hash and the sequence only. -/
theorem failuresFrom_congr (digest : AuditContent α η → η) {b b' : AuditEntry α η}
    (hhash : b.hash = b'.hash) (hsequence : b.sequence = b'.sequence) (es : List (AuditEntry α η)) :
    failuresFrom digest (some b) es = failuresFrom digest (some b') es := by
  cases es with
  | nil => rfl
  | cons e es => simp only [failuresFrom, entryFailures, hhash, hsequence]

/-! ## Tampering -/

variable {sha256 : AuditContent γ η → η} {canonicalize : α → γ}
  {edit : Nat → Option (AuditContent α η → AuditContent α η)}

/-- **A changed entry passes exactly if nothing that is hashed has changed.** -/
theorem entryFailures_changed_iff (hsha : Function.Injective sha256)
    (he : entryFailures (computeEntryHash sha256 canonicalize) before e = []) (c : AuditContent α η) :
    entryFailures (computeEntryHash sha256 canonicalize) before { c with hash := e.hash } = [] ↔
      c.canonical canonicalize = e.canonical canonicalize := by
  rw [entryFailures_nil_iff] at he ⊢
  obtain ⟨hsequence, hlink, hhash⟩ := he
  constructor
  · rintro ⟨-, -, hhash'⟩
    exact hsha (hhash'.trans hhash.symm)
  · intro hcanonical
    have hsame : c.sequence = e.sequence ∧ c.previousHash = e.previousHash := by
      simp only [AuditContent.canonical, AuditContent.mk.injEq] at hcanonical
      exact hcanonical.2
    refine ⟨hsame.1.trans hsequence, fun b hb => hsame.2.trans (hlink b hb), ?_⟩
    rw [← hhash]
    exact congrArg sha256 hcanonical

/-- An entry that is left behind a gap is found: its sequence is too high, or its hash is wrong. -/
theorem tamper_nil_of_gap (hsha : Function.Injective sha256)
    (hgap : sequenceBefore before < e.sequence)
    (hes : failuresFrom (computeEntryHash sha256 canonicalize) (some e) es = [])
    (h : failuresFrom (computeEntryHash sha256 canonicalize) before (tamper edit es) = []) :
    tamper edit es = [] := by
  induction es generalizing e edit with
  | nil => rfl
  | cons x es ih =>
      obtain ⟨hx, hrest⟩ := failuresFrom_cons_nil_iff.mp hes
      have hnext : x.sequence = e.sequence + 1 := (entryFailures_nil_iff.mp hx).1
      unfold tamper at h ⊢
      cases hedit : edit 0 with
      | none =>
          simp only [hedit] at h ⊢
          exact ih (by omega) hrest h
      | some change =>
          -- the hash binds the sequence, which does not fit
          simp only [hedit, failuresFrom_cons_nil_iff, entryFailures_nil_iff] at h
          obtain ⟨⟨hsequence, -, hhash⟩, -⟩ := h
          have hcanonical := hsha (hhash.trans (entryFailures_nil_iff.mp hx).2.2.symm)
          simp only [AuditContent.canonical, AuditContent.mk.injEq] at hcanonical
          omega

omit [DecidableEq η] in
theorem tamper_eq_nil_iff : tamper edit es = [] ↔ ∀ p < es.length, edit p = none := by
  induction es generalizing edit with
  | nil => simp [tamper]
  | cons e es ih =>
      unfold tamper
      cases hedit : edit 0 with
      | none =>
          simp only [ih, List.length_cons]
          constructor
          · intro h p hp
            cases p with
            | zero => exact hedit
            | succ p => exact h p (by omega)
          · exact fun h p hp => h (p + 1) (by omega)
      | some change =>
          simp only [reduceCtorEq, List.length_cons, false_iff, not_forall]
          exact ⟨0, by omega, by simp [hedit]⟩

/-- What escapes verification: only the last entries are removed, and nothing that is hashed changes. -/
structure Truncates (canonicalize : α → γ) (edit : Nat → Option (AuditContent α η → AuditContent α η))
    (es : List (AuditEntry α η)) : Prop where
  suffix : ∀ p q, p ≤ q → q < es.length → edit p = none → edit q = none
  unchanged : ∀ p e change, es[p]? = some e → edit p = some change →
    (change e.toAuditContent).canonical canonicalize = e.canonical canonicalize

omit [DecidableEq η] in
theorem truncates_cons_some {change : AuditContent α η → AuditContent α η}
    (hedit : edit 0 = some change) :
    Truncates canonicalize edit (e :: es) ↔
      (change e.toAuditContent).canonical canonicalize = e.canonical canonicalize ∧
        Truncates canonicalize (fun p => edit (p + 1)) es := by
  constructor
  · intro h
    refine ⟨h.unchanged 0 e change rfl hedit, fun p q hpq hq => ?_, fun p x f hx => ?_⟩
    · exact h.suffix (p + 1) (q + 1) (by omega) (by simpa using hq)
    · exact h.unchanged (p + 1) x f (by simpa using hx)
  · rintro ⟨hhead, hrest⟩
    refine ⟨fun p q hpq hq hp => ?_, fun p x f hx hf => ?_⟩
    · cases p with
      | zero => rw [hedit] at hp; cases hp
      | succ p =>
          obtain ⟨q, rfl⟩ : ∃ q', q = q' + 1 := ⟨q - 1, by omega⟩
          exact hrest.suffix p q (by omega) (by simpa using hq) hp
    · cases p with
      | zero =>
          rw [hedit] at hf
          cases hf
          cases hx
          exact hhead
      | succ p => exact hrest.unchanged p x f (by simpa using hx) hf

theorem failuresFrom_tamper_iff (hsha : Function.Injective sha256)
    (hes : failuresFrom (computeEntryHash sha256 canonicalize) before es = []) :
    failuresFrom (computeEntryHash sha256 canonicalize) before (tamper edit es) = [] ↔
      Truncates canonicalize edit es := by
  induction es generalizing before edit with
  | nil => exact iff_of_true rfl ⟨fun _ _ _ hq => absurd hq (by simp), fun _ _ _ hx => by simp at hx⟩
  | cons e es ih =>
      obtain ⟨he, hrest⟩ := failuresFrom_cons_nil_iff.mp hes
      cases hedit : edit 0 with
      | some change =>
          rw [truncates_cons_some hedit, tamper]
          simp only [hedit]
          rw [failuresFrom_cons_nil_iff, entryFailures_changed_iff hsha he]
          refine and_congr_right fun hcanonical => ?_
          -- the entries behind a kept entry see the hash and the sequence it had
          have hsequence : (change e.toAuditContent).sequence = e.sequence := by
            simp only [AuditContent.canonical, AuditContent.mk.injEq] at hcanonical
            exact hcanonical.2.1
          have hview : ∀ rest,
              failuresFrom (computeEntryHash sha256 canonicalize)
                  (some { change e.toAuditContent with hash := e.hash }) rest
                = failuresFrom (computeEntryHash sha256 canonicalize) (some e) rest :=
            failuresFrom_congr _ rfl hsequence
          rw [hview]
          exact ih hrest
      | none =>
          have hgap : sequenceBefore before < e.sequence := by
            have := (entryFailures_nil_iff.mp he).1
            omega
          have hall : Truncates canonicalize edit (e :: es) ↔
              tamper (fun p => edit (p + 1)) es = [] := by
            rw [tamper_eq_nil_iff]
            constructor
            · exact fun h p hp => h.suffix 0 (p + 1) (by omega) (by simpa using hp) hedit
            · intro h
              have hnone : ∀ q < (e :: es).length, edit q = none := by
                intro q hq
                cases q with
                | zero => exact hedit
                | succ q => exact h q (by simpa using hq)
              refine ⟨fun p q _ hq _ => hnone q hq, fun p x f hx hf => ?_⟩
              have hp := (List.getElem?_eq_some_iff.mp hx).1
              rw [hnone p hp] at hf
              cases hf
          rw [hall, tamper]
          simp only [hedit]
          exact ⟨tamper_nil_of_gap hsha hgap hrest, fun h => by rw [h]; rfl⟩

end AuditWorld

open AuditWorld

/-- **What verification finds.** For every chain that `record` has built, every set of removed positions
and every change of the entries that stay, `verifyEntity` reports nothing exactly if only the last
entries were removed and nothing that is hashed has changed. -/
theorem tampering_detected_iff (sha256 : AuditContent γ η → η) (hsha : Function.Injective sha256)
    (canonicalize : α → γ) (writes : List (AuditWrite α)) (entityType entityId : JsString)
    (edit : Nat → Option (AuditContent α η → AuditContent α η)) :
    (((auditMachine (computeEntryHash sha256 canonicalize)).run .initial writes).tampered entityType
        entityId edit).verifyEntity (computeEntryHash sha256 canonicalize) entityType entityId = [] ↔
      Truncates canonicalize edit
        (((auditMachine (computeEntryHash sha256 canonicalize)).run .initial writes).getEntityHistory
          entityType entityId) := by
  simp only [verifyEntity, getEntityHistory, tampered, Function.update_self]
  exact failuresFrom_tamper_iff hsha (sound_run _ writes _)

namespace AuditSample

/-- A hash without collisions: the number of the content in an enumeration. -/
def number (c : AuditContent Nat Nat) : Nat :=
  Encodable.encode ((c.entityType, c.entityId, c.action, c.actor), c.payload, c.sequence, c.previousHash)

theorem number_injective : Function.Injective number := by
  rintro ⟨⟨_, _, _, _, _⟩, _, _⟩ ⟨⟨_, _, _, _, _⟩, _, _⟩ h
  have htuple := Encodable.encode_injective h
  simp only [Prod.mk.injEq] at htuple
  obtain ⟨⟨rfl, rfl, rfl, rfl⟩, rfl, rfl, rfl⟩ := htuple
  rfl

def write (payload : Nat) : AuditWrite Nat := ⟨js "bond", js "1", js "update", js "admin", payload⟩

/-- The bond after two writes. -/
def twice : AuditWorld Nat Nat :=
  (auditMachine (computeEntryHash number id)).run .initial [write 5, write 6]

/-- Remove one position. -/
def without (p : Nat) : Nat → Option (AuditContent Nat Nat → AuditContent Nat Nat) :=
  fun q => if q = p then none else some id

theorem twice_length : (twice.getEntityHistory (js "bond") (js "1")).length = 2 := by
  simp [twice, Machine.run, auditMachine, AuditWorld.record, write, getEntityHistory, AuditWorld.initial,
    maxEntriesPerEntity, maxTotalEntries, js]

end AuditSample

open AuditSample in
theorem truncation_undetected : Function.Injective number ∧
    (twice.getEntityHistory (js "bond") (js "1")).length = 2 ∧
      (twice.tampered (js "bond") (js "1") (without 1)).verifyEntity (computeEntryHash number id)
        (js "bond") (js "1") = [] := by
  refine ⟨number_injective, twice_length, ?_⟩
  simp only [verifyEntity, getEntityHistory, tampered, Function.update_self]
  refine (failuresFrom_tamper_iff number_injective (sound_run _ [write 5, write 6] _)).mpr ?_
  refine ⟨fun p q hpq hq hp => ?_, fun p e change _ hchange => ?_⟩
  · have hlength : q < 2 := hq.trans_eq twice_length
    unfold without at hp ⊢
    split at hp
    · rw [if_pos (by omega)]
    · cases hp
  · unfold without at hchange
    split at hchange
    · cases hchange
    · cases hchange
      rfl

open AuditSample in
/-- Without the first entry the bond no longer verifies. -/
theorem removal_of_first_detected :
    (twice.tampered (js "bond") (js "1") (without 0)).verifyEntity (computeEntryHash number id)
      (js "bond") (js "1") ≠ [] := by
  intro h
  have htruncates := (tampering_detected_iff number number_injective id [write 5, write 6] (js "bond")
    (js "1") (without 0)).mp h
  have hlast := htruncates.suffix 0 1 (by omega) (Nat.one_lt_two.trans_eq twice_length.symm) rfl
  exact absurd hlast (by simp [without])

end VerdantBond
