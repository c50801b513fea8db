import VerdantBond.Dedup.KycAdapter
import VerdantBond.Dedup.Sequential

set_option autoImplicit false
set_option linter.unusedSectionVars false

/-! # Reversals

A reversal puts the journalled states of both entities back, whatever has been made of them since.
The secondary of a merge in force cannot be merged again, so only later merges with its primary
stand in the way, and these are told by their time. With times that grow (`Later`) a merge is
reversed after all later merges with one of its entities, and then undoing it commutes with undoing
what is left: the entities are always those from which undoing the merges in force, newest first,
gives the entities before them (`restore_of_putsBack`). With equal times they are not, nor with the
KYC store, which keeps a reference or an expiry that the journal does not have (`reversal_misses`).
-/

namespace VerdantBond

open Function DeduplicationService DedupStore

variable {ι κ ε δ ρ : Type} [DecidableEq ι] [DecidableEq κ] [DecidableEq δ]

/-- The merges have an entity in common. -/
def MergeJournalEntry.Touches (j j' : MergeJournalEntry ι κ ε) : Prop :=
  (j'.primaryId = j.primaryId ∨ j'.primaryId = j.secondaryId) ∨
    (j'.secondaryId = j.primaryId ∨ j'.secondaryId = j.secondaryId)

/-- When a merge is reversed, no merge that was executed after it and has one of its entities is in
force. -/
def LastInFirstOut (e : DedupOpEvent ι κ ε δ ρ) : Prop :=
  ∀ m applies j, e.input = .reverseMerge m applies → e.output = .ok () →
    e.pre.service.mergeJournals[m]? = some j →
      ∀ m' j', m < m' → e.pre.service.mergeJournals[m']? = some j' → j'.status = .merged → ¬ j.Touches j'

/-- A merge is executed at a later time than the merges in force with one of its entities as their
primary. -/
def Later (e : DedupOpEvent ι κ ε δ ρ) : Prop :=
  ∀ id now applies c, e.input = .executeMerge id now applies → e.output = .ok () →
    e.pre.service.candidates id = some c → ∀ j ∈ e.pre.service.active,
      j.primaryId = c.primaryId ∨ j.primaryId = c.secondaryId → j.executedAt < now

/-- The records of a merge that is reversed, and the states that the journal has of them. -/
def OnRecords (restorable : Option ε → ε → Prop) (e : DedupOpEvent ι κ ε δ ρ) : Prop :=
  ∀ m applies j, e.input = .reverseMerge m applies → e.pre.service.mergeJournals[m]? = some j →
    restorable (e.pre.entities j.primaryId) j.preMergePrimary ∧
      restorable (e.pre.entities j.secondaryId) j.preMergeSecondary

/-- The adapter makes of the current records what the journal has. -/
def PutsBack (a : DeduplicationAdapter ι κ ε δ ρ) : DedupOpEvent ι κ ε δ ρ → Prop :=
  OnRecords fun current snapshot => a.applyReversal current snapshot = snapshot

def DedupOp.isEdit : DedupOp ι κ ε ρ → Bool
  | .edit .. => true
  | _ => false

/-! ## The order of the merges in force -/

/-- `j` was executed after `i`, while `i` was in force. -/
def Follows (i j : MergeJournalEntry ι κ ε) : Prop :=
  j.primaryId ≠ i.secondaryId ∧ j.secondaryId ≠ i.secondaryId ∧
    (j.primaryId = i.primaryId ∨ j.secondaryId = i.primaryId → i.executedAt < j.executedAt)

variable {j : MergeJournalEntry ι κ ε}

/-- A merge that may be reversed has no entity in common with those that follow it. -/
theorem not_touches_of_follows {s : DeduplicationService ι κ ε δ ρ} {m : Nat}
    {journal : MergeJournalEntry ι κ ε} (hcheck : s.checkReversal m = .ok journal)
    (hj : j ∈ s.active) (hfollows : Follows journal j) : ¬ journal.Touches j := by
  obtain ⟨-, -, hlater⟩ := checkReversal_ok hcheck
  obtain ⟨hprimary, hsecondary, htime⟩ := hfollows
  have hnew : ¬ (j.primaryId = journal.primaryId ∨ j.secondaryId = journal.primaryId) := fun h =>
    h.elim (hlater j hj (htime h)).1 (hlater j hj (htime h)).2
  rintro ((h | h) | (h | h))
  · exact hnew (.inl h)
  · exact hprimary h
  · exact hnew (.inr h)
  · exact hsecondary h

/-! ## Undoing merges -/

def MergeJournalEntry.undo (j : MergeJournalEntry ι κ ε) (entities : κ → Option ε) : κ → Option ε :=
  update (update entities j.secondaryId (some j.preMergeSecondary)) j.primaryId (some j.preMergePrimary)

theorem undo_comm {j' : MergeJournalEntry ι κ ε} (h : ¬ j.Touches j') (entities : κ → Option ε) :
    j.undo (j'.undo entities) = j'.undo (j.undo entities) := by
  simp only [MergeJournalEntry.Touches, not_or] at h
  obtain ⟨⟨h₁, h₂⟩, h₃, h₄⟩ := h
  funext k
  simp only [MergeJournalEntry.undo, update_apply]
  split_ifs with hp hs hp' hs' <;> simp_all

/-- Undoing a merge before others that have no entity in common with it. -/
theorem undo_foldr {later : List (MergeJournalEntry ι κ ε)} (h : ∀ j' ∈ later, ¬ j.Touches j')
    (entities : κ → Option ε) :
    j.undo (later.foldr MergeJournalEntry.undo entities) =
      later.foldr MergeJournalEntry.undo (j.undo entities) := by
  induction later with
  | nil => rfl
  | cons j' later ih =>
      rw [List.foldr_cons, List.foldr_cons, undo_comm (h j' List.mem_cons_self),
        ih fun x hx => h x (List.mem_cons_of_mem _ hx)]

/-- The entities with all merges in force undone, newest first. -/
def DedupStore.undone (w : DedupStore ι κ ε δ ρ) : κ → Option ε :=
  w.service.active.foldr MergeJournalEntry.undo w.entities

/-! ## Steps -/

section Steps

variable {a : DeduplicationAdapter ι κ ε δ ρ} {w : DedupStore ι κ ε δ ρ}

variable {applies : Bool} {w' : DedupStore ι κ ε δ ρ}

theorem executeMerge_follows {id : ι} {now : Int} (h : w.service.active.Pairwise Follows)
    (hop : w.executeMerge a id now applies = .ok w')
    (hlater : ∀ c, w.service.candidates id = some c → ∀ j ∈ w.service.active,
      j.primaryId = c.primaryId ∨ j.primaryId = c.secondaryId → j.executedAt < now) :
    w'.service.active.Pairwise Follows ∧ w'.undone = w.undone := by
  obtain ⟨c, p, q, stored, hcheck, hp, hq, rfl⟩ := executeMerge_ok hop
  obtain ⟨hc, -, hne, hfree⟩ := checkMerge_ok hcheck
  simp only [undone, active_journalMerge]
  refine ⟨List.pairwise_append.mpr ⟨h, List.pairwise_singleton .., fun i hi j hj => ?_⟩, ?_⟩
  · rw [List.mem_singleton.mp hj]
    refine ⟨(hfree i hi).2.symm, (hfree i hi).1.symm, fun hshared => ?_⟩
    exact hlater c hc i hi (hshared.imp Eq.symm Eq.symm)
  · -- undoing the new merge first gives the entities before it
    rw [List.foldr_append]
    refine congrArg (fun entities => w.service.active.foldr MergeJournalEntry.undo entities) ?_
    funext k
    simp only [List.foldr_cons, List.foldr_nil, MergeJournalEntry.undo, update_apply]
    split_ifs with hk hk'
    · rw [hk, hp]
    · rw [hk', hq]
    · rfl

theorem reverseMerge_follows {m : Nat} (h : w.service.active.Pairwise Follows)
    (hop : w.reverseMerge a m applies = .ok w') :
    w'.service.active.Pairwise Follows ∧
      (∀ j, w.service.mergeJournals[m]? = some j → ∀ m' j', m < m' →
        w.service.mergeJournals[m']? = some j' → j'.status = .merged → ¬ j.Touches j') ∧
      (PutsBack a ((dedupOpMachine a).event w (.reverseMerge m applies)) → w'.undone = w.undone) := by
  obtain ⟨journal, hcheck, rfl⟩ := reverseMerge_ok hop
  obtain ⟨hj, hactive, -⟩ := checkReversal_ok hcheck
  obtain ⟨earlier, later, hsplit, hafter, -, hdrop⟩ := active_journalReversal hj hactive
  have hlater : ∀ j' ∈ later, ¬ journal.Touches j' := by
    intro j' hj'
    rw [hsplit] at h
    refine not_touches_of_follows hcheck ?_ ((List.pairwise_cons.mp (List.pairwise_append.mp h).2.1).1 j' hj')
    rw [hsplit]
    exact List.mem_append_right _ (List.mem_cons_of_mem _ hj')
  refine ⟨h.sublist (active_journalReversal_sublist m journal), fun j hj' m' j' hm hj'' hactive' => ?_,
    fun hback => ?_⟩
  · rw [hj] at hj'
    cases hj'
    refine hlater j' ?_
    rw [hdrop, List.mem_filter]
    refine ⟨List.mem_of_getElem? (i := m' - (m + 1)) ?_, by simpa using hactive'⟩
    rw [List.getElem?_drop, ← hj'']
    congr 1
    omega
  · obtain ⟨hprimary, hsecondary⟩ := hback m applies journal rfl hj
    simp only [Machine.event] at hprimary hsecondary
    simp only [undone, hafter, hsplit, hprimary, hsecondary, List.foldr_append, List.foldr_cons]
    rw [undo_foldr hlater]
    rfl

/-- What a step keeps, as long as it meets the conditions on times. -/
theorem step_follows (a : DeduplicationAdapter ι κ ε δ ρ) (w : DedupStore ι κ ε δ ρ)
    (op : DedupOp ι κ ε ρ) (h : w.service.active.Pairwise Follows)
    (hlater : Later ((dedupOpMachine a).event w op)) :
    ((dedupOpMachine a).step w op).1.service.active.Pairwise Follows ∧
      LastInFirstOut ((dedupOpMachine a).event w op) ∧
      (op.isEdit = false → PutsBack a ((dedupOpMachine a).event w op) →
        ((dedupOpMachine a).step w op).1.undone = w.undone) := by
  rcases dedupOp_step_cases a w op with ⟨w', hop, hstep⟩ | ⟨e, hstep⟩
  · have hjournals : ∀ {w'' : DedupStore ι κ ε δ ρ}, w''.service.mergeJournals = w.service.mergeJournals →
        w''.service.active.Pairwise Follows := fun heq => by
      rw [active, heq]
      exact h
    simp only [LastInFirstOut, Later, Machine.event, hstep] at hlater ⊢
    cases op with
    | scan ids confident =>
        cases hop
        have hsame := scan_journals a w.service confident (ids.filterMap w.entities)
        refine ⟨hjournals hsame, fun m applies j hinput => (by cases hinput), fun _ _ => ?_⟩
        simp only [undone, active, hsame]
    | reviewCandidate id review =>
        obtain ⟨c, -, -, rfl⟩ := perform_reviewCandidate_ok hop
        exact ⟨h, fun m applies j hinput => (by cases hinput), fun _ _ => rfl⟩
    | executeMerge id now applies =>
        obtain ⟨hfollows, hundone⟩ := executeMerge_follows h hop fun c =>
          hlater id now applies c rfl trivial
        exact ⟨hfollows, fun m applies j hinput => (by cases hinput), fun _ _ => hundone⟩
    | reverseMerge m applies =>
        obtain ⟨hfollows, hfree, hundone⟩ := reverseMerge_follows h hop
        refine ⟨hfollows, fun m' applies' j hinput _ hj => ?_, fun _ hback => hundone hback⟩
        cases hinput
        exact hfree j hj
    | edit k e =>
        cases hop
        exact ⟨h, fun m applies j hinput => (by cases hinput), fun hedit => (by cases hedit)⟩
  · simp only [LastInFirstOut, Machine.event, hstep]
    exact ⟨h, fun m applies j _ hok => (by cases hok), fun _ _ => trivial⟩

end Steps

/-- **What reversals should do**, in every run in which times grow: they are last-in first-out, and
if nobody else edits and the records of every merge that is reversed are `restorable`, then once no
merge is in force the entities are those before the first merge. -/
def ReversalsRestore (a : DeduplicationAdapter ι κ ε δ ρ) (restorable : Option ε → ε → Prop) : Prop :=
  ∀ (start : DedupStore ι κ ε δ ρ) (ops : List (DedupOp ι κ ε ρ)), start.service.active = [] →
    (∀ e ∈ (dedupOpMachine a).history start ops, Later e) →
    (∀ e ∈ (dedupOpMachine a).history start ops, LastInFirstOut e) ∧
      ((∀ e ∈ (dedupOpMachine a).history start ops,
          e.input.isEdit = false ∧ OnRecords restorable e) →
        ((dedupOpMachine a).run start ops).service.active = [] →
        ((dedupOpMachine a).run start ops).entities = start.entities)

theorem restore_of_putsBack (a : DeduplicationAdapter ι κ ε δ ρ) :
    ReversalsRestore a fun current snapshot => a.applyReversal current snapshot = snapshot := by
  intro start ops hstart hlater
  have hrun := (dedupOpMachine a).guarded_induct (G := fun _ e => Later e)
    (P := fun es w => w.service.active.Pairwise Follows ∧ (∀ e ∈ es, LastInFirstOut e) ∧
      ((∀ e ∈ es, e.input.isEdit = false ∧ PutsBack a e) → w.undone = start.undone))
    ?_ ?_ ops (Machine.guarded_of_forall hlater)
  · obtain ⟨-, hlifo, hundone⟩ := hrun
    refine ⟨hlifo, fun hback hend => ?_⟩
    have hboth := hundone hback
    simpa only [undone, hend, hstart, List.foldr_nil] using hboth
  · exact ⟨by rw [hstart]; exact .nil, fun e he => absurd he List.not_mem_nil, fun _ => rfl⟩
  · rintro l op ⟨hfollows, hlifo, hundone⟩ hGi
    obtain ⟨hfollows', hlifo', hstep⟩ := step_follows a _ op hfollows hGi
    refine ⟨hfollows', List.forall_mem_append.mpr ⟨hlifo, List.forall_mem_singleton.mpr hlifo'⟩,
      fun hback => ?_⟩
    obtain ⟨hbefore, hnow⟩ := List.forall_mem_append.mp hback
    obtain ⟨hedit, hputs⟩ := List.forall_mem_singleton.mp hnow
    exact (hstep hedit hputs).trans (hundone hbefore)

/-- The writes of `ProjectDeduplicationAdapter`, which go to its own store and replace the record. -/
def DeduplicationAdapter.overLocalStore (a : DeduplicationAdapter ι κ ε δ ρ) :
    DeduplicationAdapter ι κ ε δ ρ :=
  { a with applyMerge := fun _ _ merged => merged, applyReversal := fun _ snapshot => snapshot }

/-- **Reversals with the two adapters.** Over a store that replaces records all are restorable; in the
KYC store those that have no more than the snapshot, or are not written and have its reference. -/
theorem reversals_restore (a : DeduplicationAdapter ι κ ε δ ρ) (candidateId : κ → κ → κ × κ)
    (precedes : κ → κ → Bool) :
    ReversalsRestore a.overLocalStore (fun _ _ => True) ∧
      ReversalsRestore (kycAdapter candidateId precedes) fun current snapshot =>
        ∀ record ∈ current, record.2.Restorable snapshot.2 := by
  refine ⟨?_, ?_⟩
  · simpa [DeduplicationAdapter.overLocalStore] using restore_of_putsBack a.overLocalStore
  · simpa only [kycAdapter_applyReversal_eq_iff] using
      restore_of_putsBack (kycAdapter candidateId precedes)

/-! ## Reversals that miss -/

namespace DedupReversals

open DedupSample

def merge {ε ρ : Type} (x y : Nat) (terms : ρ) (now : Int) : List (DedupOp (Nat × Nat) Nat ε ρ) :=
  [.scan [x, y] fun _ _ => true, .reviewCandidate (x, y) ⟨.approved, terms⟩,
   .executeMerge (x, y) now true]

/-- 2 and then 3 are merged into 1, and the merges are reversed in the same order. -/
def reversed (now now' : Int) : List (DedupOp (Nat × Nat) Nat (Nat × Nat) Unit) :=
  merge 1 2 () now ++ merge 1 3 () now' ++ [.reverseMerge 0 true, .reverseMerge 1 true, .reverseMerge 0 true]

/-- The results, the number of merges in force, and the value of 1. -/
def sumsCourse (now now' : Int) :=
  let start := DedupStore.initial fun k => some (k, k)
  let final := (dedupOpMachine sums).run start (reversed now now')
  (((dedupOpMachine sums).history start (reversed now now')).map fun e => e.output.toOption.isSome,
    final.service.active.length, final.entities 1)

/-- 1 expires at the given time, and 2 at 5. -/
def kycRecords (first : Option Int) (k : Nat) : Option (Nat × KycState) :=
  some (k, ⟨.verified, none, if k = 1 then first else some 5⟩)

def ordered (x y : Nat) : Nat × Nat := (min x y, max x y)

/-- 2 is merged into 1 and out again. -/
def mergedOnce : List (DedupOp (Nat × Nat) Nat (Nat × KycState) KycStrategies) :=
  merge 1 2 ⟨none, none, none⟩ 0 ++ [.reverseMerge 0 true]

def kycRun (first : Option Int) :=
  (dedupOpMachine (kycAdapter ordered fun x y => x ≤ y)).run (.initial (kycRecords first))

end DedupReversals

open DedupReversals DedupSample in
theorem reversal_misses :
    sumsCourse 7 7 = ([true, true, true, true, true, true, true, true, false], 0, some (1, 3)) ∧
      (kycRun none mergedOnce).service.active.length = 0 ∧
      (kycRun none mergedOnce).entities 1 = some (1, ⟨.verified, none, some 5⟩) ∧
      kycRecords none 1 = some (1, ⟨.verified, none, none⟩) := by
  decide

open DedupReversals DedupSample in
/-- With growing times the values come back, and so does an expiry that the merge has replaced. -/
theorem reversals_restore_sample :
    sumsCourse 7 8 = ([true, true, true, true, true, true, false, true, true], 0, some (1, 1)) ∧
      (kycRun (some 3) (mergedOnce.take 3)).entities 1 = some (1, ⟨.verified, none, some 5⟩) ∧
      (kycRun (some 3) mergedOnce).entities = kycRecords (some 3) := by
  refine ⟨by decide, by decide, ((reversals_restore sums ordered fun x y : Nat => x ≤ y).2
    (.initial (kycRecords (some 3))) mergedOnce rfl fun e he => ?_).2 (fun e he => ?_) rfl⟩
  all_goals
    simp only [mergedOnce, merge, List.cons_append, List.nil_append, Machine.history, List.mem_cons,
      List.not_mem_nil, or_false] at he
    rcases he with rfl | rfl | rfl | rfl
  -- the merge finds none in force
  iterate 4 exact fun _ _ _ _ hinput _ _ _ hj => by first | cases hinput; done | cases hj
  iterate 3 exact ⟨rfl, fun _ _ _ hinput => by cases hinput⟩
  refine ⟨rfl, fun m applies j hinput hj => ?_⟩
  cases hinput
  cases hj
  refine ⟨fun record hrecord => ?_, fun record hrecord => ?_⟩ <;> cases hrecord
  · exact ⟨fun _ => rfl, fun h => by cases h⟩
  · exact ⟨fun _ => rfl, fun h => by cases h⟩

end VerdantBond
