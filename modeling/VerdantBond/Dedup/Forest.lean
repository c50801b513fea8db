import VerdantBond.Dedup.Service

set_option autoImplicit false
set_option linter.unusedSectionVars false

/-! # Merges form a forest

`executeMerge` looks for conflicting merges before it fetches the entities, and writes its journal
entry after the adapter has written them. Calls interleave at these awaits; what the adapter answers is
left open. As long as no merge takes away an entity of another merge that has passed its look at the
journal (`Apart`), what that look found stays true until the entry is written, and the new edge starts
at an entity without one and ends at an entity without one (`merges_form_forest`). Two calls for one
candidate break it (`merged_twice`).
-/

namespace VerdantBond

open Function DeduplicationService Relation

/-- An edge that leads to a point without edges closes no cycle. -/
theorem acyclic_insert {κ : Type} {R : κ → κ → Prop} {s p : κ} (hR : ∀ x, ¬ TransGen R x x)
    (hne : s ≠ p) (hp : ∀ x, ¬ R p x) (x : κ) :
    ¬ TransGen (fun x y => R x y ∨ (x = s ∧ y = p)) x x := by
  have hends : ∀ x y, TransGen (fun x y => R x y ∨ (x = s ∧ y = p)) x y → TransGen R x y ∨ y = p := by
    -- along a path: once it takes the new edge it is at `p`, where no edge starts
    intro x y h
    induction h with
    | single h => exact h.imp .single And.right
    | tail _ hyz ih =>
        rcases hyz with hyz | ⟨-, rfl⟩
        · rcases ih with ih | rfl
          · exact .inl (ih.tail hyz)
          · exact absurd hyz (hp _)
        · exact .inr rfl
  intro hcycle
  rcases hends x x hcycle with h | rfl
  · exact hR x h
  · -- a cycle through `p` leaves `p`
    obtain ⟨y, hy, -⟩ := TransGen.head'_iff.mp hcycle
    rcases hy with hy | ⟨rfl, -⟩
    · exact hp y hy
    · exact hne rfl

variable {ι κ ε δ ρ : Type}

/-! ## Concurrent calls -/

/-- What a call waits for. -/
inductive DedupCall (ι κ ε δ ρ : Type) where
  /-- `executeMerge`, for its candidate. -/
  | candidate (id : ι)
  /-- `executeMerge`, for its primary entity. -/
  | primary (id : ι) (c : CandidateDuplicate κ δ ρ)
  | secondary (id : ι) (c : CandidateDuplicate κ δ ρ) (primary : Option ε)
  /-- `executeMerge`, for the writes of the adapter. -/
  | merging (id : ι) (c : CandidateDuplicate κ δ ρ) (primary secondary : ε)
  /-- `reverseMerge`, for the writes of the adapter. -/
  | reversing (m : Nat) (journal : MergeJournalEntry ι κ ε)

/-- The candidate of a merge that has passed its look at the journal. -/
def DedupCall.passed : DedupCall ι κ ε δ ρ → Option (ι × CandidateDuplicate κ δ ρ)
  | .primary id c | .secondary id c _ | .merging id c .. => some (id, c)
  | _ => none

inductive DedupAnswer (ε : Type) where
  | found
  | entity (e : Option ε)
  /-- The writes of the adapter are done, and the clock shows the time. -/
  | applied (now : Int)
  | throws

structure DedupWorld (ι κ ε δ ρ : Type) where
  service : DeduplicationService ι κ ε δ ρ
  calls : Nat → Option (DedupCall ι κ ε δ ρ)

inductive DedupInput (ι ε : Type) where
  | executeMerge (i : Nat) (id : ι)
  | reverseMerge (i : Nat) (m : Nat)
  | answer (i : Nat) (answer : DedupAnswer ε)

variable [DecidableEq ι] [DecidableEq κ] [DecidableEq δ]

variable (a : DeduplicationAdapter ι κ ε δ ρ) (s : DeduplicationService ι κ ε δ ρ)

/-- A call goes on with an answer up to its next await. -/
def resumeDedup : DedupCall ι κ ε δ ρ → DedupAnswer ε →
      DeduplicationService ι κ ε δ ρ × Option (DedupCall ι κ ε δ ρ)
  | .candidate id, .found => (s, (s.checkMerge id).toOption.map (.primary id))
  | .primary id c, .entity e => (s, some (.secondary id c e))
  | .secondary id c primary, .entity e =>
      (s, (a.checkDrift c primary e).toOption.map fun (p, q) => .merging id c p q)
  | .merging id c p q, .applied now => (s.journalMerge id c p q now, none)
  | .reversing m journal, .applied _ => (s.journalReversal m journal, none)
  -- a call that throws ends, and leaves what it has written
  | _, _ => (s, none)

def dedupStep (w : DedupWorld ι κ ε δ ρ) : DedupInput ι ε → DedupWorld ι κ ε δ ρ
  | .executeMerge i id =>
      match w.calls i, w.service.candidates id with
      | none, some _ => { w with calls := update w.calls i (some (.candidate id)) }
      | _, _ => w
  | .reverseMerge i m =>
      match w.calls i, w.service.checkReversal m with
      | none, .ok journal => { w with calls := update w.calls i (some (.reversing m journal)) }
      | _, _ => w
  | .answer i answer =>
      match w.calls i with
      | none => w
      | some call =>
          let (service, next) := resumeDedup a w.service call answer
          ⟨service, update w.calls i next⟩

def dedupMachine : Machine (DedupWorld ι κ ε δ ρ) (DedupInput ι ε) Unit where
  step w input := (dedupStep a w input, ())

abbrev DedupEvent (ι κ ε δ ρ : Type) := Event (DedupWorld ι κ ε δ ρ) (DedupInput ι ε) Unit

/-- Any candidates, and no merges yet. -/
def DedupWorld.initial (candidates : ι → Option (CandidateDuplicate κ δ ρ)) : DedupWorld ι κ ε δ ρ :=
  ⟨⟨candidates, []⟩, fun _ => none⟩

/-- The call that goes on in a step. -/
def DedupEvent.caller (e : DedupEvent ι κ ε δ ρ) : Option (Nat × DedupCall ι κ ε δ ρ) :=
  match e.input with
  | .answer i (.applied _) => (e.pre.calls i).map (i, ·)
  | _ => none

/-- When a merge is journalled, no other merge that has passed its look at the journal has the entity
that is merged away. -/
def Apart (e : DedupEvent ι κ ε δ ρ) : Prop :=
  ∀ i id c p q, e.caller = some (i, .merging id c p q) →
    ∀ i' id' c', i' ≠ i → (e.pre.calls i').bind DedupCall.passed = some (id', c') →
      c.secondaryId ≠ c'.primaryId ∧ c.secondaryId ≠ c'.secondaryId

/-! ## Forests -/

/-- `x` is merged into `y`. -/
def MergedInto (journals : List (MergeJournalEntry ι κ ε)) (x y : κ) : Prop :=
  ∃ j ∈ journals, j.secondaryId = x ∧ j.primaryId = y

structure Forest (journals : List (MergeJournalEntry ι κ ε)) : Prop where
  secondaries : (journals.map MergeJournalEntry.secondaryId).Nodup
  candidates : (journals.map MergeJournalEntry.candidateId).Nodup
  acyclic : ∀ x, ¬ TransGen (MergedInto journals) x x

theorem Forest.nil : Forest ([] : List (MergeJournalEntry ι κ ε)) where
  secondaries := List.nodup_nil
  candidates := List.nodup_nil
  acyclic x h := by
    obtain ⟨y, ⟨j, hj, -⟩, -⟩ := TransGen.head'_iff.mp h
    cases hj

theorem Forest.sublist {journals journals' : List (MergeJournalEntry ι κ ε)} (h : Forest journals)
    (hsub : journals'.Sublist journals) : Forest journals' where
  secondaries := h.secondaries.sublist (hsub.map _)
  candidates := h.candidates.sublist (hsub.map _)
  acyclic x hcycle := by
    refine h.acyclic x (hcycle.lift id fun y z hyz => ?_)
    obtain ⟨j, hj, hends⟩ := hyz
    exact ⟨j, hsub.subset hj, hends⟩

theorem Forest.snoc {journals : List (MergeJournalEntry ι κ ε)} {j : MergeJournalEntry ι κ ε}
    (h : Forest journals) (hne : j.primaryId ≠ j.secondaryId)
    (hfree : ∀ i ∈ journals, i.secondaryId ≠ j.secondaryId ∧ i.secondaryId ≠ j.primaryId)
    (hcandidate : ∀ i ∈ journals, i.candidateId ≠ j.candidateId) : Forest (journals ++ [j]) where
  secondaries := by
    rw [List.map_append, List.nodup_append]
    refine ⟨h.secondaries, List.nodup_singleton _, fun x hx y hy => ?_⟩
    obtain ⟨i, hi, rfl⟩ := List.mem_map.mp hx
    rw [List.mem_singleton.mp hy]
    exact (hfree i hi).1
  candidates := by
    rw [List.map_append, List.nodup_append]
    refine ⟨h.candidates, List.nodup_singleton _, fun x hx y hy => ?_⟩
    obtain ⟨i, hi, rfl⟩ := List.mem_map.mp hx
    rw [List.mem_singleton.mp hy]
    exact hcandidate i hi
  acyclic x hcycle := by
    refine acyclic_insert h.acyclic hne.symm
      (fun y ⟨i, hi, hsecondary, _⟩ => (hfree i hi).2 hsecondary) x (hcycle.lift id fun y z hyz => ?_)
    obtain ⟨i, hi, hends⟩ := hyz
    rcases List.mem_append.mp hi with hi | hi
    · exact .inl ⟨i, hi, hends⟩
    · rw [List.mem_singleton.mp hi] at hends
      exact .inr ⟨hends.1.symm, hends.2.symm⟩

/-! ## Runs -/

/-- A candidate with the entities of `c` is stored under the id. -/
def Stored (id : ι) (primaryId secondaryId : κ) : Prop :=
  ∃ c, s.candidates id = some c ∧ c.primaryId = primaryId ∧ c.secondaryId = secondaryId

/-- What the look at the journal found. -/
def Free (id : ι) (c : CandidateDuplicate κ δ ρ) : Prop :=
  Stored s id c.primaryId c.secondaryId ∧ c.primaryId ≠ c.secondaryId ∧
    ∀ j ∈ s.active, j.secondaryId ≠ c.secondaryId ∧ j.secondaryId ≠ c.primaryId

/-- The merges in force are a forest, and what a merge found in the journal is still true. -/
structure Grown (w : DedupWorld ι κ ε δ ρ) : Prop where
  forest : Forest w.service.active
  stored : ∀ j ∈ w.service.active, Stored w.service j.candidateId j.primaryId j.secondaryId
  free : ∀ i id c, (w.calls i).bind DedupCall.passed = some (id, c) → Free w.service id c

variable {s : DeduplicationService ι κ ε δ ρ} {w : DedupWorld ι κ ε δ ρ}

theorem stored_modifyCandidate {id id' : ι} {primaryId secondaryId : κ}
    {f : CandidateDuplicate κ δ ρ → CandidateDuplicate κ δ ρ}
    (hf : ∀ c, (f c).primaryId = c.primaryId ∧ (f c).secondaryId = c.secondaryId)
    (h : Stored s id' primaryId secondaryId) :
    Stored (s.modifyCandidate id f) id' primaryId secondaryId := by
  obtain ⟨c, hc, hprimary, hsecondary⟩ := h
  by_cases heq : id' = id
  · subst heq
    exact ⟨f c, by rw [modifyCandidate_self, hc]; rfl, (hf c).1.trans hprimary,
      (hf c).2.trans hsecondary⟩
  · exact ⟨c, by rw [modifyCandidate_of_ne heq, hc], hprimary, hsecondary⟩

namespace Grown

variable {w : DedupWorld ι κ ε δ ρ} {i : Nat}

variable {next : Option (DedupCall ι κ ε δ ρ)}

theorem free_update {s : DeduplicationService ι κ ε δ ρ}
    (hnext : ∀ id c, next.bind DedupCall.passed = some (id, c) → Free s id c)
    (hothers : ∀ i', i' ≠ i → ∀ id c, (w.calls i').bind DedupCall.passed = some (id, c) → Free s id c) :
    ∀ i' id c, (update w.calls i next i').bind DedupCall.passed = some (id, c) → Free s id c := by
  intro i'
  rw [update_apply]
  split
  · exact hnext
  · next hi => exact hothers i' hi

theorem withCall (h : Grown w)
    (hnext : ∀ id c, next.bind DedupCall.passed = some (id, c) → Free w.service id c) :
    Grown ⟨w.service, update w.calls i next⟩ :=
  ⟨h.forest, h.stored, free_update hnext fun i' _ => h.free i'⟩

theorem journalMerge (h : Grown w) {id : ι} {c : CandidateDuplicate κ δ ρ} {p q : ε} {now : Int}
    (hcall : w.calls i = some (.merging id c p q))
    (hapart : ∀ i' id' c', i' ≠ i → (w.calls i').bind DedupCall.passed = some (id', c') →
      c.secondaryId ≠ c'.primaryId ∧ c.secondaryId ≠ c'.secondaryId) :
    Grown ⟨w.service.journalMerge id c p q now, update w.calls i none⟩ := by
  obtain ⟨hstored, hne, hfree⟩ := h.free i id c (by rw [hcall]; rfl)
  have hkeeps : ∀ {id' primaryId secondaryId}, Stored w.service id' primaryId secondaryId →
      Stored (w.service.journalMerge id c p q now) id' primaryId secondaryId :=
    fun hs => stored_modifyCandidate (fun _ => ⟨rfl, rfl⟩) hs
  constructor
  · rw [active_journalMerge]
    refine h.forest.snoc hne hfree fun j hj heq => ?_
    -- a merge of the same candidate has the same secondary
    obtain ⟨c₁, hc₁, -, hsecondary⟩ := h.stored j hj
    obtain ⟨c₂, hc₂, -, hsecondary'⟩ := hstored
    rw [heq, hc₂] at hc₁
    cases hc₁
    exact (hfree j hj).1 (hsecondary.symm.trans hsecondary')
  · rw [active_journalMerge]
    refine List.forall_mem_append.mpr ⟨fun j hj => hkeeps (h.stored j hj), ?_⟩
    exact List.forall_mem_singleton.mpr (hkeeps hstored)
  · refine free_update (fun id' c' hnone => by cases hnone) fun i' hi id' c' hpassed => ?_
    obtain ⟨hstored', hne', hfree'⟩ := h.free i' id' c' hpassed
    refine ⟨hkeeps hstored', hne', ?_⟩
    rw [active_journalMerge]
    refine List.forall_mem_append.mpr ⟨hfree', List.forall_mem_singleton.mpr ?_⟩
    exact (hapart i' id' c' hi hpassed).symm

theorem journalReversal (h : Grown w) (m : Nat) (journal : MergeJournalEntry ι κ ε) :
    Grown ⟨w.service.journalReversal m journal, update w.calls i none⟩ := by
  have hsub := active_journalReversal_sublist (s := w.service) m journal
  have hkeeps : ∀ {id primaryId secondaryId}, Stored w.service id primaryId secondaryId →
      Stored (w.service.journalReversal m journal) id primaryId secondaryId :=
    fun hs => stored_modifyCandidate (fun _ => ⟨rfl, rfl⟩) hs
  refine ⟨h.forest.sublist hsub, fun j hj => hkeeps (h.stored j (hsub.subset hj)), ?_⟩
  refine free_update (fun id c hnone => by cases hnone) fun i' hi id c hpassed => ?_
  obtain ⟨hstored, hne, hfree⟩ := h.free i' id c hpassed
  exact ⟨hkeeps hstored, hne, fun j hj => hfree j (hsub.subset hj)⟩

/-- A call that goes on with its candidate, or ends. -/
theorem goesOn (h : Grown w) {call : DedupCall ι κ ε δ ρ} (hcall : w.calls i = some call)
    (hnext : ∀ pair, next.bind DedupCall.passed = some pair → call.passed = some pair) :
    Grown ⟨w.service, update w.calls i next⟩ := by
  refine h.withCall fun id c hpassed => h.free i id c ?_
  rw [hcall, Option.bind_some, hnext _ hpassed]

end Grown

theorem free_of_checkMerge {id : ι} {c : CandidateDuplicate κ δ ρ} (h : s.checkMerge id = .ok c) :
    Free s id c := by
  obtain ⟨hc, -, hne, hfree⟩ := checkMerge_ok h
  exact ⟨⟨c, hc, rfl, rfl⟩, hne, hfree⟩

theorem grown_answer (h : Grown w) (i : Nat) (answer : DedupAnswer ε)
    (hapart : Apart ((dedupMachine a).event w (.answer i answer))) :
    Grown (dedupStep a w (.answer i answer)) := by
  simp only [dedupStep]
  split
  · exact h
  · next call hcall =>
      cases call <;> cases answer
      case candidate.found id =>
          show Grown ⟨_, update w.calls i ((w.service.checkMerge id).toOption.map (.primary id))⟩
          cases hcheck : w.service.checkMerge id with
          | error e => exact h.goesOn hcall fun pair hnone => by cases hnone
          | ok c =>
              refine h.withCall fun id' c' hpassed => ?_
              cases hpassed
              exact free_of_checkMerge hcheck
      case primary.entity => exact h.goesOn hcall fun pair hpair => hpair
      case secondary.entity id c primary e =>
          show Grown ⟨_, update w.calls i ((a.checkDrift c primary e).toOption.map _)⟩
          cases a.checkDrift c primary e with
          | error e => exact h.goesOn hcall fun pair hnone => by cases hnone
          | ok entities => exact h.goesOn hcall fun pair hpair => hpair
      -- the only answer that adds an edge; `Apart` is what the other calls rely on
      case merging.applied id c p q now =>
          refine h.journalMerge hcall fun i' id' c' => hapart i id c p q ?_ i' id' c'
          simp [DedupEvent.caller, Machine.event, hcall]
      case reversing.applied m journal now => exact h.journalReversal m journal
      -- any other answer ends the call
      all_goals exact h.goesOn hcall fun pair hnone => by cases hnone

theorem grown_step (h : Grown w) (input : DedupInput ι ε)
    (hapart : Apart ((dedupMachine a).event w input)) : Grown (dedupStep a w input) := by
  cases input with
  | executeMerge i id =>
      simp only [dedupStep]
      split
      · exact h.withCall fun id' c hnone => by cases hnone
      · exact h
  | reverseMerge i m =>
      simp only [dedupStep]
      split
      · exact h.withCall fun id' c hnone => by cases hnone
      · exact h
  | answer i answer => exact grown_answer a h i answer hapart

/-- **Merges form a forest** in every interleaving in which no merge takes away an entity of another
merge that has passed its look at the journal. -/
theorem merges_form_forest (a : DeduplicationAdapter ι κ ε δ ρ)
    (candidates : ι → Option (CandidateDuplicate κ δ ρ)) (inputs : List (DedupInput ι ε))
    (hapart : ∀ e ∈ (dedupMachine a).history (.initial candidates) inputs, Apart e) :
    Forest ((dedupMachine a).run (.initial candidates) inputs).service.active := by
  refine ((dedupMachine a).run_guarded (G := Apart) (P := Grown) ?_ ?_ inputs hapart).forest
  · refine ⟨.nil, fun j hj => ?_, fun i id c hnone => ?_⟩
    · cases hj
    · cases hnone
  · exact fun l input hgrown hGi => grown_step a hgrown input hGi

/-! ## Two calls at a time -/

namespace DedupForest

/-- Entities are numbers, and so are their states. -/
def numbers : DeduplicationAdapter Nat Nat Nat Nat Unit where
  idOf := id
  candidateId := fun x y => min x y
  precedes := fun x y => x ≤ y
  computeStateDigest := id
  computeMergedState := fun p s _ => (p, s)
  applyMerge := fun _ _ merged => merged
  applyReversal := fun _ snapshot => snapshot

/-- 2 is a duplicate of 1, and 4 of 3. -/
def approved (id : Nat) : Option (CandidateDuplicate Nat Nat Unit) :=
  if id = 1 ∨ id = 3 then some ⟨id, id + 1, .approved, id, id + 1, none, none⟩ else none

/-- The calls 0 and 1 for two candidates, step by step at the same time. -/
def together (x y : Nat) : List (DedupInput Nat Nat) :=
  [.executeMerge 0 x, .executeMerge 1 y, .answer 0 .found, .answer 1 .found,
    .answer 0 (.entity (some x)), .answer 1 (.entity (some y)), .answer 0 (.entity (some (x + 1))),
    .answer 1 (.entity (some (y + 1))), .answer 0 (.applied 0), .answer 1 (.applied 0)]

/-- Both candidates are merged, and the first merge is reversed. -/
def disjoint : List (DedupInput Nat Nat) :=
  together 1 3 ++ [.reverseMerge 0 0, .answer 0 (.applied 1)]

def merged (inputs : List (DedupInput Nat Nat)) : List (Nat × Nat × Nat) :=
  ((dedupMachine numbers).run (.initial approved) inputs).service.active.map
    fun j => (j.candidateId, j.secondaryId, j.primaryId)

end DedupForest

open DedupForest in
theorem merged_twice : merged (together 1 1) = [(1, 2, 1), (1, 2, 1)] ∧
    ¬ Forest ((dedupMachine numbers).run (.initial approved) (together 1 1)).service.active := by
  refine ⟨by decide, fun h => ?_⟩
  exact absurd h.secondaries (by decide)

open DedupForest in
theorem merges_form_forest_sample : merged disjoint = [(3, 4, 3)] ∧
    Forest ((dedupMachine numbers).run (.initial approved) disjoint).service.active := by
  refine ⟨by decide, merges_form_forest numbers approved disjoint fun e he => ?_⟩
  simp only [disjoint, together, List.cons_append, List.nil_append, Machine.history, List.mem_cons,
    List.not_mem_nil, or_false] at he
  rcases he with rfl | rfl | rfl | rfl | rfl | rfl | rfl | rfl | rfl | rfl | rfl | rfl
  all_goals
    intro i id c p q hcaller i' id' c' hne hpassed
    cases hcaller
  -- the other call is for the other candidate, or has ended
  all_goals
    rcases i' with _ | _ | i' <;> cases hpassed
  all_goals first | exact absurd rfl hne | decide

end VerdantBond
