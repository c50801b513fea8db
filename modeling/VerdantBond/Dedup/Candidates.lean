import VerdantBond.Dedup.Sequential

set_option autoImplicit false
set_option linter.unusedSectionVars false

/-! # Merged candidates

A review refuses a merged candidate and a merge wants an approved one, so apart from a reversal only a
scan can touch a merged candidate. The scan builds it anew, and keeps its status only if the states of
both entities are those of the last scan. So it stays merged as long as no scan finds its entities
changed (`merged_until_reversed`); otherwise it waits for review again, and may be reviewed, while its
merge is in force (`merged_candidate_reviewed`).
-/

namespace VerdantBond

open Function DeduplicationService DedupStore

variable {ι κ ε δ ρ : Type} [DecidableEq ι] [DecidableEq κ] [DecidableEq δ]

variable (a : DeduplicationAdapter ι κ ε δ ρ) (e : DedupOpEvent ι κ ε δ ρ)

/-- A merged candidate stays merged, with its merge and its review, unless the merge is reversed. -/
def StaysMerged : Prop :=
  ∀ id c, e.pre.service.candidates id = some c → c.status = .merged →
    (∃ c', e.post.service.candidates id = some c' ∧ c'.status = .merged ∧ c'.mergeId = c.mergeId) ∨
      ∃ m applies, c.mergeId = some m ∧ e.input = .reverseMerge m applies ∧ e.output = .ok ()

/-- The review of a candidate is the same before and after, if one of its merges is in force. -/
def ReviewFixed : Prop :=
  ∀ j ∈ e.pre.service.active,
    (e.post.service.candidates j.candidateId).map CandidateDuplicate.review =
      (e.pre.service.candidates j.candidateId).map CandidateDuplicate.review

/-- A scan that finds a merged candidate again finds its entities as they were at the last scan. -/
def FindsUnchanged : Prop :=
  match e.input with
  | .scan ids confident =>
      ∀ p ∈ duplicates a confident (ids.filterMap e.pre.entities), ∀ c,
        e.pre.service.candidates (a.pairId p) = some c → c.status = .merged →
          (c.primaryDigest, c.secondaryDigest) = a.digests p
  | _ => True

/-! ## What a step does to candidates -/

/-- The same but for the ids of the entities. -/
def SameCore (c c' : CandidateDuplicate κ δ ρ) : Prop :=
  c'.status = c.status ∧ c'.mergeId = c.mergeId ∧ c'.review = c.review ∧
    (c'.primaryDigest, c'.secondaryDigest) = (c.primaryDigest, c.secondaryDigest)

variable {s : DeduplicationService ι κ ε δ ρ} {c : CandidateDuplicate κ δ ρ} {op : DedupOp ι κ ε ρ}

theorem discover_merged {id : ι} (hc : s.candidates id = some c) {p : ε × ε}
    (hp : a.pairId p = id → (c.primaryDigest, c.secondaryDigest) = a.digests p) :
    ∃ c', (s.discover a p).candidates id = some c' ∧ SameCore c c' := by
  by_cases h : a.pairId p = id
  · subst h
    have hdigests : c.primaryDigest = a.computeStateDigest (a.orient p).1 ∧
        c.secondaryDigest = a.computeStateDigest (a.orient p).2 := Prod.ext_iff.mp (hp rfl)
    refine ⟨_, update_self .., ?_⟩
    simp only [hc, if_pos hdigests]
    exact ⟨rfl, rfl, rfl, Prod.ext hdigests.1.symm hdigests.2.symm⟩
  · exact ⟨c, (update_of_ne (Ne.symm h) ..).trans hc, rfl, rfl, rfl, rfl⟩

theorem scan_merged {id : ι} (hc : s.candidates id = some c) {confident : ε → ε → Bool}
    {entities : List ε} (hfound : ∀ p ∈ duplicates a confident entities, a.pairId p = id →
      (c.primaryDigest, c.secondaryDigest) = a.digests p) :
    ∃ c', (s.scan a confident entities).candidates id = some c' ∧ SameCore c c' := by
  unfold scan
  generalize duplicates a confident entities = pairs at hfound ⊢
  -- the digests of the candidate stay the same from pair to pair
  induction pairs generalizing s c with
  | nil => exact ⟨c, hc, rfl, rfl, rfl, rfl⟩
  | cons p pairs ih =>
      obtain ⟨c₁, hc₁, hstatus, hmerge, hreview, hdigests⟩ :=
        discover_merged a hc (hfound p List.mem_cons_self)
      obtain ⟨c₂, hc₂, hstatus', hmerge', hreview', hdigests'⟩ := ih hc₁ fun q hq hid =>
        hdigests.trans (hfound q (List.mem_cons_of_mem _ hq) hid)
      exact ⟨c₂, hc₂, hstatus'.trans hstatus, hmerge'.trans hmerge, hreview'.trans hreview,
        hdigests'.trans hdigests⟩

/-- Every merge in force is the merge of its candidate. -/
def Linked (s : DeduplicationService ι κ ε δ ρ) : Prop :=
  ∀ m j, s.mergeJournals[m]? = some j → j.status = .merged →
    ∃ c, s.candidates j.candidateId = some c ∧ c.status = .merged ∧ c.mergeId = some m

/-- A step that performs an operation: merged candidates stay, except for the one whose merge is
reversed, and the links stay. -/
structure Preserves (op : DedupOp ι κ ε ρ) (s s' : DeduplicationService ι κ ε δ ρ) : Prop where
  merged : ∀ id c, s.candidates id = some c → c.status = .merged →
    ∃ c', s'.candidates id = some c' ∧ c'.review = c.review ∧
      (c'.status = .merged ∧ c'.mergeId = c.mergeId ∨
        ∃ m applies, c.mergeId = some m ∧ op = .reverseMerge m applies)
  linked : Linked s'

section Steps

variable {s : DeduplicationService ι κ ε δ ρ} {op : DedupOp ι κ ε ρ}

variable {c : CandidateDuplicate κ δ ρ}

/-- The candidate `id` was not merged, and no merge begins or ends. -/
theorem Linked.modifyCandidate (h : Linked s) {id : ι} (op : DedupOp ι κ ε ρ)
    (hc : s.candidates id = some c) (hstatus : c.status ≠ .merged)
    (f : CandidateDuplicate κ δ ρ → CandidateDuplicate κ δ ρ) :
    Preserves op s (s.modifyCandidate id f) := by
  have hother : ∀ id' c', s.candidates id' = some c' → c'.status = .merged → id' ≠ id := by
    rintro id' c' hc' hstatus' rfl
    rw [hc] at hc'
    cases hc'
    exact hstatus hstatus'
  refine ⟨fun id' c' hc' hstatus' => ?_, fun m j hj hactive => ?_⟩
  · refine ⟨c', ?_, rfl, .inl ⟨hstatus', rfl⟩⟩
    rw [modifyCandidate_of_ne (hother id' c' hc' hstatus'), hc']
  · obtain ⟨c', hc', hstatus', hmerge⟩ := h m j hj hactive
    exact ⟨c', by rw [modifyCandidate_of_ne (hother _ c' hc' hstatus'), hc'], hstatus', hmerge⟩

theorem Linked.scan (a : DeduplicationAdapter ι κ ε δ ρ) (h : Linked s) {confident : ε → ε → Bool}
    {entities : List ε}
    (hfound : ∀ p ∈ duplicates a confident entities, ∀ c, s.candidates (a.pairId p) = some c →
      c.status = .merged → (c.primaryDigest, c.secondaryDigest) = a.digests p) :
    Preserves op s (s.scan a confident entities) := by
  have hmerged : ∀ id c, s.candidates id = some c → c.status = .merged →
      ∃ c', (s.scan a confident entities).candidates id = some c' ∧ SameCore c c' := fun id c hc hstatus =>
    scan_merged a hc fun p hp hid => hfound p hp c (by rw [hid, hc]) hstatus
  refine ⟨fun id c hc hstatus => ?_, fun m j hj hactive => ?_⟩
  · obtain ⟨c', hc', hstatus', hmerge, hreview, -⟩ := hmerged id c hc hstatus
    exact ⟨c', hc', hreview, .inl ⟨hstatus'.trans hstatus, hmerge⟩⟩
  · rw [scan_journals] at hj
    obtain ⟨c, hc, hstatus, hmerge⟩ := h m j hj hactive
    obtain ⟨c', hc', hstatus', hmerge', -⟩ := hmerged _ c hc hstatus
    exact ⟨c', hc', hstatus'.trans hstatus, hmerge'.trans hmerge⟩

theorem Linked.journalMerge (h : Linked s) {id : ι} (hcheck : s.checkMerge id = .ok c) (p q : ε)
    (now : Int) : Preserves op s (s.journalMerge id c p q now) := by
  obtain ⟨hc, hstatus, -, -⟩ := checkMerge_ok hcheck
  have hunmerged : c.status ≠ .merged := by simp [hstatus]
  refine ⟨(h.modifyCandidate op hc hunmerged _).merged, fun m j hj hactive => ?_⟩
  rw [journalMerge_journals] at hj
  by_cases hm : m < s.mergeJournals.length
  · -- an older merge belongs to another candidate
    rw [List.getElem?_append_left hm] at hj
    exact (h.modifyCandidate op hc hunmerged _).linked m j hj hactive
  · rw [List.getElem?_append_right (by omega), List.getElem?_singleton] at hj
    split at hj
    · next hzero =>
        cases hj
        refine ⟨_, (modifyCandidate_self ..).trans (by rw [hc]; rfl), rfl, ?_⟩
        exact congrArg some (by omega)
    · cases hj

theorem Linked.journalReversal (h : Linked s) {m : Nat} {applies : Bool}
    {journal : MergeJournalEntry ι κ ε} (hcheck : s.checkReversal m = .ok journal) :
    Preserves (.reverseMerge m applies : DedupOp ι κ ε ρ) s (s.journalReversal m journal) := by
  obtain ⟨hj, hactive, -⟩ := checkReversal_ok hcheck
  obtain ⟨c₀, hc₀, -, hmerge₀⟩ := h m journal hj hactive
  refine ⟨fun id c hc hstatus => ?_, fun m' j' hj' hactive' => ?_⟩
  · by_cases hid : id = journal.candidateId
    · subst hid
      rw [hc₀] at hc
      cases hc
      have hpost : (s.journalReversal m journal).candidates journal.candidateId =
          some { c₀ with status := .reversed } := (modifyCandidate_self ..).trans (by rw [hc₀]; rfl)
      exact ⟨_, hpost, rfl, .inr ⟨m, applies, hmerge₀, rfl⟩⟩
    · exact ⟨c, (modifyCandidate_of_ne hid _).trans hc, rfl, .inl ⟨hstatus, rfl⟩⟩
  · have hne : m' ≠ m := by
      rintro rfl
      change (s.mergeJournals.modify m' _)[m']? = some j' at hj'
      rw [List.getElem?_modify_eq, hj] at hj'
      cases hj'
      cases hactive'
    change (s.mergeJournals.modify m _)[m']? = some j' at hj'
    rw [List.getElem?_modify_ne _ _ hne.symm] at hj'
    obtain ⟨c', hc', hstatus', hmerge'⟩ := h m' j' hj' hactive'
    have hid : j'.candidateId ≠ journal.candidateId := by
      intro hid
      -- one candidate has one merge
      rw [hid, hc₀] at hc'
      cases hc'
      rw [hmerge₀] at hmerge'
      exact hne (Option.some.inj hmerge').symm
    exact ⟨c', (modifyCandidate_of_ne hid _).trans hc', hstatus', hmerge'⟩

end Steps

theorem perform_preserves {w w' : DedupStore ι κ ε δ ρ} (h : Linked w.service)
    (hop : w.perform a op = .ok w') (hfound : FindsUnchanged a ((dedupOpMachine a).event w op)) :
    Preserves op w.service w'.service := by
  cases op with
  | scan ids confident =>
      cases hop
      exact h.scan a hfound
  | reviewCandidate id review =>
      obtain ⟨c, hc, hstatus, rfl⟩ := perform_reviewCandidate_ok hop
      exact h.modifyCandidate _ hc hstatus _
  | executeMerge id now applies =>
      obtain ⟨c, p, q, stored, hcheck, -, -, rfl⟩ := executeMerge_ok hop
      exact h.journalMerge hcheck p q now
  | reverseMerge m applies =>
      obtain ⟨journal, hcheck, rfl⟩ := reverseMerge_ok hop
      exact h.journalReversal hcheck
  | edit k e =>
      cases hop
      exact ⟨fun id c hc hstatus => ⟨c, hc, rfl, .inl ⟨hstatus, rfl⟩⟩, h⟩

theorem step_linked {w : DedupStore ι κ ε δ ρ} (h : Linked w.service)
    (hfound : FindsUnchanged a ((dedupOpMachine a).event w op)) :
    Linked ((dedupOpMachine a).step w op).1.service ∧
      StaysMerged ((dedupOpMachine a).event w op) ∧ ReviewFixed ((dedupOpMachine a).event w op) := by
  rcases dedupOp_step_cases a w op with ⟨w', hop, hstep⟩ | ⟨e, hstep⟩
  · obtain ⟨hmerged, hlinked⟩ := perform_preserves a h hop hfound
    simp only [StaysMerged, ReviewFixed, Machine.event, hstep]
    refine ⟨hlinked, fun id c hc hstatus => ?_, fun j hj => ?_⟩
    · obtain ⟨c', hc', -, hstays | ⟨m, applies, hmerge, rfl⟩⟩ := hmerged id c hc hstatus
      · exact .inl ⟨c', hc', hstays⟩
      · exact .inr ⟨m, applies, hmerge, rfl, trivial⟩
    · obtain ⟨hmem, hactive⟩ := List.mem_filter.mp hj
      obtain ⟨m, hm⟩ := List.getElem?_of_mem hmem
      obtain ⟨c, hc, hstatus, -⟩ := h m j hm (by simpa using hactive)
      obtain ⟨c', hc', hreview, -⟩ := hmerged _ c hc hstatus
      rw [hc, hc', Option.map_some, Option.map_some, hreview]
  · simp only [StaysMerged, ReviewFixed, Machine.event, hstep]
    exact ⟨h, fun id c hc hstatus => .inl ⟨c, hc, hstatus, rfl⟩, fun j hj => trivial⟩

/-- **A merged candidate stays merged until its merge is reversed**, and its review stays as it is, in
every run in which no scan finds the entities of a merged candidate changed. -/
theorem merged_until_reversed (a : DeduplicationAdapter ι κ ε δ ρ) (entities : κ → Option ε)
    (ops : List (DedupOp ι κ ε ρ))
    (hfound : ∀ e ∈ (dedupOpMachine a).history (.initial entities) ops, FindsUnchanged a e) :
    ∀ e ∈ (dedupOpMachine a).history (.initial entities) ops, StaysMerged e ∧ ReviewFixed e := by
  refine ((dedupOpMachine a).guarded_induct (G := fun _ e => FindsUnchanged a e)
    (P := fun es w => Linked w.service ∧ ∀ e ∈ es, StaysMerged e ∧ ReviewFixed e) ?_ ?_ ops
    (Machine.guarded_of_forall hfound)).2
  · refine ⟨fun m j hj => ?_, fun e he => ?_⟩
    · cases hj
    · cases he
  · rintro l op ⟨hlinked, hall⟩ hGi
    obtain ⟨hlinked', hstays⟩ := step_linked a hlinked hGi
    exact ⟨hlinked', List.forall_mem_append.mpr ⟨hall, List.forall_mem_singleton.mpr hstays⟩⟩

namespace DedupCandidates

open DedupSample

def entities (k : Nat) : Option (Nat × Nat) := if k ≤ 3 then some (k, k) else none

def approve (x y : Nat) : List (DedupOp (Nat × Nat) Nat (Nat × Nat) Unit) :=
  [.scan [x, y] fun _ _ => true, .reviewCandidate (x, y) ⟨.approved, ()⟩]

/-- The secondary comes into use again after the merge, and a scan finds both. -/
def rescanned : List (DedupOp (Nat × Nat) Nat (Nat × Nat) Unit) :=
  approve 1 2 ++ [.executeMerge (1, 2) 0 true, .edit 2 (some (2, 5)), .scan [1, 2] fun _ _ => true,
    .reviewCandidate (1, 2) ⟨.rejected, ()⟩]

/-- The primary is edited back, and a scan finds both as they were. -/
def editedBack : List (DedupOp (Nat × Nat) Nat (Nat × Nat) Unit) :=
  approve 1 2 ++ [.executeMerge (1, 2) 0 true, .edit 1 (some (1, 1)), .scan [1, 2] fun _ _ => true,
    .reverseMerge 0 true]

/-- After each step: the status and the decision on the pair of 1 and 2, and the merges in force. -/
def course (ops : List (DedupOp (Nat × Nat) Nat (Nat × Nat) Unit)) :=
  ((dedupOpMachine sums).history (.initial entities) ops).map fun e =>
    ((e.post.service.candidates (1, 2)).map fun c =>
      (c.status, c.review.map CandidateReview.decision), e.post.service.active.length)

end DedupCandidates

open DedupCandidates DedupSample in
theorem merged_candidate_reviewed :
    course rescanned =
      [(some (.pendingReview, none), 0), (some (.approved, some .approved), 0),
       (some (.merged, some .approved), 1), (some (.merged, some .approved), 1),
       (some (.pendingReview, some .approved), 1), (some (.rejected, some .rejected), 1)] ∧
      ∃ e ∈ (dedupOpMachine sums).history (.initial entities) rescanned, ¬ StaysMerged e := by
  refine ⟨by decide, _, List.mem_of_getElem? (i := 4) rfl, fun h => ?_⟩
  obtain ⟨c, hc, hstatus, -⟩ | ⟨m, applies, -, hinput, -⟩ := h (1, 2) _ rfl rfl
  · cases hc
    cases hstatus
  · cases hinput

open DedupCandidates DedupSample in
theorem merged_until_reversed_sample :
    course editedBack =
      [(some (.pendingReview, none), 0), (some (.approved, some .approved), 0),
       (some (.merged, some .approved), 1), (some (.merged, some .approved), 1),
       (some (.merged, some .approved), 1), (some (.reversed, some .approved), 0)] ∧
      ∀ e ∈ (dedupOpMachine sums).history (.initial entities) editedBack,
        StaysMerged e ∧ ReviewFixed e := by
  refine ⟨by decide, merged_until_reversed sums entities editedBack fun e he => ?_⟩
  simp only [editedBack, approve, List.cons_append, List.nil_append, Machine.history, List.mem_cons,
    List.not_mem_nil, or_false] at he
  rcases he with rfl | rfl | rfl | rfl | rfl | rfl
  · intro p hp c hc
    cases hc
  · trivial
  · trivial
  · trivial
  · intro p hp c hc
    obtain rfl : p = ((1, 1), (2, 2)) := List.mem_singleton.mp hp
    cases hc
    exact fun _ => rfl
  · trivial

end VerdantBond
