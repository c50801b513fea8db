import VerdantBond.Search.Index

set_option autoImplicit false

/-! # Repair of the search index

`repairStaleEntries` compares every entry of a type with its record and applies three rules: it
removes the entry of a deleted record, restricts the public entry of an inactive record, and
corrects the owner. The rules run one after the other on one copy of the entry. The last one writes
the copy back although the first one has just removed the entry (`deleted_record_reindexed`); the
first one leaves entries alone that are marked as deleted; and a record without an owner never
corrects its entry. These are the only failures, and in every case a second run has nothing left to
do (`repair_converges_iff`).
-/

namespace VerdantBond

open Function

structure RecordState where
  isActive : Bool
  isDeleted : Bool
  ownerAddress : Option JsString
deriving DecidableEq

structure RepairResult where
  repaired : Nat
  removed : Nat
  /-- The records whose state could not be read. -/
  errors : List JsString

variable {φ : Type}

/-- `recordState.ownerAddress && entry.ownerAddress !== recordState.ownerAddress` -/
def ownerDiffers (entry : IndexEntry φ) (state : RecordState) : Bool :=
  state.ownerAddress ≠ none && state.ownerAddress ≠ some [] && entry.ownerAddress ≠ state.ownerAddress

namespace SearchIndex

variable (entry : IndexEntry φ) (state : RecordState)
    (getRecordState : JsString → Option RecordState)

/-- The first rule applies: the record is deleted, the entry not marked so. -/
def Removes : Prop :=
  state.isDeleted = true ∧ entry.visibility ≠ .deleted

/-- The second rule applies: the record is inactive, the entry public. -/
def Restricts : Prop :=
  state.isActive = false ∧ state.isDeleted = false ∧ entry.visibility = .public

instance decidableRemoves (e : IndexEntry φ) (state : RecordState) : Decidable (Removes e state) :=
  inferInstanceAs (Decidable (_ ∧ _))

instance decidableRestricts (e : IndexEntry φ) (state : RecordState) : Decidable (Restricts e state) :=
  inferInstanceAs (Decidable (_ ∧ _ ∧ _))

/-- The three rules for one entry: the index, and how many entries were repaired and removed. -/
def repairEntry (s : SearchIndex φ) (entityType : EntityType) (entry : IndexEntry φ)
    (state : RecordState) : SearchIndex φ × Nat × Nat :=
  let (s, entry, removed) :=
    if Removes entry state then
      (s.remove entityType entry.recordId, { entry with visibility := .deleted }, 1)
    else (s, entry, 0)
  let (s, entry, repaired) :=
    if Restricts entry state then
      let entry := { entry with visibility := .restricted }
      (s.upsert entry, entry, 1)
    else (s, entry, 0)
  if ownerDiffers entry state then
    (s.upsert { entry with ownerAddress := state.ownerAddress }, repaired + 1, removed)
  else (s, repaired, removed)

/-- The loop over the members of the type. A state that cannot be read is `none`. -/
def repairLoop (getRecordState : JsString → Option RecordState) (entityType : EntityType) :
    List JsString → SearchIndex φ × RepairResult → SearchIndex φ × RepairResult
  | [], acc => acc
  | recordId :: members, (s, result) =>
      repairLoop getRecordState entityType members <|
        match s.entries (entityType, recordId) with
        | none => (s, result)
        | some entry =>
            match getRecordState entry.recordId with
            | none => (s, { result with errors := result.errors ++ [recordId] })
            | some state =>
                let (s', repaired, removed) := s.repairEntry entityType entry state
                (s', { result with
                  repaired := result.repaired + repaired, removed := result.removed + removed })

def repairStaleEntries (s : SearchIndex φ) (getRecordState : JsString → Option RecordState)
    (entityType : EntityType) : SearchIndex φ × RepairResult :=
  repairLoop getRecordState entityType (s.members entityType) (s, ⟨0, 0, []⟩)

/-! ## One entry -/

/-- What the rules leave of an entry. -/
def repairedEntry : Option (IndexEntry φ) :=
  let level := if Removes entry state then .deleted
    else if Restricts entry state then .restricted else entry.visibility
  if ownerDiffers entry state then
    some { entry with visibility := level, ownerAddress := state.ownerAddress }
  else if Removes entry state then none
  else some { entry with visibility := level }

variable {e : IndexEntry φ} {state : RecordState} {s : SearchIndex φ} {t : EntityType}

/-- **After the rules no rule applies.** -/
theorem repairedEntry_settled {e' : IndexEntry φ} (h : repairedEntry e state = some e') :
    ¬ Removes e' state ∧ ¬ Restricts e' state ∧ ownerDiffers e' state = false := by
  have hlevel : e'.visibility = (if Removes e state then .deleted
      else if Restricts e state then .restricted else e.visibility) ∧
      ownerDiffers e' state = false := by
    unfold repairedEntry at h
    cases howner : ownerDiffers e state with
    | true =>
        -- the third rule writes the entry back, whatever the first one did
        simp only [howner, if_true, Option.some.injEq] at h
        subst h
        exact ⟨rfl, by simp [ownerDiffers]⟩
    | false =>
        simp only [howner, Bool.false_eq_true, if_false] at h
        split at h
        next => cases h
        next hremoves =>
          cases h
          exact ⟨(if_neg hremoves).symm, howner⟩
  refine ⟨?_, ?_, hlevel.2⟩
  · rintro ⟨hdeleted, hne⟩
    rw [hlevel.1] at hne
    by_cases hremoves : Removes e state
    · exact hne (if_pos hremoves)
    · rw [if_neg hremoves, if_neg fun h => by cases hdeleted.symm.trans h.2.1] at hne
      exact hremoves ⟨hdeleted, hne⟩
  · rintro ⟨hactive, hdeleted, hpublic⟩
    rw [hlevel.1, if_neg fun h => by cases hdeleted.symm.trans h.1] at hpublic
    split at hpublic
    next => cases hpublic
    next hnot => exact hnot ⟨hactive, hdeleted, hpublic⟩

/-- Where no rule applies, nothing happens. -/
theorem repairEntry_settled (s : SearchIndex φ) (t : EntityType)
    (h : ¬ Removes e state ∧ ¬ Restricts e state ∧ ownerDiffers e state = false) :
    s.repairEntry t e state = (s, 0, 0) := by
  obtain ⟨hremoves, hrestricts, howner⟩ := h
  simp [repairEntry, hremoves, hrestricts, howner]

theorem members_upsert (h : e.recordId ∈ s.members e.entityType) :
    (s.upsert e).members = s.members := by
  show update s.members e.entityType (addMember (s.members e.entityType) e.recordId) = _
  rw [addMember, if_pos h, update_eq_self]

/-- **What repairing one entry does**: the rules to this entry, and nothing to the others. -/
theorem repairEntry_spec {r : JsString} (h : s.entries (t, r) = some e) (state : RecordState) :
    (s.repairEntry t e state).1.entries = update s.entries (t, r) (repairedEntry e state) ∧
      (s.repairEntry t e state).1.members = s.members := by
  obtain ⟨hkey, hmem⟩ := s.keyed _ e h
  cases hkey
  -- the entry keeps its key through all rules, and stays a member
  have hupsert : ∀ s' : SearchIndex φ, s'.members = s.members → ∀ level owner,
      (s'.upsert { e with visibility := level, ownerAddress := owner }).members = s.members := by
    intro s' hmembers level owner
    exact (members_upsert (by rw [hmembers]; exact hmem)).trans hmembers
  have hsame : ∀ level, ownerDiffers { e with visibility := level } state = ownerDiffers e state :=
    fun _ => rfl
  unfold repairEntry repairedEntry
  by_cases hremoves : Removes e state
  · have hrestricts : ¬ Restricts { e with visibility := .deleted } state := fun h => by cases h.2.2
    simp only [if_pos hremoves, if_neg hrestricts, hsame]
    cases ownerDiffers e state with
    | true => exact ⟨update_idem .., hupsert (s.remove e.entityType e.recordId) rfl _ _⟩
    | false => exact ⟨rfl, rfl⟩
  · by_cases hrestricts : Restricts e state
    · simp only [if_neg hremoves, if_pos hrestricts, hsame]
      cases ownerDiffers e state with
      | true => exact ⟨update_idem .., hupsert (s.upsert _) (hupsert s rfl _ _) _ _⟩
      | false => exact ⟨rfl, hupsert s rfl _ _⟩
    · simp only [if_neg hremoves, if_neg hrestricts]
      cases ownerDiffers e state with
      | true => exact ⟨rfl, hupsert s rfl _ _⟩
      | false => exact ⟨(update_eq_self_iff.mpr h.symm).symm, rfl⟩

/-! ## All entries of a type -/

/-- What the repair leaves in a slot of the index. -/
def repairedSlot (recordId : JsString) (slot : Option (IndexEntry φ)) : Option (IndexEntry φ) :=
  slot.bind fun entry =>
    match getRecordState recordId with
    | none => some entry
    | some state => repairedEntry entry state

/-- What the loop does to the first record: the rules to its entry, and an error if its state cannot be
read. -/
theorem repairLoop_cons (t : EntityType) (r : JsString) (rs : List JsString) (s : SearchIndex φ)
    (result : RepairResult) : ∃ s' result', repairLoop getRecordState t (r :: rs) (s, result)
        = repairLoop getRecordState t rs (s', result') ∧
      s'.entries (t, r) = repairedSlot getRecordState r (s.entries (t, r)) ∧
      (∀ key, key ≠ (t, r) → s'.entries key = s.entries key) ∧ s'.members = s.members ∧
      (result'.errors = [] → result.errors = [] ∧
        ∀ e, s.entries (t, r) = some e → getRecordState r ≠ none) := by
  rw [repairLoop]
  cases hentry : s.entries (t, r) with
  | none => exact ⟨s, result, rfl, hentry, fun _ _ => rfl, rfl, fun h => ⟨h, by simp⟩⟩
  | some e =>
      obtain ⟨hkey, -⟩ := s.keyed _ e hentry
      cases hkey
      simp only
      cases hstate : getRecordState e.recordId with
      | none =>
          refine ⟨s, _, rfl, ?_, fun _ _ => rfl, rfl, fun h => by simp at h⟩
          rw [repairedSlot, hstate]
          exact hentry
      | some state =>
          obtain ⟨hentries, hmembers⟩ := repairEntry_spec hentry state
          refine ⟨_, _, rfl, ?_, fun key hne => ?_, hmembers, fun h => ⟨h, by simp⟩⟩
          · rw [hentries, update_self, repairedSlot, hstate]
            rfl
          · rw [hentries, update_of_ne hne]

/-- **What the loop does**: the rules to the entries of the listed records, and an error for each whose
state cannot be read. -/
theorem repairLoop_spec (t : EntityType) {rs : List JsString} (hnodup : rs.Nodup)
    (s : SearchIndex φ) (result : RepairResult) :
    let out := repairLoop getRecordState t rs (s, result)
    (∀ r ∈ rs, out.1.entries (t, r) = repairedSlot getRecordState r (s.entries (t, r))) ∧
      (∀ key, (∀ r ∈ rs, key ≠ (t, r)) → out.1.entries key = s.entries key) ∧
      out.1.members = s.members ∧
      (out.2.errors = [] → result.errors = [] ∧
        ∀ r ∈ rs, ∀ e, s.entries (t, r) = some e → getRecordState r ≠ none) := by
  induction rs generalizing s result with
  | nil => exact ⟨by simp, fun _ _ => rfl, rfl, fun h => ⟨h, by simp⟩⟩
  | cons r rs ih =>
      obtain ⟨hr, hnodup⟩ := List.nodup_cons.mp hnodup
      obtain ⟨s', result', hloop, hslot, hothers, hmembers, herrors⟩ :=
        repairLoop_cons getRecordState t r rs s result
      obtain ⟨ihslot, ihothers, ihmembers, iherrors⟩ := ih hnodup s' result'
      have hne : ∀ r' ∈ rs, (t, r') ≠ (t, r) := fun r' hr' heq => hr ((Prod.mk.inj heq).2 ▸ hr')
      rw [hloop]
      refine ⟨fun r' hr' => ?_, fun key hkey => ?_, ihmembers.trans hmembers, fun h => ?_⟩
      · rcases List.mem_cons.mp hr' with rfl | hr'
        · rw [ihothers _ fun r'' hr'' heq => hne r'' hr'' heq.symm, hslot]
        · rw [ihslot r' hr', hothers _ (hne r' hr')]
      · rw [ihothers key fun r' hr' => hkey r' (List.mem_cons_of_mem _ hr'),
          hothers key (hkey r List.mem_cons_self)]
      · obtain ⟨hresult', hrs⟩ := iherrors h
        obtain ⟨hresult, hhead⟩ := herrors hresult'
        refine ⟨hresult, fun r' hr' e he => ?_⟩
        rcases List.mem_cons.mp hr' with rfl | hr'
        · exact hhead e he
        · exact hrs r' hr' e (by rw [hothers _ (hne r' hr')]; exact he)

/-- A loop over entries to which no rule applies does nothing. -/
theorem repairLoop_settled {getRecordState : JsString → Option RecordState}
    (h : ∀ r e state, s.entries (t, r) = some e → getRecordState r = some state →
      ¬ Removes e state ∧ ¬ Restricts e state ∧ ownerDiffers e state = false) (rs : List JsString)
    (result : RepairResult) :
    (repairLoop getRecordState t rs (s, result)).2.repaired = result.repaired ∧
      (repairLoop getRecordState t rs (s, result)).2.removed = result.removed := by
  induction rs generalizing result with
  | nil => exact ⟨rfl, rfl⟩
  | cons r rs ih =>
      rw [repairLoop]
      cases hentry : s.entries (t, r) with
      | none => exact ih result
      | some e =>
          obtain ⟨hkey, -⟩ := s.keyed _ e hentry
          cases hkey
          simp only
          cases hstate : getRecordState e.recordId with
          | none => exact ih _
          | some state =>
              simp only [repairEntry_settled s _ (h _ e state hentry hstate)]
              exact ih _

theorem repairStaleEntries_entries (s : SearchIndex φ) (getRecordState : JsString → Option RecordState)
    (t : EntityType) (r : JsString) :
    (s.repairStaleEntries getRecordState t).1.entries (t, r)
      = repairedSlot getRecordState r (s.entries (t, r)) := by
  obtain ⟨hslots, hothers, -, -⟩ := repairLoop_spec getRecordState t (s.nodup t) s ⟨0, 0, []⟩
  by_cases hr : r ∈ s.members t
  · exact hslots r hr
  · have hnone : s.entries (t, r) = none :=
      Option.eq_none_iff_forall_ne_some.mpr fun e he => hr (s.keyed _ e he).2
    rw [hnone]
    refine (hothers _ fun r' hr' heq => hr ?_).trans hnone
    rw [(Prod.mk.inj heq).2]
    exact hr'

/-- The rules put an entry right: the record is not deleted and has an owner or the entry has the same
none; or it is deleted, and the entry not marked so and with an owner that is not corrected. -/
def RepairsFully (state : RecordState) : Prop :=
  if state.isDeleted then entry.visibility ≠ .deleted ∧ ownerDiffers entry state = false
  else (state.ownerAddress ≠ none ∧ state.ownerAddress ≠ some []) ∨
    entry.ownerAddress = state.ownerAddress

/-- An entry agrees with its record. -/
def Agrees (state : RecordState) : Prop :=
  state.isDeleted = false ∧ (state.isActive = false → entry.visibility ≠ .public) ∧
    entry.ownerAddress = state.ownerAddress

/-- **What is left of an entry agrees with the record exactly if the rules put it right.** -/
theorem repairedEntry_agrees_iff (e : IndexEntry φ) (state : RecordState) :
    (∀ e', repairedEntry e state = some e' → Agrees e' state) ↔ RepairsFully e state := by
  unfold RepairsFully
  cases hdeleted : state.isDeleted with
  | true =>
      -- nothing may be left
      have hnone : (∀ e', repairedEntry e state = some e' → Agrees e' state) ↔
          repairedEntry e state = none := by
        rw [Option.eq_none_iff_forall_ne_some]
        exact forall_congr' fun e' => imp_congr_right fun _ =>
          iff_of_false (fun h => by cases hdeleted.symm.trans h.1) id
      have hremoves : Removes e state ↔ e.visibility ≠ .deleted := and_iff_right hdeleted
      rw [hnone, if_pos rfl, repairedEntry, ← hremoves]
      cases ownerDiffers e state with
      | true => simp
      | false => by_cases h : Removes e state <;> simp [h]
  | false =>
      have hremoves : ¬ Removes e state := fun h => by cases hdeleted.symm.trans h.1
      simp only [repairedEntry, if_neg hremoves, Bool.false_eq_true, if_false]
      have hlevel : state.isActive = false →
          (if Restricts e state then .restricted else e.visibility) ≠ VisibilityLevel.public := by
        intro hactive
        split
        next => decide
        next h => exact fun hpublic => h ⟨hactive, hdeleted, hpublic⟩
      cases howner : ownerDiffers e state with
      | true =>
          refine iff_of_true (fun e' he' => ?_) (.inl ?_)
          · cases he'
            exact ⟨hdeleted, hlevel, rfl⟩
          · simp only [ownerDiffers, Bool.and_eq_true, decide_eq_true_eq] at howner
            exact howner.1
      | false =>
          have hsame : (state.ownerAddress ≠ none ∧ state.ownerAddress ≠ some []) →
              e.ownerAddress = state.ownerAddress := by
            intro htruthy
            by_contra hne
            simp [ownerDiffers, htruthy.1, htruthy.2, hne] at howner
          constructor
          · exact fun h => .inr (h _ rfl).2.2
          · intro h e' he'
            cases he'
            exact ⟨hdeleted, hlevel, h.elim hsame id⟩

end SearchIndex

open SearchIndex

/-- **When repair converges.** After a repair without errors a second one repairs and removes
nothing. All entries that are left agree with their records exactly if the rules put every entry
right. -/
theorem repair_converges_iff (s : SearchIndex φ) (getRecordState : JsString → Option RecordState)
    (t : EntityType) (herrors : (s.repairStaleEntries getRecordState t).2.errors = []) :
    let s' := (s.repairStaleEntries getRecordState t).1
    ((∀ r e, s'.entries (t, r) = some e → ∃ state, getRecordState r = some state ∧ Agrees e state) ↔
        ∀ r e state, s.entries (t, r) = some e → getRecordState r = some state → RepairsFully e state) ∧
      (s'.repairStaleEntries getRecordState t).2.repaired = 0 ∧
      (s'.repairStaleEntries getRecordState t).2.removed = 0 := by
  intro s'
  obtain ⟨-, -, -, hread⟩ := repairLoop_spec getRecordState t (s.nodup t) s ⟨0, 0, []⟩
  have hread : ∀ r e, s.entries (t, r) = some e → ∃ state, getRecordState r = some state :=
    fun r e he => Option.ne_none_iff_exists'.mp ((hread herrors).2 r (s.keyed _ e he).2 e he)
  -- what is left comes from an entry there was
  have hleft : ∀ r e', s'.entries (t, r) = some e' ↔ ∃ e state, s.entries (t, r) = some e ∧
      getRecordState r = some state ∧ repairedEntry e state = some e' := by
    intro r e'
    rw [s.repairStaleEntries_entries getRecordState t r, repairedSlot, Option.bind_eq_some_iff]
    constructor
    · rintro ⟨e, he, hrepaired⟩
      obtain ⟨state, hstate⟩ := hread r e he
      rw [hstate] at hrepaired
      exact ⟨e, state, he, hstate, hrepaired⟩
    · rintro ⟨e, state, he, hstate, hrepaired⟩
      exact ⟨e, he, by rw [hstate]; exact hrepaired⟩
  refine ⟨⟨fun h r e state he hstate => ?_, fun h r e' he' => ?_⟩, ?_⟩
  · refine (repairedEntry_agrees_iff e state).mp fun e' hrepaired => ?_
    obtain ⟨state', hstate', hagrees⟩ := h r e' ((hleft r e').mpr ⟨e, state, he, hstate, hrepaired⟩)
    rw [hstate] at hstate'
    cases hstate'
    exact hagrees
  · obtain ⟨e, state, he, hstate, hrepaired⟩ := (hleft r e').mp he'
    exact ⟨state, hstate, (repairedEntry_agrees_iff e state).mpr (h r e state he hstate) e' hrepaired⟩
  · refine repairLoop_settled (fun r e' state he' hstate => ?_) _ _
    obtain ⟨e, state', -, hstate', hrepaired⟩ := (hleft r e').mp he'
    rw [hstate] at hstate'
    cases hstate'
    exact repairedEntry_settled hrepaired

namespace SearchSample

/-- The record of the bond was deleted, and belongs to somebody else. -/
def sold (_ : JsString) : Option RecordState := some ⟨false, true, some (js "buyer")⟩

/-- The record of the bond is inactive and still the issuer's. -/
def inactive (_ : JsString) : Option RecordState := some ⟨false, false, some (js "issuer")⟩

def listed : IndexEntry Unit := { draft with visibility := .public }

end SearchSample

open SearchSample in
/-- The entry of a deleted record is removed and written back with the new owner. -/
theorem deleted_record_reindexed :
    let out := (emptyIndex.upsert listed).repairStaleEntries sold .bond
    out.2.errors = [] ∧ out.2.removed = 1 ∧
      (out.1.entries (.bond, js "7")).map (fun e => (e.visibility, e.ownerAddress))
        = some (.deleted, some (js "buyer")) := by
  refine ⟨by decide, by decide, by decide⟩

open SearchSample in
theorem repair_converges_iff_sample :
    let s := (emptyIndex.upsert listed).repairStaleEntries inactive .bond
    s.2.errors = [] ∧ ∀ r e, s.1.entries (.bond, r) = some e →
      ∃ state, inactive r = some state ∧ Agrees e state := by
  refine ⟨by decide, ?_⟩
  refine (repair_converges_iff (emptyIndex.upsert listed) inactive .bond (by decide)).1.mpr ?_
  intro r e state _ hstate
  cases hstate
  exact .inl ⟨by decide, by decide⟩

end VerdantBond
