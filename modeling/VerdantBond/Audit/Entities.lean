import VerdantBond.Audit.Tampering

set_option autoImplicit false

/-! # Whose history it is

All chains are kept in one map under the key `entityType:entityId`. Nothing keeps a colon out of either
part, so two entities can have one key; they then share one history. Entities whose keys differ do not
see each other (`entity_histories_apart_iff`).
-/

namespace VerdantBond

variable {α η : Type}

namespace AuditWorld

/-- `getChainHead`; `null` where there is no entry. -/
def getChainHead (w : AuditWorld α η) (entityType entityId : JsString) : Option η :=
  (w.getEntityHistory entityType entityId).getLast?.map AuditEntry.hash

variable (digest : AuditContent α η → η)

/-- The entries of a key are what was recorded under it. -/
theorem mem_chains_iff (writes : List (AuditWrite α)) (key : JsString) (e : AuditEntry α η) :
    e ∈ ((auditMachine digest).run .initial writes).chains key ↔
      ∃ ev ∈ (auditMachine digest).history .initial writes, ev.output = some e ∧
        entityKey ev.input.entityType ev.input.entityId = key := by
  refine (auditMachine digest).history_induct
    (P := fun events w => e ∈ w.chains key ↔ ∃ ev ∈ events, ev.output = some e ∧
      entityKey ev.input.entityType ev.input.entityId = key) ?_ (fun l write ih => ?_) writes
  · exact iff_of_false (List.not_mem_nil) (by simp)
  · simp only [List.mem_append, List.mem_singleton, or_and_right, exists_or, exists_eq_left,
      Machine.event, ← ih]
    rcases auditMachine_step digest _ write with ⟨-, hstep⟩ | ⟨entry, w', hrecord, hstep⟩
    · rw [hstep]
      simp
    · obtain ⟨-, hchains⟩ := record_some hrecord
      simp only [hstep, hchains, Option.some.injEq]
      by_cases hkey : entityKey write.entityType write.entityId = key
      · subst hkey
        simp [eq_comm]
      · rw [Function.update_of_ne (Ne.symm hkey)]
        simp [hkey]

/-- An entry carries the entity of its write. -/
theorem output_entity {writes : List (AuditWrite α)}
    {ev : Event (AuditWorld α η) (AuditWrite α) (Option (AuditEntry α η))} {e : AuditEntry α η}
    (hev : ev ∈ (auditMachine digest).history .initial writes) (he : ev.output = some e) :
    e.entityType = ev.input.entityType ∧ e.entityId = ev.input.entityId := by
  obtain ⟨l₁, write, l₂, -, rfl⟩ := (auditMachine digest).exists_of_mem_history hev
  simp only [Machine.event] at he ⊢
  rcases auditMachine_step digest _ write with ⟨-, hstep⟩ | ⟨entry, w', hrecord, hstep⟩
  · rw [hstep] at he
    cases he
  · rw [hstep] at he
    cases he
    rw [(record_some hrecord).1]
    exact ⟨rfl, rfl⟩

end AuditWorld

open AuditWorld

/-- **Which histories are apart.** In every run, a `record` call leaves the history, the head and the
verification of an entity alone exactly if it is rejected or has another key; and the history of an
entity holds only entries of it exactly if no other entity with the same key was written to. -/
theorem entity_histories_apart_iff [DecidableEq η] (digest : AuditContent α η → η)
    (writes : List (AuditWrite α)) (entityType entityId : JsString) :
    let w := (auditMachine digest).run .initial writes
    (∀ write, let w' := ((auditMachine digest).step w write).1
      (w'.getEntityHistory entityType entityId = w.getEntityHistory entityType entityId ∧
          w'.getChainHead entityType entityId = w.getChainHead entityType entityId ∧
          w'.verifyEntity digest entityType entityId = w.verifyEntity digest entityType entityId) ↔
        w.record digest write = none ∨
          entityKey write.entityType write.entityId ≠ entityKey entityType entityId) ∧
    ((∀ e ∈ w.getEntityHistory entityType entityId,
        e.entityType = entityType ∧ e.entityId = entityId) ↔
      ∀ ev ∈ (auditMachine digest).history .initial writes, ev.output ≠ none →
        entityKey ev.input.entityType ev.input.entityId = entityKey entityType entityId →
          ev.input.entityType = entityType ∧ ev.input.entityId = entityId) := by
  intro w
  refine ⟨fun write => ?_, ?_⟩
  · rcases auditMachine_step digest w write with ⟨hrejected, hstep⟩ | ⟨entry, w', hrecord, hstep⟩
    · rw [hstep]
      exact iff_of_true ⟨rfl, rfl, rfl⟩ (.inl hrejected)
    · obtain ⟨-, hchains⟩ := record_some hrecord
      simp only [hstep, hrecord, getChainHead, verifyEntity, getEntityHistory, hchains, reduceCtorEq,
        false_or]
      by_cases hkey : entityKey entityType entityId = entityKey write.entityType write.entityId
      · -- one more entry is another history
        rw [hkey, Function.update_self]
        exact iff_of_false (fun h => by simpa using h.1) (fun h => h rfl)
      · rw [Function.update_of_ne hkey]
        exact iff_of_true ⟨rfl, rfl, rfl⟩ (Ne.symm hkey)
  · -- the history of a key is what was accepted under it
    constructor
    · intro h ev hev haccepted hkey
      obtain ⟨e, he⟩ := Option.ne_none_iff_exists'.mp haccepted
      have hentity := output_entity digest hev he
      have := h e ((mem_chains_iff digest writes _ e).mpr ⟨ev, hev, he, hkey⟩)
      rwa [hentity.1, hentity.2] at this
    · intro h e he
      obtain ⟨ev, hev, houtput, hkey⟩ := (mem_chains_iff digest writes _ e).mp he
      have hentity := output_entity digest hev houtput
      rw [hentity.1, hentity.2]
      exact h ev hev (by simp [houtput]) hkey

/-- A write for the entity `b:c` of type `a` shows up in the history of the entity `c` of type `a:b`. -/
theorem entity_histories_collide :
    let write : AuditWrite Unit := ⟨js "a", js "b:c", js "update", js "admin", ()⟩
    let w := (auditMachine (fun _ => ())).run .initial [write]
    (AuditWorld.initial (α := Unit) (η := Unit)).getEntityHistory (js "a:b") (js "c") = [] ∧
      (w.getEntityHistory (js "a:b") (js "c")).map (fun e => (e.entityType, e.entityId))
        = [(js "a", js "b:c")] ∧
      w.getChainHead (js "a:b") (js "c") = some () := by
  refine ⟨rfl, ?_, ?_⟩
  · rfl
  · rfl

/-! ## What is kept -/

namespace AuditWorld

/-- The history of a key goes on from `es`, within the bounds. -/
structure Continues (key : JsString) (es : List (AuditEntry α η)) (w : AuditWorld α η) : Prop where
  history : es <+: w.chains key
  entity : (w.chains key).length ≤ maxEntriesPerEntity
  total : w.totalEntries ≤ maxTotalEntries

variable {digest} {key : JsString} {es : List (AuditEntry α η)} {w : AuditWorld α η}

theorem Continues.step (h : w.Continues key es) (write : AuditWrite α) :
    Continues key es ((auditMachine digest).step w write).1 := by
  rcases auditMachine_step digest w write with ⟨-, hstep⟩ | ⟨entry, w', hrecord, hstep⟩
  · rw [hstep]
    exact h
  · rw [hstep]
    simp only [record] at hrecord
    split_ifs at hrecord with hempty hfull
    obtain ⟨-, rfl⟩ := Prod.mk.inj (Option.some.inj hrecord)
    have htotal : w.totalEntries + 1 ≤ maxTotalEntries := Nat.lt_of_not_le fun hle => hfull (.inr hle)
    by_cases hkey : key = entityKey write.entityType write.entityId
    · refine ⟨h.history.trans (by simp [hkey]), ?_, htotal⟩
      simp only [hkey, Function.update_self, List.length_append, List.length_singleton]
      exact Nat.lt_of_not_le fun hle => hfull (.inl hle)
    · refine ⟨?_, ?_, htotal⟩ <;> simp only [Function.update_of_ne hkey]
      exacts [h.history, h.entity]

/-- Entries that verify are numbered on from the entry before them. -/
theorem sequences_of_verified [DecidableEq η] {before : Option (AuditEntry α η)}
    (h : failuresFrom digest before es = []) :
    es.map (·.sequence) = List.range' (sequenceBefore before + 1) es.length := by
  induction es generalizing before with
  | nil => rfl
  | cons e es ih =>
      obtain ⟨he, hrest⟩ := failuresFrom_cons_nil_iff.mp h
      have hsequence := (entryFailures_nil_iff.mp he).1
      rw [List.map_cons, ih hrest, List.length_cons, List.range'_succ, ← hsequence]
      rfl

end AuditWorld

/-- **Audit histories are append-only.** After every run of `record` calls the history of an entity
verifies, is numbered from one on without a gap and is within the bounds, and no later call changes or
drops an entry of it. -/
theorem audit_histories_append_only [DecidableEq η] (digest : AuditContent α η → η)
    (writes writes' : List (AuditWrite α)) (entityType entityId : JsString) :
    let w := (auditMachine digest).run .initial writes
    let entries := w.getEntityHistory entityType entityId
    w.verifyEntity digest entityType entityId = [] ∧
      entries.map (·.sequence) = List.range' 1 entries.length ∧
      entries.length ≤ maxEntriesPerEntity ∧ w.totalEntries ≤ maxTotalEntries ∧
      entries <+: ((auditMachine digest).run .initial (writes ++ writes')).getEntityHistory entityType
        entityId := by
  intro w entries
  have hverified : failuresFrom digest none entries = [] := sound_run digest writes _
  have hbounds : Continues (entityKey entityType entityId) [] w := (auditMachine digest).run_invariant
    ⟨List.nil_prefix, Nat.zero_le _, Nat.zero_le _⟩ (fun _ write h => h.step write) writes
  have hlater : Continues (entityKey entityType entityId) entries
      ((auditMachine digest).run .initial (writes ++ writes')) :=
    Machine.run_after _ ⟨List.prefix_refl _, hbounds.entity, hbounds.total⟩ fun _ write h => h.step write
  exact ⟨hverified, sequences_of_verified hverified, hbounds.entity, hbounds.total, hlater.history⟩

end VerdantBond
