import VerdantBond.Lib.Utf16

set_option autoImplicit false

/-! # The search index and moderation

`SearchIndexService`: index entries with a visibility, searched by viewers under the default
permission checker, and moderated through `handleVisibilityChange`. A mutation overwrites the
visibility with a fixed level, so nothing remembers the one that the owner service gave: `unhide`
makes every entry public (`private_entry_published`). No viewer gains by a sequence of mutations
exactly if it ends where the original level already was, for everyone it lets in
(`moderation_widens_iff`).

Entries expire after an hour, which only hides them; this is left out. What a query is compared with is
a value of any type.
-/

namespace VerdantBond

inductive VisibilityLevel where
  | «public» | restricted | «private» | hidden | revoked | deleted
deriving DecidableEq

inductive EntityType where
  | bond | project | offer | creditRetirement | holder
deriving DecidableEq

structure IndexEntry (φ : Type) where
  recordId : JsString
  entityType : EntityType
  visibility : VisibilityLevel
  permissions : List JsString
  searchableFields : φ
  ownerAddress : Option JsString

/-- The stored entries by type and record, and the members of every type. A removed entry stays a
member. -/
structure SearchIndex (φ : Type) where
  entries : EntityType × JsString → Option (IndexEntry φ)
  members : EntityType → List JsString
  keyed : ∀ key e, entries key = some e → (e.entityType, e.recordId) = key ∧ key.2 ∈ members key.1
  nodup : ∀ t, (members t).Nodup

inductive VisibilityMutation where
  | hide | revoke | delete | unhide | restore
deriving DecidableEq

variable {φ : Type}

def defaultPermissionChecker (viewerAddress : JsString) (entry : IndexEntry φ) : Bool :=
  match entry.visibility with
  | .public => true
  | .restricted => viewerAddress ∈ entry.permissions || some viewerAddress = entry.ownerAddress
  | .private => some viewerAddress = entry.ownerAddress
  | .hidden | .revoked | .deleted => false

/-- The level that a mutation sets. -/
def VisibilityMutation.level : VisibilityMutation → VisibilityLevel
  | .hide => .hidden
  | .revoke => .revoked
  | .delete => .deleted
  | .unhide => .public
  | .restore => .restricted

namespace SearchIndex

def addMember (members : List JsString) (recordId : JsString) : List JsString :=
  if recordId ∈ members then members else members ++ [recordId]

variable {recordId r : JsString} {textIncludes : φ → JsString → Bool} {s : SearchIndex φ}
  {t : EntityType} {e : IndexEntry φ}

theorem mem_addMember {members : List JsString} :
    r ∈ addMember members recordId ↔ r ∈ members ∨ r = recordId := by
  unfold addMember
  split
  · next h => exact ⟨.inl, fun h' => h'.elim id fun heq => heq ▸ h⟩
  · simp

def upsert (s : SearchIndex φ) (entry : IndexEntry φ) : SearchIndex φ where
  entries := Function.update s.entries (entry.entityType, entry.recordId) (some entry)
  members := Function.update s.members entry.entityType
    (addMember (s.members entry.entityType) entry.recordId)
  keyed := by
    intro key e he
    by_cases hkey : key = (entry.entityType, entry.recordId)
    · subst hkey
      rw [Function.update_self] at he
      cases he
      exact ⟨rfl, by rw [Function.update_self, mem_addMember]; exact .inr rfl⟩
    · rw [Function.update_of_ne hkey] at he
      obtain ⟨hid, hmem⟩ := s.keyed key e he
      refine ⟨hid, ?_⟩
      by_cases htype : key.1 = entry.entityType
      · rw [htype] at hmem ⊢
        rw [Function.update_self, mem_addMember]
        exact .inl hmem
      · rwa [Function.update_of_ne htype]
  nodup := by
    intro t
    by_cases htype : t = entry.entityType
    · subst htype
      rw [Function.update_self, addMember]
      split
      · exact s.nodup _
      · next hnot =>
          exact (s.nodup _).append (List.nodup_singleton _) (by simpa using hnot)
    · rw [Function.update_of_ne htype]
      exact s.nodup t

def remove (s : SearchIndex φ) (entityType : EntityType) (recordId : JsString) : SearchIndex φ where
  entries := Function.update s.entries (entityType, recordId) none
  members := s.members
  keyed := by
    intro key e he
    by_cases hkey : key = (entityType, recordId)
    · subst hkey
      rw [Function.update_self] at he
      cases he
    · rw [Function.update_of_ne hkey] at he
      exact s.keyed key e he
  nodup := s.nodup

theorem entries_upsert (s : SearchIndex φ) (entry : IndexEntry φ) :
    (s.upsert entry).entries (entry.entityType, entry.recordId) = some entry := Function.update_self ..

/-! ## Searching -/

/-- Is the query in the text of the fields? Every entry meets the empty query. -/
def matchesQuery (textIncludes : φ → JsString → Bool) (query : JsString) (entry : IndexEntry φ) : Bool :=
  query = [] || textIncludes entry.searchableFields query

/-- All entries that a search finds. -/
def found (textIncludes : φ → JsString → Bool) (s : SearchIndex φ) (entityType : EntityType)
    (query viewerAddress : JsString) : List (IndexEntry φ) :=
  (s.members entityType).filterMap fun recordId =>
    (s.entries (entityType, recordId)).filter fun entry =>
      defaultPermissionChecker viewerAddress entry && matchesQuery textIncludes query entry

/-- `search`: one page of what is found. Pages count from one. -/
def search (textIncludes : φ → JsString → Bool) (s : SearchIndex φ) (entityType : EntityType)
    (query viewerAddress : JsString) (page limit : Nat) : List (IndexEntry φ) :=
  match page with
  | 0 => []
  | page + 1 => ((found textIncludes s entityType query viewerAddress).drop (page * limit)).take limit

/-- A viewer finds a record: some search of theirs returns an entry of it. -/
def CanFind (textIncludes : φ → JsString → Bool) (s : SearchIndex φ) (entityType : EntityType)
    (recordId viewerAddress : JsString) : Prop :=
  ∃ query page limit, ∃ e ∈ search textIncludes s entityType query viewerAddress page limit,
    e.recordId = recordId

theorem mem_found {query viewer : JsString} :
    e ∈ found textIncludes s t query viewer ↔ s.entries (t, e.recordId) = some e ∧
      defaultPermissionChecker viewer e = true ∧ matchesQuery textIncludes query e = true := by
  simp only [found, List.mem_filterMap, Option.filter_eq_some_iff, Bool.and_eq_true]
  constructor
  · rintro ⟨r, -, hentry, hcheck⟩
    obtain ⟨hkey, -⟩ := s.keyed _ e hentry
    cases hkey
    exact ⟨hentry, hcheck⟩
  · rintro ⟨hentry, hcheck⟩
    exact ⟨e.recordId, (s.keyed _ e hentry).2, hentry, hcheck⟩

/-- **A viewer finds a record exactly if the checker lets them see its entry.** -/
theorem canFind_iff {viewer : JsString} :
    CanFind textIncludes s t recordId viewer ↔
      ∃ e, s.entries (t, recordId) = some e ∧ defaultPermissionChecker viewer e = true := by
  constructor
  · rintro ⟨query, page, limit, e, he, rfl⟩
    cases page with
    | zero => cases he
    | succ page =>
        obtain ⟨hentry, hcheck, -⟩ := mem_found.mp (List.mem_of_mem_drop (List.mem_of_mem_take he))
        exact ⟨e, hentry, hcheck⟩
  · rintro ⟨e, hentry, hcheck⟩
    obtain ⟨hkey, -⟩ := s.keyed _ e hentry
    cases hkey
    -- the empty query, on one page for all
    have hfound : e ∈ found textIncludes s e.entityType [] viewer :=
      mem_found.mpr ⟨hentry, hcheck, rfl⟩
    refine ⟨[], 1, (found textIncludes s e.entityType [] viewer).length, e, ?_, rfl⟩
    rw [search, Nat.zero_mul, List.drop_zero, List.take_length]
    exact hfound

/-! ## Moderation -/

/-- `handleVisibilityChange`; `none` where there is no entry. -/
def handleVisibilityChange (s : SearchIndex φ) (entityType : EntityType) (recordId : JsString)
    (mutation : VisibilityMutation) : Option (SearchIndex φ) :=
  match s.entries (entityType, recordId) with
  | none => none
  | some entry =>
      if mutation = .delete then some (s.remove entityType recordId)
      else some (s.upsert { entry with visibility := mutation.level })

/-- A sequence of mutations of one record; one that throws changes nothing. -/
def moderate (s : SearchIndex φ) (entityType : EntityType) (recordId : JsString) :
    List VisibilityMutation → SearchIndex φ
  | [] => s
  | mutation :: mutations =>
      ((s.handleVisibilityChange entityType recordId mutation).getD s).moderate entityType recordId
        mutations

/-- A record without an entry stays without. -/
theorem moderate_none (h : s.entries (t, r) = none) (mutations : List VisibilityMutation) :
    (s.moderate t r mutations).entries (t, r) = none := by
  induction mutations with
  | nil => exact h
  | cons m ms ih =>
      rw [moderate, handleVisibilityChange, h]
      exact ih

/-- **What a sequence leaves of an entry.** Nothing if it deletes, and else the entry with the level of
the last mutation. -/
theorem moderate_entry (h : s.entries (t, r) = some e) (mutations : List VisibilityMutation) :
    (s.moderate t r mutations).entries (t, r) =
      if .delete ∈ mutations then none
      else some { e with visibility := mutations.getLast?.elim e.visibility VisibilityMutation.level } := by
  induction mutations generalizing s e with
  | nil => exact h
  | cons m ms ih =>
      obtain ⟨hkey, -⟩ := s.keyed _ e h
      cases hkey
      rw [moderate, handleVisibilityChange, h]
      by_cases hdelete : m = .delete
      · -- once deleted, no later mutation finds the entry
        simp only [hdelete, if_true, Option.getD_some]
        rw [moderate_none (Function.update_self ..)]
        simp
      · simp only [hdelete, if_false, Option.getD_some]
        rw [ih (Function.update_self ..)]
        have hmem : .delete ∈ m :: ms ↔ .delete ∈ ms := by simp [Ne.symm hdelete]
        simp only [hmem]
        cases ms with
        | nil => rfl
        | cons m' ms =>
            rw [List.getLast?_cons_cons, List.getLast?_eq_some_getLast (List.cons_ne_nil m' ms)]
            rfl

/-- What the mutations do to an entry is no gain for anyone. -/
def NoGain (e : IndexEntry φ) (mutations : List VisibilityMutation) : Prop :=
  .delete ∈ mutations ∨
    match mutations.getLast? with
    | none | some .hide | some .revoke | some .delete => True
    | some .unhide => e.visibility = .public
    | some .restore =>
        match e.visibility with
        | .public | .restricted => True
        | .private => ∀ address ∈ e.permissions, e.ownerAddress = some address
        | .hidden | .revoked | .deleted => e.permissions = [] ∧ e.ownerAddress = none

/-- Only a public entry is seen by everyone. -/
theorem forall_permitted_iff (e : IndexEntry φ) :
    (∀ viewer, defaultPermissionChecker viewer e = true) ↔ e.visibility = .public := by
  constructor
  · intro h
    -- somebody who is neither the owner nor permitted
    obtain ⟨stranger, hstranger⟩ :=
      Infinite.exists_notMem_finset (e.permissions ++ e.ownerAddress.toList).toFinset
    have hnot : stranger ∉ e.permissions ∧ some stranger ≠ e.ownerAddress := by
      simp only [List.mem_toFinset, List.mem_append, Option.mem_toList, not_or] at hstranger
      exact ⟨hstranger.1, fun heq => hstranger.2 heq.symm⟩
    have hpermitted := h stranger
    cases hlevel : e.visibility with
    | «public» => rfl
    | _ => simp [defaultPermissionChecker, hlevel, hnot] at hpermitted
  · intro h viewer
    simp [defaultPermissionChecker, h]

/-- Whom the restricted level lets in, another level lets in only in these cases. -/
theorem restricted_permitted_iff (e : IndexEntry φ) :
    (∀ viewer, defaultPermissionChecker viewer { e with visibility := .restricted } = true →
      defaultPermissionChecker viewer e = true) ↔
      match e.visibility with
        | .public | .restricted => True
        | .private => ∀ address ∈ e.permissions, e.ownerAddress = some address
        | .hidden | .revoked | .deleted => e.permissions = [] ∧ e.ownerAddress = none := by
  have hnobody : (∀ viewer, viewer ∈ e.permissions ∨ some viewer = e.ownerAddress → False) ↔
      e.permissions = [] ∧ e.ownerAddress = none := by
    simp only [imp_false, not_or, forall_and, List.eq_nil_iff_forall_not_mem,
      Option.eq_none_iff_forall_ne_some, ne_comm]
  unfold defaultPermissionChecker
  cases hlevel : e.visibility with
  | «public» => simp
  | restricted => simp
  | «private» =>
      simp only [Bool.or_eq_true, decide_eq_true_eq]
      constructor
      · exact fun h address hmem => (h address (.inl hmem)).symm
      · exact fun h viewer hviewer => hviewer.elim (fun hmem => (h viewer hmem).symm) id
  | hidden => simpa using hnobody
  | revoked => simpa using hnobody
  | deleted => simpa using hnobody

end SearchIndex

open SearchIndex

/-- **When moderation widens nothing.** After an entry was upserted and a sequence of mutations of its
record, every viewer who finds the record found it before, exactly if the sequence is no gain for
anyone. -/
theorem moderation_widens_iff (textIncludes : φ → JsString → Bool) (s : SearchIndex φ)
    (entry : IndexEntry φ) (mutations : List VisibilityMutation) :
    (∀ viewer,
      CanFind textIncludes ((s.upsert entry).moderate entry.entityType entry.recordId mutations)
          entry.entityType entry.recordId viewer →
        CanFind textIncludes (s.upsert entry) entry.entityType entry.recordId viewer) ↔
      NoGain entry mutations := by
  have hentry := s.entries_upsert entry
  simp only [canFind_iff, hentry, moderate_entry hentry, Option.some.injEq, exists_eq_left', NoGain]
  by_cases hdelete : .delete ∈ mutations
  · simp [hdelete]
  · simp only [hdelete, if_false, Option.some.injEq, exists_eq_left', false_or]
    cases hlast : mutations.getLast? with
    | none => exact iff_of_true (fun _ h => h) trivial
    | some mutation =>
        cases mutation with
        | hide => exact iff_of_true (fun _ h => by cases h) trivial
        | revoke => exact iff_of_true (fun _ h => by cases h) trivial
        | delete => exact absurd (List.mem_of_getLast? hlast) hdelete
        | unhide =>
            rw [← forall_permitted_iff]
            exact ⟨fun h viewer => h viewer rfl, fun h viewer _ => h viewer⟩
        | restore => exact restricted_permitted_iff entry

namespace SearchSample

/-- A private bond of an issuer. -/
def draft : IndexEntry Unit := ⟨js "7", .bond, .private, [], (), some (js "issuer")⟩

def emptyIndex : SearchIndex Unit :=
  ⟨fun _ => none, fun _ => [], fun _ _ h => (by cases h), fun _ => List.nodup_nil⟩

end SearchSample

open SearchSample in
/-- A stranger finds the bond once it was hidden and unhidden. -/
theorem private_entry_published :
    ¬ CanFind (fun _ _ => true) (emptyIndex.upsert draft) .bond (js "7") (js "stranger") ∧
      CanFind (fun _ _ => true) ((emptyIndex.upsert draft).moderate .bond (js "7") [.hide, .unhide]) .bond
        (js "7") (js "stranger") := by
  have hentry : (emptyIndex.upsert draft).entries (.bond, js "7") = some draft :=
    emptyIndex.entries_upsert draft
  rw [canFind_iff, canFind_iff, moderate_entry hentry, hentry]
  refine ⟨?_, _, rfl, rfl⟩
  rintro ⟨e, he, hcheck⟩
  cases he
  exact absurd hcheck (by decide)

end VerdantBond
