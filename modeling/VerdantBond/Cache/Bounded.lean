import VerdantBond.Lib.Machine
import VerdantBond.Lib.Utf16

set_option autoImplicit false

/-! # BoundedCacheService

A cache with a maximum size. Before it stores a new key in a full cache, `set` purges what has expired
and evicts the entry with the earliest last access. The search for that entry starts from the current
time, so it finds none if everything was accessed in this very millisecond, and a key that is the empty
text counts as none. In both cases nothing is evicted and the cache outgrows its size; in no other
(`cache_bounded_iff`). An entry that is evicted has the earliest last access of all.
-/

namespace VerdantBond

open List

/-! ## The map of entries -/

/-- An entry of the cache, under its own key. -/
structure CacheEntry (α : Type) where
  key : JsString
  value : α
  createdAt : Int
  expiresAt : Int
  accessCount : Nat
  lastAccessedAt : Int

/-- The `Map`: its entries in the order of insertion, one for a key. -/
structure EntryMap (α : Type) where
  entries : List (CacheEntry α)
  nodup : (entries.map CacheEntry.key).Nodup

namespace EntryMap

variable {α : Type}

def empty : EntryMap α := ⟨[], List.nodup_nil⟩

def size (m : EntryMap α) : Nat := m.entries.length

def find (m : EntryMap α) (key : JsString) : Option (CacheEntry α) :=
  m.entries.find? fun e => e.key = key

def has (m : EntryMap α) (key : JsString) : Bool := m.entries.any fun e => e.key = key

/-- The entries that pass a test. -/
def keep (m : EntryMap α) (p : CacheEntry α → Bool) : EntryMap α :=
  ⟨m.entries.filter p, (List.filter_sublist.map _).nodup m.nodup⟩

def delete (m : EntryMap α) (key : JsString) : EntryMap α := m.keep fun e => e.key ≠ key

/-- An entry takes the place of the entry with its key. -/
def replaced (e : CacheEntry α) (l : List (CacheEntry α)) : List (CacheEntry α) :=
  l.map fun e' => if e'.key = e.key then e else e'

theorem map_key_replaced (e : CacheEntry α) (l : List (CacheEntry α)) :
    (replaced e l).map CacheEntry.key = l.map CacheEntry.key := by
  rw [replaced, map_map]
  apply map_congr_left
  intro e' _
  show (if e'.key = e.key then e else e').key = e'.key
  split
  · next h => exact h.symm
  · rfl

variable {m : EntryMap α}

theorem has_eq_true {key : JsString} : m.has key = true ↔ key ∈ m.entries.map CacheEntry.key := by
  simp [has]

/-- `Map.set`: a new key goes to the end. -/
def put (m : EntryMap α) (e : CacheEntry α) : EntryMap α :=
  if h : m.has e.key = true then
    ⟨replaced e m.entries, by rw [map_key_replaced]; exact m.nodup⟩
  else
    ⟨m.entries ++ [e], by
      rw [List.map_append, List.map_singleton, ← List.concat_eq_append, List.nodup_concat]
      exact ⟨fun hmem => h (has_eq_true.mpr hmem), m.nodup⟩⟩

theorem size_keep_le (m : EntryMap α) (p : CacheEntry α → Bool) : (m.keep p).size ≤ m.size :=
  length_filter_le ..

theorem size_put (m : EntryMap α) (e : CacheEntry α) :
    (m.put e).size = if m.has e.key = true then m.size else m.size + 1 := by
  unfold put size
  split
  · simp [replaced]
  · simp

/-- A key has one entry. -/
theorem eq_of_key_eq (m : EntryMap α) {e e' : CacheEntry α} (he : e ∈ m.entries)
    (he' : e' ∈ m.entries) (h : e.key = e'.key) : e = e' :=
  inj_on_of_nodup_map m.nodup he he' h

theorem size_delete {e : CacheEntry α} (he : e ∈ m.entries) :
    (m.delete e.key).size + 1 = m.size := by
  have hcount : (m.entries.filter fun e' => e'.key = e.key).length = 1 := by
    rw [← countP_eq_length_filter]
    have hkeys : (m.entries.map CacheEntry.key).count e.key = 1 :=
      count_eq_one_of_mem m.nodup (mem_map_of_mem he)
    rw [count, countP_map] at hkeys
    rw [← hkeys]
    apply countP_congr
    intro e' _
    simp
  have hsplit := length_eq_length_filter_add (l := m.entries) fun e' => e'.key = e.key
  have hother : (m.delete e.key).size =
      (m.entries.filter fun e' => !decide (e'.key = e.key)).length := by
    show (m.entries.filter _).length = _
    simp
  unfold size at hother ⊢
  omega

end EntryMap

/-! ## The service -/

structure BoundedCache (α : Type) where
  cache : EntryMap α
  maxSize : Nat
  defaultTtlMs : Int
  staleThresholdMs : Int
  hitCount : Nat
  missCount : Nat
  evictionCount : Nat
  expiredCount : Nat
  staleDetections : Nat

namespace BoundedCache

variable {α : Type}

/-- `constructor`. -/
def new (maxSize : Nat) (defaultTtlMs staleThresholdMs : Int) : BoundedCache α :=
  ⟨.empty, maxSize, defaultTtlMs, staleThresholdMs, 0, 0, 0, 0, 0⟩

variable (s : BoundedCache α) (now : Int)

/-- The entries that have not expired. -/
def fresh : EntryMap α :=
  s.cache.keep fun e => decide (now ≤ e.expiresAt)

def cleanExpired : BoundedCache α :=
  { s with
    cache := s.fresh now
    expiredCount := s.expiredCount + (s.cache.size - (s.fresh now).size) }

/-- One round of the search: `lruKey` and `lruTime`. -/
def lruStep (best : Option JsString × Int) (e : CacheEntry α) : Option JsString × Int :=
  if e.lastAccessedAt < best.2 then (some e.key, e.lastAccessedAt) else best

def lruKey (entries : List (CacheEntry α)) : Option JsString :=
  (entries.foldl lruStep (none, now)).1

/-- The test `if (lruKey)` fails for the empty text too. -/
def evictLRU : BoundedCache α :=
  match lruKey now s.cache.entries with
  | none => s
  | some key =>
      if key = [] then s
      else { s with cache := s.cache.delete key, evictionCount := s.evictionCount + 1 }

/-- The readings of the clock in a call of `set`: by itself, by `cleanExpired` and by `evictLRU`. -/
structure SetClock where
  now : Int
  cleaned : Int
  evicted : Int

/-- Whether `set` makes room for a key, after the purge. -/
def AtCapacity (key : JsString) : Prop :=
  s.maxSize ≤ s.cache.size ∧ s.cache.has key = false

instance (s : BoundedCache α) (key : JsString) : Decidable (s.AtCapacity key) :=
  inferInstanceAs (Decidable (_ ∧ _))

def set (clock : SetClock) (key : JsString) (value : α) (ttlMs : Option Int) : BoundedCache α :=
  let s := s.cleanExpired clock.cleaned
  let s := if s.AtCapacity key then s.evictLRU clock.evicted else s
  let expiresAt := clock.now + ttlMs.getD s.defaultTtlMs
  let entry : CacheEntry α := ⟨key, value, clock.now, expiresAt, 0, clock.now⟩
  { s with cache := s.cache.put entry }

def get (key : JsString) : BoundedCache α × Option α :=
  match s.cache.find key with
  | none => ({ s with missCount := s.missCount + 1 }, none)
  | some entry =>
      if entry.expiresAt < now then
        ({ s with
          cache := s.cache.delete key
          expiredCount := s.expiredCount + 1
          missCount := s.missCount + 1 }, none)
      else
        let entry := { entry with accessCount := entry.accessCount + 1, lastAccessedAt := now }
        ({ s with
          cache := s.cache.put entry
          hitCount := s.hitCount + 1
          staleDetections := if s.staleThresholdMs < now - entry.createdAt then s.staleDetections + 1
            else s.staleDetections }, some entry.value)

/-- `has`. -/
def contains (key : JsString) : BoundedCache α × Bool :=
  match s.cache.find key with
  | none => (s, false)
  | some entry =>
      if entry.expiresAt < now then ({ s with cache := s.cache.delete key }, false) else (s, true)

def delete (s : BoundedCache α) (key : JsString) : BoundedCache α × Bool :=
  ({ s with cache := s.cache.delete key }, s.cache.has key)

/-- `invalidatePattern`, on the keys the pattern matches. -/
def invalidatePattern (pattern : JsString → Bool) : BoundedCache α × Nat :=
  let kept := s.cache.keep fun e => !pattern e.key
  ({ s with cache := kept }, s.cache.size - kept.size)

end BoundedCache

inductive CacheInput (α : Type) where
  | set (clock : BoundedCache.SetClock) (key : JsString) (value : α) (ttlMs : Option Int)
  | get (now : Int) (key : JsString)
  | has (now : Int) (key : JsString)
  | delete (key : JsString)
  | invalidate (pattern : JsString → Bool)

inductive CacheReply (α : Type) where
  | done
  | value (v : Option α)
  | flag (b : Bool)
  | count (n : Nat)

def cacheMachine (α : Type) : Machine (BoundedCache α) (CacheInput α) (CacheReply α) where
  step s i :=
    match i with
    | .set clock key value ttlMs => (s.set clock key value ttlMs, .done)
    | .get now key => ((s.get now key).1, .value (s.get now key).2)
    | .has now key => ((s.contains now key).1, .flag (s.contains now key).2)
    | .delete key => ((s.delete key).1, .flag (s.delete key).2)
    | .invalidate pattern => ((s.invalidatePattern pattern).1, .count (s.invalidatePattern pattern).2)

/-! ## The search -/

namespace BoundedCache

variable {α : Type}

/-- The least recently used entry: the first of those with the earliest last access. -/
def leastRecent (entries : List (CacheEntry α)) : Option (CacheEntry α) :=
  entries.find? fun e => entries.all fun e' => e.lastAccessedAt ≤ e'.lastAccessedAt

/-- **The search ends at the first of the earliest last accesses**, if they are before the time it
starts from. -/
theorem foldl_lruStep_spec (entries : List (CacheEntry α)) (best : Option JsString × Int) :
    entries.foldl lruStep best = best ∧ (∀ e ∈ entries, best.2 ≤ e.lastAccessedAt) ∨
      ∃ before e after, entries = before ++ e :: after ∧
        entries.foldl lruStep best = (some e.key, e.lastAccessedAt) ∧ e.lastAccessedAt < best.2 ∧
        (∀ e' ∈ before, e.lastAccessedAt < e'.lastAccessedAt) ∧
        ∀ e' ∈ after, e.lastAccessedAt ≤ e'.lastAccessedAt := by
  induction entries generalizing best with
  | nil => exact .inl ⟨rfl, by simp⟩
  | cons e entries ih =>
      rw [foldl_cons]
      by_cases hlt : e.lastAccessedAt < best.2
      · rw [show lruStep best e = (some e.key, e.lastAccessedAt) from if_pos hlt]
        rcases ih (some e.key, e.lastAccessedAt) with
          ⟨heq, hall⟩ | ⟨before, v, after, rfl, heq, hv, hbefore, hafter⟩
        · exact .inr ⟨[], e, entries, rfl, heq, hlt, by simp, hall⟩
        · exact .inr ⟨e :: before, v, after, rfl, heq, hv.trans hlt,
            forall_mem_cons.mpr ⟨hv, hbefore⟩, hafter⟩
      · rw [show lruStep best e = best from if_neg hlt]
        rcases ih best with ⟨heq, hall⟩ | ⟨before, v, after, rfl, heq, hv, hbefore, hafter⟩
        · exact .inl ⟨heq, forall_mem_cons.mpr ⟨not_lt.mp hlt, hall⟩⟩
        · exact .inr ⟨e :: before, v, after, rfl, heq, hv,
            forall_mem_cons.mpr ⟨hv.trans_le (not_lt.mp hlt), hbefore⟩, hafter⟩

variable {key : JsString} {m : EntryMap α} {s : BoundedCache α} {e : CacheEntry α}

theorem leastRecent_append {before after : List (CacheEntry α)}
    (hbefore : ∀ e' ∈ before, e.lastAccessedAt < e'.lastAccessedAt)
    (hafter : ∀ e' ∈ after, e.lastAccessedAt ≤ e'.lastAccessedAt) :
    leastRecent (before ++ e :: after) = some e := by
  unfold leastRecent
  rw [find?_append, find?_eq_none.mpr, Option.none_or, find?_cons_of_pos]
  · simpa using ⟨fun e' he' => (hbefore e' he').le, hafter⟩
  · intro e' he' hall
    have := of_decide_eq_true (all_eq_true.mp hall e (by simp))
    exact absurd (hbefore e' he') (not_lt.mpr this)

theorem leastRecent_some {entries : List (CacheEntry α)} (h : leastRecent entries = some e) :
    e ∈ entries ∧ ∀ e' ∈ entries, e.lastAccessedAt ≤ e'.lastAccessedAt :=
  ⟨mem_of_find?_eq_some h, by simpa using find?_some h⟩

/-! ## One call -/

/-- The least recently used entry was last accessed before the current millisecond, and its key is
not the empty text. -/
def FindsVictim (s : BoundedCache α) (now : Int) : Prop :=
  ∃ e, leastRecent s.cache.entries = some e ∧ e.lastAccessedAt < now ∧ e.key ≠ []

theorem evictLRU_cache (s : BoundedCache α) (now : Int) :
    (∃ e ∈ s.cache.entries, e.key ≠ [] ∧ (s.evictLRU now).cache = s.cache.delete e.key ∧
        ∀ e' ∈ s.cache.entries, e.lastAccessedAt ≤ e'.lastAccessedAt) ∧ s.FindsVictim now ∨
      s.evictLRU now = s ∧ ¬ s.FindsVictim now := by
  unfold evictLRU FindsVictim lruKey
  rcases foldl_lruStep_spec s.cache.entries (none, now) with
    ⟨heq, hall⟩ | ⟨before, e, after, hentries, heq, hlt, hbefore, hafter⟩
  · rw [heq]
    refine .inr ⟨rfl, ?_⟩
    rintro ⟨e, he, hlt, -⟩
    exact absurd hlt (not_lt.mpr (hall e (leastRecent_some he).1))
  · have hleast : leastRecent s.cache.entries = some e := by
      rw [hentries, leastRecent_append hbefore hafter]
    rw [heq]
    by_cases hempty : e.key = []
    · refine .inr ⟨if_pos hempty, ?_⟩
      rintro ⟨e', he', -, hne⟩
      cases hleast.symm.trans he'
      exact hne hempty
    · refine .inl ⟨⟨e, (leastRecent_some hleast).1, hempty, ?_, (leastRecent_some hleast).2⟩, e, hleast,
        hlt, hempty⟩
      simp only [if_neg hempty]

/-- A call of `set` that has to make room finds a victim. -/
def MakesRoom (s : BoundedCache α) : CacheInput α → Prop
  | .set clock key _ _ => (s.cleanExpired clock.cleaned).AtCapacity key →
      (s.cleanExpired clock.cleaned).FindsVictim clock.evicted
  | _ => True

theorem has_delete_of_not (h : m.has key = false) (key' : JsString) :
    (m.delete key').has key = false := by
  rw [Bool.eq_false_iff, ne_eq, EntryMap.has_eq_true] at h ⊢
  intro hmem
  exact h ((filter_sublist.map _).subset hmem)

/-- **The size after `set`**: one above the maximum exactly if it had to make room and could not. -/
theorem size_set_le_iff (hs : s.cache.size ≤ s.maxSize) (clock : SetClock) (key : JsString)
    (value : α) (ttlMs : Option Int) :
    (s.set clock key value ttlMs).cache.size ≤ s.maxSize ↔
      s.MakesRoom (.set clock key value ttlMs) := by
  have hclean : (s.cleanExpired clock.cleaned).cache.size ≤ s.maxSize :=
    (EntryMap.size_keep_le ..).trans hs
  have hmax : (s.cleanExpired clock.cleaned).maxSize = s.maxSize := rfl
  unfold set MakesRoom
  simp only
  generalize s.cleanExpired clock.cleaned = c at hclean hmax
  rw [EntryMap.size_put]
  by_cases hfull : c.AtCapacity key
  · rw [if_pos hfull]
    obtain ⟨hsize, hnew⟩ := hfull
    simp only [hsize, hnew, and_self, AtCapacity, true_imp_iff]
    rcases c.evictLRU_cache clock.evicted with ⟨⟨e, he, -, hcache, -⟩, hvictim⟩ | ⟨hcache, hnone⟩
    · have hdelete := EntryMap.size_delete he
      rw [hcache, has_delete_of_not hnew, if_neg (by decide)]
      exact iff_of_true (by omega) hvictim
    · rw [hcache, hnew, if_neg (by decide)]
      exact iff_of_false (by omega) hnone
  · rw [if_neg hfull]
    refine iff_of_true ?_ fun h => absurd h hfull
    by_cases hhas : c.cache.has key = true
    · rw [if_pos hhas]
      exact hclean
    · rw [if_neg hhas]
      have hroom : ¬ c.maxSize ≤ c.cache.size := fun h => hfull ⟨h, Bool.eq_false_iff.mpr hhas⟩
      omega

theorem has_of_find (h : m.find key = some e) : m.has e.key = true :=
  EntryMap.has_eq_true.mpr (mem_map_of_mem (mem_of_find?_eq_some h))

/-- Every other call leaves the size or lowers it. -/
theorem size_get_le (s : BoundedCache α) (now : Int) (key : JsString) :
    (s.get now key).1.cache.size ≤ s.cache.size := by
  unfold get
  cases hfind : s.cache.find key with
  | none => exact le_rfl
  | some entry =>
      simp only
      split
      · exact EntryMap.size_keep_le ..
      · have hhas : s.cache.has entry.key = true := has_of_find hfind
        exact le_of_eq ((EntryMap.size_put ..).trans (if_pos hhas))

theorem size_contains_le (s : BoundedCache α) (now : Int) (key : JsString) :
    (s.contains now key).1.cache.size ≤ s.cache.size := by
  unfold contains
  cases s.cache.find key with
  | none => exact le_rfl
  | some entry =>
      simp only
      split
      · exact EntryMap.size_keep_le ..
      · exact le_rfl

theorem maxSize_step (s : BoundedCache α) (i : CacheInput α) :
    ((cacheMachine α).step s i).1.maxSize = s.maxSize := by
  cases i with
  | set clock key value ttlMs =>
      show (if _ then ((s.cleanExpired clock.cleaned).evictLRU clock.evicted) else _).maxSize = _
      split
      · unfold evictLRU
        split
        · rfl
        · split <;> rfl
      · rfl
  | get now key =>
      show (s.get now key).1.maxSize = _
      unfold get
      split
      · rfl
      · simp only
        split <;> rfl
  | has now key =>
      show (s.contains now key).1.maxSize = _
      unfold contains
      split
      · rfl
      · split <;> rfl
  | delete key => rfl
  | invalidate pattern => rfl

theorem size_step_le_iff (hs : s.cache.size ≤ s.maxSize) (i : CacheInput α) :
    ((cacheMachine α).step s i).1.cache.size ≤ s.maxSize ↔ s.MakesRoom i := by
  cases i with
  | set clock key value ttlMs => exact size_set_le_iff hs clock key value ttlMs
  | get now key => exact iff_of_true ((s.size_get_le now key).trans hs) trivial
  | has now key => exact iff_of_true ((s.size_contains_le now key).trans hs) trivial
  | delete key => exact iff_of_true ((EntryMap.size_keep_le ..).trans hs) trivial
  | invalidate pattern => exact iff_of_true ((EntryMap.size_keep_le ..).trans hs) trivial

/-- What `set` takes out of the unexpired entries was last accessed before all others. -/
theorem set_evicts_least (s : BoundedCache α) (clock : SetClock) (key : JsString) (value : α)
    (ttlMs : Option Int) (he : e ∈ (s.fresh clock.cleaned).entries)
    (hgone : (s.set clock key value ttlMs).cache.has e.key = false) :
    ∀ e' ∈ (s.fresh clock.cleaned).entries, e.lastAccessedAt ≤ e'.lastAccessedAt := by
  have hput : ∀ (m : EntryMap α) (entry : CacheEntry α), m.has e.key = true →
      (m.put entry).has e.key = true := by
    intro m entry h
    rw [EntryMap.has_eq_true] at h ⊢
    unfold EntryMap.put
    split
    · rw [EntryMap.map_key_replaced]
      exact h
    · rw [map_append]
      exact mem_append_left _ h
  unfold set at hgone
  simp only at hgone
  have hstored : (s.cleanExpired clock.cleaned).cache = s.fresh clock.cleaned := rfl
  rw [← hstored] at he ⊢
  generalize s.cleanExpired clock.cleaned = c at he hgone ⊢
  have hhas : c.cache.has e.key = true := EntryMap.has_eq_true.mpr (mem_map_of_mem he)
  split at hgone
  · rcases c.evictLRU_cache clock.evicted with ⟨⟨v, hv, -, hcache, hleast⟩, -⟩ | ⟨hcache, -⟩
    · -- only the victim is gone
      obtain rfl : e = v := by
        by_contra hne
        rw [hcache, hput _ _ (EntryMap.has_eq_true.mpr (mem_map_of_mem ?_))] at hgone
        · cases hgone
        · refine mem_filter.mpr ⟨he, decide_eq_true ?_⟩
          exact fun hkey => hne (c.cache.eq_of_key_eq he hv hkey)
      exact hleast
    · rw [hcache, hput _ _ hhas] at hgone
      cases hgone
  · rw [hput _ _ hhas] at hgone
    cases hgone

end BoundedCache

/-! ## Runs -/

/-- **The bounded cache**, for every maximum size and every sequence of calls at any times. The number
of entries stays within the maximum throughout the run exactly when every call of `set` that has to
make room finds a victim; and an unexpired entry that `set` evicts has the earliest last access of
all unexpired entries. -/
theorem cache_bounded_iff {α : Type} (maxSize : Nat) (defaultTtlMs staleThresholdMs : Int)
    (l : List (CacheInput α)) :
    ((∀ l₁, l₁ <+: l →
        ((cacheMachine α).run (.new maxSize defaultTtlMs staleThresholdMs) l₁).cache.size ≤ maxSize) ↔
      ∀ e ∈ (cacheMachine α).history (.new maxSize defaultTtlMs staleThresholdMs) l,
        e.pre.MakesRoom e.input) ∧
    ∀ e ∈ (cacheMachine α).history (.new maxSize defaultTtlMs staleThresholdMs) l,
      ∀ clock key value ttlMs, e.input = .set clock key value ttlMs →
        ∀ evicted ∈ (e.pre.fresh clock.cleaned).entries, e.post.cache.has evicted.key = false →
          ∀ other ∈ (e.pre.fresh clock.cleaned).entries,
            evicted.lastAccessedAt ≤ other.lastAccessedAt := by
  constructor
  · have hmax : ∀ l₁, ((cacheMachine α).run (.new maxSize defaultTtlMs staleThresholdMs) l₁).maxSize =
        maxSize := by
      intro l₁
      refine (cacheMachine α).run_invariant (P := fun s => s.maxSize = maxSize) rfl ?_ l₁
      intro s i hs
      rw [BoundedCache.maxSize_step, hs]
    refine (cacheMachine α).always_iff (P := fun s => s.cache.size ≤ maxSize)
      (G := fun e => e.pre.MakesRoom e.input) (Nat.zero_le _) (fun l₁ i hs => ?_) l
    have hstep := BoundedCache.size_step_le_iff (hs.trans_eq (hmax l₁).symm) i
    rw [hmax l₁] at hstep
    exact hstep
  · intro e he clock key value ttlMs hinput evicted hevicted hgone
    obtain ⟨l₁, i, l₂, -, rfl⟩ := (cacheMachine α).exists_of_mem_history he
    obtain rfl : i = .set clock key value ttlMs := hinput
    exact BoundedCache.set_evicts_least _ clock key value ttlMs hevicted hgone

/-- A second key later evicts the first, and the one after that the second. -/
theorem cache_bounded_iff_sample :
    ∀ l₁, l₁ <+: [.set ⟨5, 5, 5⟩ (js "a") 1 none, .set ⟨6, 6, 6⟩ (js "b") 2 none,
        .set ⟨7, 7, 7⟩ (js "c") 3 none] →
      ((cacheMachine Nat).run (.new 1 1000 1000) l₁).cache.size ≤ 1 := by
  refine (cache_bounded_iff 1 1000 1000 _).1.mpr fun e he => ?_
  simp only [Machine.history, mem_cons, not_mem_nil, or_false] at he
  rcases he with rfl | rfl | rfl
  · exact fun h => absurd h.1 (by decide)
  · exact fun _ => ⟨_, rfl, by decide, by decide⟩
  · exact fun _ => ⟨_, rfl, by decide, by decide⟩

/-- **Two keys in one millisecond** are both kept in a cache for one entry, and so is any key beside
the empty one. -/
theorem cache_outgrown :
    ((cacheMachine Nat).run (.new 1 1000 1000)
        [.set ⟨5, 5, 5⟩ (js "a") 1 none, .set ⟨5, 5, 5⟩ (js "b") 2 none]).cache.size = 2 ∧
      ((cacheMachine Nat).run (.new 1 1000 1000)
        [.set ⟨5, 5, 5⟩ [] 1 none, .set ⟨9, 9, 9⟩ (js "b") 2 none]).cache.size = 2 := by
  decide

end VerdantBond
