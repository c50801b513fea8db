import VerdantBond.Lib.Outcome

set_option autoImplicit false

/-! # Version logs: a value as it was at every earlier version

A value that changes over numbered versions is stored as a growing list of checkpoints, one for
each change, under consecutive indices. `VersionLog.search` reads the value at an earlier
version by bisection. `VersionLog.valueAt` is what it should return, by a linear scan from the
newest checkpoint down; `search_eq_valueAt` proves the two equal on every valid log.

`Tracks log now value` says that `log` is valid up to the version `now` and that `value` is the
current value. It is kept by an append at a later version (`Tracks.append`) and by a version
that does not touch the value (`Tracks.advance`), and neither changes what the log answers about
earlier versions (`valueAt_append_of_lt`).
-/

namespace VerdantBond

open Function

structure Checkpoint (α : Type) where
  version : Nat
  value : α
  deriving DecidableEq, Repr

/-- The number of checkpoints and the checkpoint under each index. -/
structure VersionLog (α : Type) where
  count : Nat
  entry : Nat → Option (Checkpoint α)

namespace VersionLog

variable {α ε : Type}

def empty : VersionLog α := ⟨0, fun _ => none⟩

/-- An empty log gets a checkpoint of the version `0` before its first change. -/
def seeded (log : VersionLog α) (previous : α) : VersionLog α :=
  if log.count = 0 then ⟨1, update log.entry 0 (some ⟨0, previous⟩)⟩ else log

/-- Append the checkpoint `(version, value)`; `none` when the index leaves `u32`. -/
def append (log : VersionLog α) (version : Nat) (previous value : α) : Option (VersionLog α) :=
  (u32 ((log.seeded previous).count + 1)).map fun next =>
    ⟨next, update (log.seeded previous).entry (log.seeded previous).count (some ⟨version, value⟩)⟩

/-- The bisection loop. `fuel` bounds the number of rounds; `high - low` rounds are enough. -/
def bisect (missing overflow : ε) (entry : Nat → Option (Checkpoint α)) (version : Nat) :
    Nat → Nat → Nat → Outcome ε Nat
  | 0, low, _ => .ok low
  | fuel + 1, low, high =>
      if low < high then do
        let middle := low + (high - low) / 2
        let checkpoint ← okOr (entry middle) missing
        if checkpoint.version ≤ version then do
          let next ← okOr (u32 (middle + 1)) overflow
          bisect missing overflow entry version fuel next high
        else
          bisect missing overflow entry version fuel low middle
      else
        .ok low

/-- The value at `version`: the newest checkpoint that is not newer, or `zero` without one. -/
def search (missing overflow : ε) (zero : α) (log : VersionLog α) (version : Nat) :
    Outcome ε α := do
  let low ← bisect missing overflow log.entry version log.count 0 log.count
  if low = 0 then
    pure zero
  else do
    let checkpoint ← okOr (log.entry (low - 1)) missing
    pure checkpoint.value

/-! ## What the search should return -/

/-- Scan the checkpoints below index `n` from the newest down. -/
def scan (zero : α) (entry : Nat → Option (Checkpoint α)) (version : Nat) : Nat → α
  | 0 => zero
  | n + 1 =>
      match entry n with
      | some c => if c.version ≤ version then c.value else scan zero entry version n
      | none => scan zero entry version n

/-- The value the log records for `version`. -/
def valueAt (zero : α) (log : VersionLog α) (version : Nat) : α :=
  scan zero log.entry version log.count

variable {zero value previous : α} {version now : Nat} {log log' : VersionLog α}

variable {entry : Nat → Option (Checkpoint α)} {n now' : Nat}

theorem scan_congr {entry' : Nat → Option (Checkpoint α)} (h : ∀ i < n, entry i = entry' i) :
    scan zero entry version n = scan zero entry' version n := by
  induction n with
  | zero => rfl
  | succ n ih =>
      have ih' := ih (fun i hi => h i (Nat.lt_succ_of_lt hi))
      simp only [scan, h n (Nat.lt_succ_self n), ih']

/-- Checkpoints newer than `version` do not matter. -/
theorem scan_skip {k : Nat} (hnk : n ≤ k)
    (h : ∀ i c, n ≤ i → i < k → entry i = some c → version < c.version) :
    scan zero entry version k = scan zero entry version n := by
  induction k with
  | zero => rw [Nat.le_zero.mp hnk]
  | succ k ih =>
      by_cases hk : n = k + 1
      · rw [hk]
      · have hstep : scan zero entry version (k + 1) = scan zero entry version k := by
          cases he : entry k with
          | none => simp only [scan, he]
          | some c =>
              have hc := h k c (by omega) (Nat.lt_succ_self k) he
              simp only [scan, he, if_neg (Nat.not_le.mpr hc)]
        rw [hstep]
        exact ih (by omega) (fun i c hi hik => h i c hi (Nat.lt_succ_of_lt hik))

/-- A valid log: every index below `count` is filled, versions do not decrease, and none is
newer than `now`. -/
structure Valid (log : VersionLog α) (now : Nat) : Prop where
  full : ∀ i < log.count, ∃ c, log.entry i = some c
  sorted : ∀ i j ci cj, i ≤ j → j < log.count → log.entry i = some ci → log.entry j = some cj →
    ci.version ≤ cj.version
  bounded : ∀ i c, i < log.count → log.entry i = some c → c.version ≤ now
  count_le : log.count ≤ u32Max

theorem valid_empty (now : Nat) : (empty : VersionLog α).Valid now where
  full := fun i hi => absurd hi (Nat.not_lt_zero i)
  sorted := fun _ j _ _ _ hj => absurd hj (Nat.not_lt_zero j)
  bounded := fun i _ hi => absurd hi (Nat.not_lt_zero i)
  count_le := Nat.zero_le _

theorem Valid.mono (h : log.Valid now) (hle : now ≤ now') : log.Valid now' :=
  { h with bounded := fun i c hi hc => le_trans (h.bounded i c hi hc) hle }

/-- From `now` on the recorded value no longer depends on the version asked for. -/
theorem Valid.valueAt_of_le (zero : α) (h : log.Valid now) (hle : now ≤ version) :
    log.valueAt zero version = log.valueAt zero now := by
  have key : ∀ n ≤ log.count, scan zero log.entry version n = scan zero log.entry now n := by
    intro n hn
    cases n with
    | zero => rfl
    | succ n =>
        obtain ⟨c, hc⟩ := h.full n hn
        have hb := h.bounded n c hn hc
        simp only [scan, hc, if_pos hb, if_pos (le_trans hb hle)]
  exact key log.count (le_refl _)

/-! ## The bisection finds it -/

/-- **The loop invariant.** Everything below `low` is not newer than `version` and everything
from `high` on is. With enough fuel the loop ends where the two meet. -/
theorem bisect_spec (missing overflow : ε) (version : Nat) (h : log.Valid now) :
    ∀ fuel low high, high - low ≤ fuel → low ≤ high → high ≤ log.count →
      (∀ i c, i < low → log.entry i = some c → c.version ≤ version) →
      (∀ i c, high ≤ i → i < log.count → log.entry i = some c → version < c.version) →
      ∃ k ≤ log.count, bisect missing overflow log.entry version fuel low high = .ok k ∧
        (∀ i c, i < k → log.entry i = some c → c.version ≤ version) ∧
        (∀ i c, k ≤ i → i < log.count → log.entry i = some c → version < c.version) := by
  intro fuel
  induction fuel with
  | zero =>
      intro low high hf hlh hh hlow hhigh
      have hmeet : low = high := by omega
      refine ⟨low, by omega, rfl, hlow, ?_⟩
      intro i c hi
      exact hhigh i c (by omega)
  | succ fuel ih =>
      intro low high hf hlh hh hlow hhigh
      by_cases hlt : low < high
      · obtain ⟨c, hc⟩ := h.full (low + (high - low) / 2) (by omega)
        simp only [bisect, if_pos hlt, hc, okOr]
        by_cases hv : c.version ≤ version
        · have hle : low + (high - low) / 2 + 1 ≤ u32Max := by have := h.count_le; omega
          have hu : u32 (low + (high - low) / 2 + 1) = some (low + (high - low) / 2 + 1) :=
            u32_eq_some.mpr ⟨hle, rfl⟩
          simp only [bind, Except.bind, if_pos hv, hu]
          refine ih _ high (by omega) (by omega) hh ?_ hhigh
          -- the checkpoints up to the middle are no newer than the middle one
          intro i c' hi hc'
          exact le_trans (h.sorted i _ c' c (by omega) (by omega) hc' hc) hv
        · simp only [bind, Except.bind, if_neg hv]
          refine ih low _ (by omega) (by omega) (by omega) hlow ?_
          intro i c' hi hic hc'
          exact lt_of_lt_of_le (Nat.not_le.mp hv) (h.sorted _ i c c' hi hic hc hc')
      · have hmeet : low = high := by omega
        refine ⟨low, by omega, by simp only [bisect, if_neg hlt], hlow, ?_⟩
        intro i c' hi
        exact hhigh i c' (by omega)

/-- **The search is exact.** -/
theorem search_eq_valueAt {missing overflow : ε} (zero : α) (h : log.Valid now) (version : Nat) :
    search missing overflow zero log version = .ok (log.valueAt zero version) := by
  obtain ⟨k, hk, hb, hlow, hhigh⟩ := bisect_spec missing overflow version h log.count 0 log.count
    (by omega) (by omega) (le_refl _) (fun i _ hi => absurd hi (Nat.not_lt_zero i))
    (fun i _ hi hic => absurd hi (by omega))
  have hv : log.valueAt zero version = scan zero log.entry version k := scan_skip hk hhigh
  simp only [search, hb, bind, Except.bind, hv]
  cases k with
  | zero => rfl
  | succ k =>
      obtain ⟨c, hc⟩ := h.full k hk
      have hle := hlow k c (Nat.lt_succ_self k) hc
      simp [scan, hc, hle, okOr, pure, Except.pure]

/-! ## Appending -/

/-- The log is valid up to the version `now`, at which the value is `value`. -/
structure Tracks (zero : α) (log : VersionLog α) (now : Nat) (value : α) : Prop where
  valid : log.Valid now
  current : log.valueAt zero now = value

theorem tracks_empty (zero : α) (now : Nat) : Tracks zero (empty : VersionLog α) now zero :=
  ⟨valid_empty now, rfl⟩

/-- A version that does not touch the value. -/
theorem Tracks.advance (h : Tracks zero log now value) (hle : now ≤ now') :
    Tracks zero log now' value :=
  ⟨h.valid.mono hle, by rw [h.valid.valueAt_of_le zero hle, h.current]⟩

/-- Seeding with the current value changes no answer. -/
theorem Tracks.seeded_valueAt (h : Tracks zero log now previous) (version : Nat) :
    (log.seeded previous).valueAt zero version = log.valueAt zero version := by
  unfold seeded
  by_cases hc : log.count = 0
  · have hz : ∀ v, log.valueAt zero v = zero := by
      intro v
      simp only [valueAt, hc, scan]
    have hp : previous = zero := by rw [← h.current, hz]
    simp [hc, valueAt, scan, hp]
  · rw [if_neg hc]

theorem Valid.seeded (h : log.Valid now) (previous : α) : (log.seeded previous).Valid now := by
  unfold VersionLog.seeded
  by_cases hc : log.count = 0
  · rw [if_pos hc]
    have hzero : ∀ i, i < 1 → i = 0 := fun i hi => by omega
    refine ⟨?_, ?_, ?_, ?_⟩
    · intro i hi
      rw [hzero i hi]
      exact ⟨⟨0, previous⟩, by simp⟩
    · intro i j ci cj hij hj hi' hj'
      obtain rfl := hzero j hj
      obtain rfl := Nat.le_zero.mp hij
      rw [hi'] at hj'
      rw [Option.some.inj hj']
    · intro i c hi hc'
      obtain rfl := hzero i hi
      simp only [update_self, Option.some.injEq] at hc'
      rw [← hc']
      exact Nat.zero_le _
    · show 1 ≤ u32Max
      decide
  · rw [if_neg hc]
    exact h

theorem append_eq_some (h : log.append version previous value = some log') :
    (log.seeded previous).count + 1 ≤ u32Max ∧
      log' = ⟨(log.seeded previous).count + 1,
        update (log.seeded previous).entry (log.seeded previous).count (some ⟨version, value⟩)⟩ := by
  unfold append at h
  rw [Option.map_eq_some_iff] at h
  obtain ⟨n, hn, hlog⟩ := h
  rw [u32_eq_some] at hn
  obtain ⟨hle, rfl⟩ := hn
  exact ⟨hle, hlog.symm⟩

/-- The answers of the appended log. -/
theorem valueAt_append (ht : Tracks zero log now previous)
    (h : log.append version previous value = some log') (v : Nat) :
    log'.valueAt zero v = if version ≤ v then value else log.valueAt zero v := by
  obtain ⟨-, rfl⟩ := append_eq_some h
  have hold : scan zero (update (log.seeded previous).entry (log.seeded previous).count
      (some ⟨version, value⟩)) v (log.seeded previous).count
      = log.valueAt zero v := by
    rw [← ht.seeded_valueAt v]
    refine scan_congr (fun i hi => ?_)
    rw [update_of_ne (by omega)]
  simp only [valueAt, scan, update_self] at hold ⊢
  rw [hold]

/-- An append at a later version leaves the answers about earlier versions alone. -/
theorem valueAt_append_of_lt {v : Nat} (ht : Tracks zero log now previous)
    (h : log.append version previous value = some log') (hv : v < version) :
    log'.valueAt zero v = log.valueAt zero v := by
  rw [valueAt_append ht h, if_neg (Nat.not_le.mpr hv)]

/-- One more checkpoint at a version that is not older keeps the log valid. -/
theorem Valid.extend (h : log.Valid now) (hle : now ≤ version) (hroom : log.count + 1 ≤ u32Max)
    (value : α) :
    Valid ⟨log.count + 1, update log.entry log.count (some ⟨version, value⟩)⟩ version := by
  refine ⟨fun i hi => ?_, fun i j ci cj hij hj hi' hj' => ?_, fun i c hi hc => ?_, hroom⟩
  · by_cases hlast : i = log.count
    · exact ⟨⟨version, value⟩, by simp only [hlast, update_self]⟩
    · obtain ⟨c, hc⟩ := h.full i (by simp only at hi; omega)
      exact ⟨c, by simp only [update_of_ne hlast, hc]⟩
  · simp only at hj hi' hj'
    by_cases hjl : j = log.count
    · rw [hjl, update_self, Option.some.injEq] at hj'
      rw [← hj']
      by_cases hil : i = log.count
      · rw [hil, update_self, Option.some.injEq] at hi'
        rw [← hi']
      · rw [update_of_ne hil] at hi'
        exact le_trans (h.bounded i ci (by omega) hi') hle
    · have hil : i ≠ log.count := by omega
      rw [update_of_ne hil] at hi'
      rw [update_of_ne hjl] at hj'
      exact h.sorted i j ci cj hij (by omega) hi' hj'
  · simp only at hi hc
    by_cases hil : i = log.count
    · rw [hil, update_self, Option.some.injEq] at hc
      rw [← hc]
    · rw [update_of_ne hil] at hc
      exact le_trans (h.bounded i c (by omega) hc) hle

theorem Tracks.append (ht : Tracks zero log now previous) (hle : now ≤ version)
    (h : log.append version previous value = some log') : Tracks zero log' version value := by
  refine ⟨?_, by rw [valueAt_append ht h, if_pos (le_refl _)]⟩
  obtain ⟨hroom, rfl⟩ := append_eq_some h
  exact (ht.valid.seeded previous).extend hle hroom value

end VersionLog

end VerdantBond
