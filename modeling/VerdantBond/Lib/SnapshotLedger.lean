import VerdantBond.Lib.Ledger
import VerdantBond.Lib.VersionLog

set_option autoImplicit false

/-! # Ledgers with numbered snapshots

A ledger whose accounts and whose total can be asked for at every earlier version. The current
balances are a function; each account, and the total, has a version log of its own. A *move*
opens the next version, rewrites some accounts under it and logs the total if it changed.

`Consistent` is the invariant: balances are non-negative and sum to the total, and every log
tracks its value. Moves keep it (`Move.consistent`) and change no answer about an earlier
version (`Step.past`). How a concrete ledger picks the accounts to rewrite does not matter.
-/

namespace VerdantBond

open Function VersionLog

/-- The accounts and their logs. -/
structure Book (κ : Type) where
  balance : κ → Int
  log : κ → VersionLog Int

structure SnapshotLedger (κ : Type) where
  version : Nat
  book : Book κ
  total : Int
  totalLog : VersionLog Int

variable {κ : Type}

/-- Every log is valid up to the version `n` and its value is the balance. -/
def Book.Tracked (g : Book κ) (n : Nat) : Prop := ∀ k, Tracks 0 (g.log k) n (g.balance k)

namespace SnapshotLedger

/-- **The ledger invariant.** -/
structure Consistent (L : SnapshotLedger κ) : Prop where
  finiteSupport : L.book.balance.HasFiniteSupport
  nonneg : ∀ a, 0 ≤ L.book.balance a
  sum : ∑ᶠ a, L.book.balance a = L.total
  tracked : L.book.Tracked L.version
  totalTracked : Tracks 0 L.totalLog L.version L.total

/-- The balance of an account at a version. -/
def balanceAt (L : SnapshotLedger κ) (a : κ) (version : Nat) : Int :=
  (L.book.log a).valueAt 0 version

/-- The total at a version. -/
def totalAt (L : SnapshotLedger κ) (version : Nat) : Int := L.totalLog.valueAt 0 version

variable {L : SnapshotLedger κ}

/-- At the current version the answers are the current values. -/
theorem Consistent.balanceAt_now (h : L.Consistent) (a : κ) :
    L.balanceAt a L.version = L.book.balance a := (h.tracked a).current

theorem Consistent.totalAt_now (h : L.Consistent) :
    L.totalAt L.version = L.total := h.totalTracked.current

/-- `L'` answers as `L` does; at most the log of the total was opened. -/
structure Quiet (L L' : SnapshotLedger κ) : Prop where
  version : L'.version = L.version
  book : L'.book = L.book
  total : L'.total = L.total
  totalLog : L'.totalLog = L.totalLog ∨ L'.totalLog = L.totalLog.seeded L.total

theorem Quiet.consistent {L' : SnapshotLedger κ} (h : Quiet L L') (hL : L.Consistent) :
    L'.Consistent := by
  obtain ⟨hv, hb, ht, hlog⟩ := h
  refine ⟨hb ▸ hL.finiteSupport, hb ▸ hL.nonneg, by rw [hb, ht, hL.sum], ?_, ?_⟩
  · rw [hb, hv]
    exact hL.tracked
  · rw [hv, ht]
    rcases hlog with hlog | hlog <;> rw [hlog]
    · exact hL.totalTracked
    · exact ⟨hL.totalTracked.valid.seeded _,
        by rw [hL.totalTracked.seeded_valueAt, hL.totalTracked.current]⟩

end SnapshotLedger

/-! ## Writes -/

variable [DecidableEq κ]

/-- `Writes n g d g'`: accounts of `g` were rewritten under the version `n`, one after the
other, with the net change `d` of their sum. No write turns a non-negative balance negative. -/
inductive Writes (n : Nat) : Book κ → Int → Book κ → Prop where
  | nil (g : Book κ) : Writes n g 0 g
  | cons {g g' : Book κ} {d : Int} (k : κ) (v : Int) (log : VersionLog Int)
      (hlog : (g.log k).append n (g.balance k) v = some log)
      (hv : 0 ≤ g.balance k → 0 ≤ v)
      (rest : Writes n ⟨update g.balance k v, update g.log k log⟩ d g') :
      Writes n g (v - g.balance k + d) g'

namespace Writes

variable {n : Nat} {g g' : Book κ} {v d : Int} {log : VersionLog Int}

/-- A single rewritten account. -/
theorem single {k : κ} (hlog : (g.log k).append n (g.balance k) v = some log)
    (hv : 0 ≤ g.balance k → 0 ≤ v) :
    Writes n g (v - g.balance k) ⟨update g.balance k v, update g.log k log⟩ := by
  simpa using Writes.cons k v log hlog hv (Writes.nil _)

theorem congr {d' : Int} (h : Writes n g d g') (hd : d = d') :
    Writes n g d' g' := hd ▸ h

theorem append {g'' : Book κ} {d' : Int} (h : Writes n g d g') (h' : Writes n g' d' g'') :
    Writes n g (d + d') g'' := by
  induction h with
  | nil g => simpa using h'
  | cons k v log hlog hv _ ih =>
      rw [add_assoc]
      exact .cons k v log hlog hv (ih h')

/-- One write keeps the logs of all accounts up to date. -/
theorem tracked_update (hg : g.Tracked n) {k : κ}
    (hlog : (g.log k).append n (g.balance k) v = some log) :
    (Book.mk (update g.balance k v) (update g.log k log)).Tracked n := by
  intro a
  by_cases hak : a = k
  · subst hak
    simpa using (hg a).append (le_refl n) hlog
  · simpa [update_of_ne hak] using hg a

theorem tracked (h : Writes n g d g') (hg : g.Tracked n) : g'.Tracked n := by
  induction h with
  | nil g => exact hg
  | cons k v log hlog _ _ ih => exact ih (tracked_update hg hlog)

/-- Answers about versions before `n` stay. -/
theorem past {v : Nat} (h : Writes n g d g') (hg : g.Tracked n) (hv : v < n) (a : κ) :
    (g'.log a).valueAt 0 v = (g.log a).valueAt 0 v := by
  induction h with
  | nil g => rfl
  | @cons g g' d k w log hlog _ _ ih =>
      rw [ih (tracked_update hg hlog)]
      by_cases hak : a = k
      · subst hak
        simpa only [update_self] using valueAt_append_of_lt (hg a) hlog hv
      · simp only [update_of_ne hak]

theorem nonneg (h : Writes n g d g') (hg : ∀ a, 0 ≤ g.balance a) (a : κ) : 0 ≤ g'.balance a := by
  induction h with
  | nil g => exact hg a
  | @cons g g' d k v log _ hv _ ih =>
      refine ih (fun b => ?_)
      by_cases hbk : b = k
      · subst hbk
        simpa using hv (hg b)
      · simpa [update_of_ne hbk] using hg b

theorem finiteSupport (h : Writes n g d g') (hg : g.balance.HasFiniteSupport) :
    g'.balance.HasFiniteSupport := by
  induction h with
  | nil g => exact hg
  | cons k v _ _ _ _ ih => exact ih (hasFiniteSupport_update hg k v)

/-- The sum of the balances moves by the net change. -/
theorem finsum_eq (h : Writes n g d g') (hg : g.balance.HasFiniteSupport) :
    ∑ᶠ a, g'.balance a = ∑ᶠ a, g.balance a + d := by
  induction h with
  | nil g => simp
  | cons k v _ _ _ _ ih =>
      rw [ih (hasFiniteSupport_update hg k v), finsum_update hg]
      ring

end Writes

/-! ## Moves -/

namespace SnapshotLedger

/-- `L'` differs from `L` by one new version. -/
structure Move (L L' : SnapshotLedger κ) : Prop where
  version : L'.version = L.version + 1
  writes : Writes L'.version L.book (L'.total - L.total) L'.book
  total : L.totalLog.append L'.version L.total L'.total = some L'.totalLog ∨
    (L'.total = L.total ∧ L'.totalLog = L.totalLog)

/-- What an operation on the ledger may do. -/
def Step (L L' : SnapshotLedger κ) : Prop := Quiet L L' ∨ Move L L'

variable {L L' : SnapshotLedger κ}

/-- The new version is open: every log is up to date at it before the first write. -/
theorem Move.tracked_before (h : Move L L') (hL : L.Consistent) : L.book.Tracked L'.version :=
  fun a => (hL.tracked a).advance (by rw [h.version]; omega)

theorem Move.consistent (h : Move L L') (hL : L.Consistent) : L'.Consistent := by
  refine ⟨h.writes.finiteSupport hL.finiteSupport, h.writes.nonneg hL.nonneg, ?_,
    h.writes.tracked (h.tracked_before hL), ?_⟩
  · rw [h.writes.finsum_eq hL.finiteSupport, hL.sum]
    ring
  · rcases h.total with hlog | ⟨htot, hlog⟩
    · exact hL.totalTracked.append (by rw [h.version]; omega) hlog
    · rw [hlog, htot]
      exact hL.totalTracked.advance (by rw [h.version]; omega)

theorem Step.consistent (h : Step L L') (hL : L.Consistent) : L'.Consistent :=
  h.elim (fun hq => hq.consistent hL) (fun hm => hm.consistent hL)

theorem Step.version_le (h : Step L L') : L.version ≤ L'.version := by
  rcases h with h | h
  · exact h.version.ge
  · rw [h.version]
    omega

theorem Step.version_le_succ (h : Step L L') : L'.version ≤ L.version + 1 := by
  rcases h with h | h
  · rw [h.version]
    omega
  · exact h.version.le

/-- **The past is immutable.** No step changes an answer about a version that existed before. -/
theorem Step.past (h : Step L L') (hL : L.Consistent) {v : Nat} (hv : v ≤ L.version) :
    (∀ a, L'.balanceAt a v = L.balanceAt a v) ∧ L'.totalAt v = L.totalAt v := by
  rcases h with h | h
  · refine ⟨fun a => by rw [balanceAt, balanceAt, h.book], ?_⟩
    rcases h.totalLog with hlog | hlog <;> rw [totalAt, totalAt, hlog]
    exact hL.totalTracked.seeded_valueAt v
  · have hlt : v < L'.version := by rw [h.version]; omega
    refine ⟨fun a => h.writes.past (h.tracked_before hL) hlt a, ?_⟩
    rcases h.total with hlog | ⟨-, hlog⟩
    · exact valueAt_append_of_lt hL.totalTracked hlog hlt
    · rw [totalAt, totalAt, hlog]

/-! ## Records

Ledgers kept after each operation, to compare the historical answers with. -/

/-- The ledger `L` answers about the version of each record with that record's values, and there
is a record of every version. -/
structure Recorded (records : List (SnapshotLedger κ)) (L : SnapshotLedger κ) : Prop where
  exact : ∀ r ∈ records, r.Consistent ∧ r.version ≤ L.version ∧
    (∀ a, L.balanceAt a r.version = r.book.balance a) ∧ L.totalAt r.version = r.total
  complete : ∀ v ≤ L.version, ∃ r ∈ records, r.version = v

omit [DecidableEq κ] in
theorem Recorded.start (hL : L.Consistent) (h0 : L.version = 0) : Recorded [L] L := by
  refine ⟨fun r hr => ?_, fun v hv => ⟨L, List.mem_singleton_self L, by omega⟩⟩
  rw [List.mem_singleton.mp hr]
  exact ⟨hL, le_refl _, hL.balanceAt_now, hL.totalAt_now⟩

/-- A step extends the records by its result. -/
theorem Recorded.step {records : List (SnapshotLedger κ)} (hr : Recorded records L)
    (hL : L.Consistent) (h : Step L L') : Recorded (records ++ [L']) L' := by
  have hL' := h.consistent hL
  refine ⟨fun r hmem => ?_, fun v hv => ?_⟩
  · rcases List.mem_append.mp hmem with hmem | hmem
    · obtain ⟨hc, hv, hbal, htot⟩ := hr.exact r hmem
      obtain ⟨hpast, hpastTotal⟩ := h.past hL hv
      exact ⟨hc, le_trans hv h.version_le, fun a => by rw [hpast, hbal],
        by rw [hpastTotal, htot]⟩
    · rw [List.mem_singleton.mp hmem]
      exact ⟨hL', le_refl _, hL'.balanceAt_now, hL'.totalAt_now⟩
  · by_cases hv' : v ≤ L.version
    · obtain ⟨r, hmem, hrv⟩ := hr.complete v hv'
      exact ⟨r, List.mem_append_left _ hmem, hrv⟩
    · have := h.version_le_succ
      exact ⟨L', List.mem_append_right _ (List.mem_singleton_self L'), by omega⟩

end SnapshotLedger

end VerdantBond
