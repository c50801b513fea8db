import VerdantBond.Lib.Machine
import VerdantBond.Shared
import Mathlib.Logic.Function.Basic
import Mathlib.Logic.Relation

set_option autoImplicit false

/-! # Liability reserve alerts

`shared/src/liability_reserve_alert.rs`. The manager keeps a table of alerts by id and an index from
bonds to their open alert, written separately on five paths: an alert is raised, amended (a retry
or an acknowledgement), closed when funding is restored, closed by hand, or closed and replaced when
its severity changes. `AlertMove` says what these do to table and index together, and each call is a
sequence of such moves (`alertStep_moves`). The index is right because a call never reaches an alert
through it that is not open, and a resolution by id is refused for a closed one.
-/

namespace VerdantBond

open Function Relation

inductive AlertSeverity where
  | adequate
  | warning
  | criticalDeficit
  | emergencyInsolvency
  deriving DecidableEq, Repr

inductive AlertStatus where
  | active
  | acknowledged
  | resolved
  deriving DecidableEq, Repr

inductive AlertError where
  | unauthorized
  | negativeValue
  | invalidThreshold
  | alertNotFound
  | alreadyResolved
  | alreadyAcknowledged
  | insufficientReplenishment
  deriving DecidableEq, Repr

structure LiabilityReserveAlert where
  alertId : Nat
  bondId : Nat
  liabilities : Int
  availableReserves : Int
  shortfall : Int
  coverageFractionBps : Nat
  severity : AlertSeverity
  status : AlertStatus
  triggeredAt : Nat
  acknowledgedBy : Option Address
  acknowledgedAt : Option Nat
  resolvedAt : Option Nat
  retryCount : Nat
  reason : String
  deriving DecidableEq, Repr

structure LiabilityReserveAlertManager where
  alerts : Nat → Option LiabilityReserveAlert
  bondActiveAlerts : Nat → Option Nat
  warningThresholdBps : Nat
  criticalThresholdBps : Nat
  nextAlertId : Nat

namespace LiabilityReserveAlertManager

/-! ## The calls -/

def new (warningThresholdBps criticalThresholdBps : Nat) :
    Outcome AlertError LiabilityReserveAlertManager := do
  reject (warningThresholdBps < criticalThresholdBps ∨ 10000 < warningThresholdBps)
    .invalidThreshold
  pure ⟨fun _ => none, fun _ => none, warningThresholdBps, criticalThresholdBps, 1⟩

variable (now : Nat) (m : LiabilityReserveAlertManager)

/-- The open alert of a bond, with the id the index gives it. -/
def openAlert (bondId : Nat) : Option (Nat × LiabilityReserveAlert) := do
  let activeId ← m.bondActiveAlerts bondId
  let alert ← m.alerts activeId
  pure (activeId, alert)

/-- The reserves in basis points of the liabilities; the product saturates at `u128`. -/
def coverageBps (liabilities availableReserves : Int) : Nat :=
  min (min (availableReserves.toNat * 10000) u128Max / liabilities.toNat) 10000

def severityOf (coverage : Nat) : AlertSeverity :=
  if coverage ≤ 5000 then .emergencyInsolvency
  else if coverage ≤ m.criticalThresholdBps then .criticalDeficit
  else .warning

/-- A new alert takes the next id and becomes the bond's open one. -/
def createAlert (alert : LiabilityReserveAlert) :
    Outcome AlertError (LiabilityReserveAlertManager × Option LiabilityReserveAlert) := do
  let next ← orTrap (u64 (m.nextAlertId + 1))
  pure ({ m with
    alerts := update m.alerts m.nextAlertId (some alert)
    bondActiveAlerts := update m.bondActiveAlerts alert.bondId (some m.nextAlertId)
    nextAlertId := next }, some alert)

/-- Funding is restored: the open alert, if there is one, is closed. -/
def restoreFunding (bondId : Nat) (availableReserves : Int) :
    LiabilityReserveAlertManager × Option LiabilityReserveAlert :=
  match m.openAlert bondId with
  | none => (m, none)
  | some (activeId, alert) =>
      let closed := { alert with
        status := .resolved, resolvedAt := some now, availableReserves := availableReserves
        shortfall := 0, coverageFractionBps := 10000, severity := .adequate }
      ({ m with
        alerts := update m.alerts activeId (some closed)
        bondActiveAlerts := update m.bondActiveAlerts bondId none }, some closed)

/-- `evaluate_funding`. -/
def evaluateFunding (bondId : Nat) (liabilities availableReserves : Int) (reason : String) :
    Outcome AlertError (LiabilityReserveAlertManager × Option LiabilityReserveAlert) := do
  reject (liabilities < 0 ∨ availableReserves < 0) .negativeValue
  if liabilities = 0 ∨ liabilities ≤ availableReserves then
    pure (m.restoreFunding now bondId availableReserves)
  else do
    let shortfall ← orTrap (i128 (liabilities - availableReserves))
    let coverage := coverageBps liabilities availableReserves
    let severity := m.severityOf coverage
    let fresh : LiabilityReserveAlert :=
      ⟨m.nextAlertId, bondId, liabilities, availableReserves, shortfall, coverage, severity,
        .active, now, none, none, none, 0, reason⟩
    match m.openAlert bondId with
    | none => m.createAlert fresh
    | some (activeId, existing) =>
        if existing.severity = severity then do
          let retries ← orTrap (u32 (existing.retryCount + 1))
          let amended := { existing with
            retryCount := retries, shortfall := shortfall
            availableReserves := availableReserves, liabilities := liabilities
            coverageFractionBps := coverage, triggeredAt := now }
          pure ({ m with alerts := update m.alerts activeId (some amended) }, some amended)
        else
          -- the new alert overwrites the index entry of the one it replaces
          createAlert { m with
            alerts := update m.alerts activeId
              (some { existing with status := .resolved, resolvedAt := some now }) } fresh

/-- `acknowledge_alert`; `authorized` is the host's answer to `require_auth`. -/
def acknowledgeAlert (authorized : Bool) (now : Nat) (m : LiabilityReserveAlertManager)
    (admin : Address) (alertId : Nat) :
    Outcome AlertError (LiabilityReserveAlertManager × Option LiabilityReserveAlert) := do
  hostRequire (authorized = true)
  let alert ← okOr (m.alerts alertId) .alertNotFound
  reject (alert.status = .resolved) .alreadyResolved
  reject (alert.status = .acknowledged) .alreadyAcknowledged
  let acknowledged := { alert with
    status := .acknowledged, acknowledgedBy := some admin, acknowledgedAt := some now }
  pure ({ m with alerts := update m.alerts alertId (some acknowledged) }, some acknowledged)

/-- `resolve_alert`. -/
def resolveAlert (authorized : Bool) (now : Nat) (m : LiabilityReserveAlertManager)
    (alertId : Nat) (replenishedAmount : Int) :
    Outcome AlertError (LiabilityReserveAlertManager × Option LiabilityReserveAlert) := do
  hostRequire (authorized = true)
  let alert ← okOr (m.alerts alertId) .alertNotFound
  reject (alert.status = .resolved) .alreadyResolved
  reject (replenishedAmount < alert.shortfall) .insufficientReplenishment
  let reserves ← orTrap (i128 (alert.availableReserves + replenishedAmount))
  let closed := { alert with
    status := .resolved, resolvedAt := some now, availableReserves := reserves, shortfall := 0
    coverageFractionBps := 10000, severity := .adequate }
  pure ({ m with
    alerts := update m.alerts alertId (some closed)
    bondActiveAlerts := update m.bondActiveAlerts alert.bondId none }, some closed)

end LiabilityReserveAlertManager

open LiabilityReserveAlertManager

/-- A call, with the ledger time and the host's answer to `require_auth`. -/
inductive AlertInput where
  | evaluateFunding (now bondId : Nat) (liabilities availableReserves : Int) (reason : String)
  | acknowledgeAlert (authorized : Bool) (now : Nat) (admin : Address) (alertId : Nat)
  | resolveAlert (authorized : Bool) (now alertId : Nat) (replenishedAmount : Int)

def alertCall (m : LiabilityReserveAlertManager) :
    AlertInput → Outcome AlertError (LiabilityReserveAlertManager × Option LiabilityReserveAlert)
  | .evaluateFunding now bondId liabilities reserves reason =>
      m.evaluateFunding now bondId liabilities reserves reason
  | .acknowledgeAlert authorized now admin alertId => m.acknowledgeAlert authorized now admin alertId
  | .resolveAlert authorized now alertId amount => m.resolveAlert authorized now alertId amount

/-- A call that fails leaves the manager as it was. -/
def alertStep (m : LiabilityReserveAlertManager) (i : AlertInput) :
    LiabilityReserveAlertManager × Outcome AlertError (Option LiabilityReserveAlert) :=
  match alertCall m i with
  | .ok (m', alert) => (m', .ok alert)
  | .error fault => (m, .error fault)

def alertMachine :
    Machine LiabilityReserveAlertManager AlertInput
      (Outcome AlertError (Option LiabilityReserveAlert)) := ⟨alertStep⟩

/-! ## Moves -/

namespace LiabilityReserveAlert

/-- The alert is not resolved. -/
def Open (a : LiabilityReserveAlert) : Prop := a.status ≠ .resolved

/-- The shortfall is what the reserves lack. -/
def Short (a : LiabilityReserveAlert) : Prop :=
  a.shortfall = a.liabilities - a.availableReserves ∧ 0 < a.shortfall

end LiabilityReserveAlert

/-- **What a call does to the table and the index**, one alert at a time. -/
inductive AlertMove (m : LiabilityReserveAlertManager) : LiabilityReserveAlertManager → Prop where
  | amend {id : Nat} {a a' : LiabilityReserveAlert} (ha : m.alerts id = some a) (hopen : a.Open)
      (hid : a'.alertId = a.alertId) (hbond : a'.bondId = a.bondId) (hopen' : a'.Open)
      (hshort : a'.Short) : AlertMove m { m with alerts := update m.alerts id (some a') }
  | close {id : Nat} {a a' : LiabilityReserveAlert} (ha : m.alerts id = some a) (hopen : a.Open)
      (hid : a'.alertId = a.alertId) (hclosed : ¬ a'.Open) :
      AlertMove m { m with
        alerts := update m.alerts id (some a')
        bondActiveAlerts := update m.bondActiveAlerts a.bondId none }
  | raise {a : LiabilityReserveAlert} (hnone : m.bondActiveAlerts a.bondId = none)
      (hid : a.alertId = m.nextAlertId) (hopen : a.Open) (hshort : a.Short) :
      AlertMove m { m with
        alerts := update m.alerts m.nextAlertId (some a)
        bondActiveAlerts := update m.bondActiveAlerts a.bondId (some m.nextAlertId)
        nextAlertId := m.nextAlertId + 1 }

/-- **The invariant**: the table is keyed by ids below the next one, an open alert has its
shortfall, and the index names exactly the open alerts. -/
structure AlertsIndexed (m : LiabilityReserveAlertManager) : Prop where
  table : ∀ id a, m.alerts id = some a →
    a.alertId = id ∧ id < m.nextAlertId ∧ (a.Open → a.Short)
  index : ∀ bond id, m.bondActiveAlerts bond = some id ↔
    ∃ a, m.alerts id = some a ∧ a.bondId = bond ∧ a.Open

theorem update_some_iff {α : Type} {f : Nat → Option α} {k j : Nat} {v x : α} :
    update f k (some v) j = some x ↔ j = k ∧ v = x ∨ j ≠ k ∧ f j = some x := by
  by_cases h : j = k
  · subst h
    simp
  · simp [h]

namespace AlertsIndexed

variable {m m' : LiabilityReserveAlertManager} {id : Nat} {a a' : LiabilityReserveAlert}

/-- An open alert is the one its bond's index entry names. -/
theorem entry (hm : AlertsIndexed m) (ha : m.alerts id = some a) (hopen : a.Open) :
    m.bondActiveAlerts a.bondId = some id := (hm.index a.bondId id).mpr ⟨a, ha, rfl, hopen⟩

theorem move (hm : AlertsIndexed m) (h : AlertMove m m') : AlertsIndexed m' := by
  cases h with
  | @amend id a a' ha hopen hid hbond hopen' hshort =>
      refine ⟨fun k x hx => ?_, fun bond k => (hm.index bond k).trans ?_⟩
      · rcases update_some_iff.mp hx with ⟨rfl, rfl⟩ | ⟨-, hx⟩
        · exact ⟨hid.trans (hm.table k a ha).1, (hm.table k a ha).2.1, fun _ => hshort⟩
        · exact hm.table k x hx
      · by_cases hk : k = id
        · subst hk
          simp [ha, hbond, hopen, hopen']
        · simp [hk]
  | @close id a a' ha hopen hid hclosed =>
      refine ⟨fun k x hx => ?_, fun bond k => ?_⟩
      · rcases update_some_iff.mp hx with ⟨rfl, rfl⟩ | ⟨-, hx⟩
        · exact ⟨hid.trans (hm.table k a ha).1, (hm.table k a ha).2.1, fun h => absurd h hclosed⟩
        · exact hm.table k x hx
      -- the bond's entry goes with its open alert; other bonds keep both
      simp only [update_some_iff]
      by_cases hb : bond = a.bondId
      · subst hb
        simp only [update_self, reduceCtorEq, false_iff]
        rintro ⟨x, ⟨rfl, rfl⟩ | ⟨hk, hx⟩, hxb, hxo⟩
        · exact hclosed hxo
        · have := hxb ▸ hm.entry hx hxo
          exact hk (Option.some.inj (this.symm.trans (hm.entry ha hopen)))
      · rw [update_of_ne hb, hm.index bond k]
        constructor
        · rintro ⟨x, hx, hxb, hxo⟩
          refine ⟨x, .inr ⟨?_, hx⟩, hxb, hxo⟩
          rintro rfl
          exact hb (Option.some.inj (hx.symm.trans ha) ▸ hxb.symm)
        · rintro ⟨x, ⟨rfl, rfl⟩ | ⟨-, hx⟩, hxb, hxo⟩
          · exact absurd hxo hclosed
          · exact ⟨x, hx, hxb, hxo⟩
  | @raise a hnone hid hopen hshort =>
      refine ⟨fun k x hx => ?_, fun bond k => ?_⟩
      · rcases update_some_iff.mp hx with ⟨rfl, rfl⟩ | ⟨-, hx⟩
        · exact ⟨hid, Nat.lt_succ_self _, fun _ => hshort⟩
        · obtain ⟨h1, h2, h3⟩ := hm.table k x hx
          exact ⟨h1, h2.trans (Nat.lt_succ_self _), h3⟩
      simp only [update_some_iff]
      constructor
      · rintro (⟨rfl, rfl⟩ | ⟨-, hentry⟩)
        · exact ⟨a, .inl ⟨rfl, rfl⟩, rfl, hopen⟩
        · obtain ⟨x, hx, hxb, hxo⟩ := (hm.index bond k).mp hentry
          exact ⟨x, .inr ⟨(hm.table k x hx).2.1.ne, hx⟩, hxb, hxo⟩
      · rintro ⟨x, ⟨rfl, rfl⟩ | ⟨-, hx⟩, rfl, hxo⟩
        · exact .inl ⟨rfl, rfl⟩
        · have hentry := hm.entry hx hxo
          refine .inr ⟨fun h => ?_, hentry⟩
          rw [h, hnone] at hentry
          cases hentry

theorem openAlert_spec (hm : AlertsIndexed m) (bond : Nat) :
    (m.openAlert bond = none ∧ m.bondActiveAlerts bond = none) ∨
      ∃ id a, m.openAlert bond = some (id, a) ∧ m.alerts id = some a ∧ a.bondId = bond ∧ a.Open := by
  cases hentry : m.bondActiveAlerts bond with
  | none => exact .inl ⟨by simp [openAlert, hentry], rfl⟩
  | some id =>
      obtain ⟨a, ha, hbond, hopen⟩ := (hm.index bond id).mp hentry
      exact .inr ⟨id, a, by simp [openAlert, hentry, ha], ha, hbond, hopen⟩

end AlertsIndexed

section Calls

variable {m m' : LiabilityReserveAlertManager} {answer : Option LiabilityReserveAlert}

/-- A call makes a sequence of moves: none, one, or a close and a raise. -/
abbrev AlertMoves := ReflTransGen AlertMove

theorem createAlert_move {a : LiabilityReserveAlert} (hnone : m.bondActiveAlerts a.bondId = none)
    (hid : a.alertId = m.nextAlertId) (hopen : a.Open) (hshort : a.Short)
    (h : m.createAlert a = .ok (m', answer)) : AlertMove m m' := by
  simp only [createAlert, bind_ok_iff, orTrap_ok_iff, u64_eq_some, pure_ok_iff, Prod.mk.injEq] at h
  obtain ⟨_, ⟨-, rfl⟩, rfl, -⟩ := h
  exact .raise hnone hid hopen hshort

theorem evaluateFunding_moves (hm : AlertsIndexed m) {now bond : Nat} {liabilities reserves : Int}
    {reason : String}
    (h : m.evaluateFunding now bond liabilities reserves reason = .ok (m', answer)) :
    AlertMoves m m' := by
  simp only [evaluateFunding, bind_ok_iff, exists_unit_iff] at h
  obtain ⟨-, h⟩ := h
  by_cases hfunded : liabilities = 0 ∨ liabilities ≤ reserves
  · rw [if_pos hfunded, pure_ok_iff, restoreFunding] at h
    rcases hm.openAlert_spec bond with ⟨hnone, -⟩ | ⟨id, a, hsome, ha, rfl, hopen⟩
    · rw [hnone, Prod.mk.injEq] at h
      rw [h.1]
    · rw [hsome, Prod.mk.injEq] at h
      rw [← h.1]
      exact .single (.close ha hopen rfl (by simp [LiabilityReserveAlert.Open]))
  rw [if_neg hfunded] at h
  simp only [bind_ok_iff, orTrap_ok_iff, i128_eq_some] at h
  obtain ⟨_, ⟨-, rfl⟩, h⟩ := h
  have hpos : 0 < liabilities - reserves := by omega
  rcases hm.openAlert_spec bond with ⟨hnone, hentry⟩ | ⟨id, a, hsome, ha, rfl, hopen⟩
  · rw [hnone] at h
    exact .single (createAlert_move hentry rfl (by simp [LiabilityReserveAlert.Open]) ⟨rfl, hpos⟩ h)
  rw [hsome] at h
  by_cases hseverity : a.severity = m.severityOf (coverageBps liabilities reserves)
  · simp only [if_pos hseverity, bind_ok_iff, orTrap_ok_iff, u32_eq_some, pure_ok_iff,
      Prod.mk.injEq] at h
    obtain ⟨_, ⟨-, rfl⟩, rfl, -⟩ := h
    exact .single (.amend ha hopen rfl rfl hopen ⟨rfl, hpos⟩)
  · -- the old alert is closed first; that its index entry is overwritten comes to the same
    simp only [if_neg hseverity] at h
    have hid : { a with status := .resolved, resolvedAt := some now }.alertId = a.alertId := rfl
    refine .head (.close ha hopen hid (by simp [LiabilityReserveAlert.Open])) (.single ?_)
    simp only [createAlert, bind_ok_iff, orTrap_ok_iff, u64_eq_some, pure_ok_iff,
      Prod.mk.injEq] at h
    obtain ⟨_, ⟨-, rfl⟩, rfl, -⟩ := h
    have hraise := AlertMove.raise (m := { m with
        alerts := update m.alerts id (some { a with status := .resolved, resolvedAt := some now })
        bondActiveAlerts := update m.bondActiveAlerts a.bondId none })
      (a := ⟨m.nextAlertId, a.bondId, liabilities, reserves, liabilities - reserves,
        coverageBps liabilities reserves, m.severityOf (coverageBps liabilities reserves), .active,
        now, none, none, none, 0, reason⟩)
      (update_self ..) rfl (by simp [LiabilityReserveAlert.Open]) ⟨rfl, hpos⟩
    simpa only [update_idem] using hraise

variable {authorized : Bool}

theorem acknowledgeAlert_moves (hm : AlertsIndexed m) {now id : Nat} {admin : Address}
    (h : m.acknowledgeAlert authorized now admin id = .ok (m', answer)) : AlertMoves m m' := by
  simp only [acknowledgeAlert, bind_ok_iff, okOr_ok_iff, reject_ok_iff, pure_ok_iff,
    exists_unit_iff, Prod.mk.injEq] at h
  obtain ⟨-, a, ha, hopen, -, rfl, -⟩ := h
  exact .single (.amend ha hopen rfl rfl (by simp [LiabilityReserveAlert.Open])
    ((hm.table id a ha).2.2 hopen))

theorem resolveAlert_moves {now id : Nat} {amount : Int}
    (h : m.resolveAlert authorized now id amount = .ok (m', answer)) : AlertMoves m m' := by
  simp only [resolveAlert, bind_ok_iff, okOr_ok_iff, orTrap_ok_iff, i128_eq_some, reject_ok_iff,
    pure_ok_iff, exists_unit_iff, Prod.mk.injEq] at h
  obtain ⟨-, a, ha, hopen, -, _, ⟨-, rfl⟩, rfl, -⟩ := h
  exact .single (.close ha hopen rfl (by simp [LiabilityReserveAlert.Open]))

/-- **Every call is a sequence of moves.** -/
theorem alertStep_moves (hm : AlertsIndexed m) (i : AlertInput) :
    AlertMoves m (alertMachine.step m i).1 := by
  show AlertMoves m (alertStep m i).1
  unfold alertStep
  cases hcall : alertCall m i with
  | error fault => exact .refl
  | ok result =>
      obtain ⟨m', answer⟩ := result
      cases i with
      | evaluateFunding => exact evaluateFunding_moves hm hcall
      | acknowledgeAlert => exact acknowledgeAlert_moves hm hcall
      | resolveAlert => exact resolveAlert_moves hcall

end Calls

/-! ## Runs -/

variable {m m' : LiabilityReserveAlertManager}

/-- What every move keeps holds after every run, along with the invariant. -/
theorem run_keeps {P : LiabilityReserveAlertManager → Prop} (hm : AlertsIndexed m) (h0 : P m)
    (hmove : ∀ t t', AlertsIndexed t → AlertMove t t' → P t → P t') (l : List AlertInput) :
    AlertsIndexed (alertMachine.run m l) ∧ P (alertMachine.run m l) := by
  refine alertMachine.run_invariant (P := fun t => AlertsIndexed t ∧ P t) ⟨hm, h0⟩
    (fun t i ht => ?_) l
  have hmoves := alertStep_moves ht.1 i
  generalize (alertMachine.step t i).1 = t' at hmoves
  induction hmoves with
  | refl => exact ht
  | tail _ hlast ih => exact ⟨ih.1.move hlast, hmove _ _ ih.1 hlast ih.2⟩

/-- No move touches a closed alert. -/
theorem AlertMove.keeps_closed (hm : AlertsIndexed m) (h : AlertMove m m') {id : Nat}
    {a : LiabilityReserveAlert} (ha : m.alerts id = some a) (hclosed : ¬ a.Open) :
    m'.alerts id = some a := by
  cases h with
  | @amend k x _ hx hopen | @close k x _ hx hopen =>
      have hne : id ≠ k := by
        rintro rfl
        cases ha.symm.trans hx
        exact hclosed hopen
      exact (update_of_ne hne ..).trans ha
  | raise => exact (update_of_ne (hm.table id a ha).2.1.ne ..).trans ha

/-- An id below the next one that names no alert never will. -/
theorem AlertMove.keeps_unused (h : AlertMove m m') {id : Nat} (hid : id < m.nextAlertId)
    (hnone : m.alerts id = none) : id < m'.nextAlertId ∧ m'.alerts id = none := by
  cases h with
  | @amend k x _ hx | @close k x _ hx =>
      have hne : id ≠ k := by
        rintro rfl
        cases hnone.symm.trans hx
      exact ⟨hid, (update_of_ne hne ..).trans hnone⟩
  | raise => exact ⟨hid.trans (Nat.lt_succ_self _), (update_of_ne hid.ne ..).trans hnone⟩

theorem alertsIndexed_new {warning critical : Nat} (h : new warning critical = .ok m) :
    AlertsIndexed m := by
  simp only [new, bind_ok_iff, pure_ok_iff, exists_unit_iff] at h
  obtain ⟨-, rfl⟩ := h
  exact ⟨fun _ _ h => (by cases h), fun _ _ => (by simp)⟩

/-- **One open alert per bond, closed for good.** After every run from a new manager: the index maps
a bond to exactly its open alert, of which there is at most one; an open alert has its shortfall; a
resolved alert stays as it is in every continuation; an alert is stored under its own id, and every
alert that a continuation adds has a larger id than all present. -/
theorem reserve_alerts_sound (warning critical : Nat) (m₀ : LiabilityReserveAlertManager)
    (h₀ : new warning critical = .ok m₀) (l : List AlertInput) :
    let m := alertMachine.run m₀ l
    (∀ bond id, m.bondActiveAlerts bond = some id ↔
      ∃ a, m.alerts id = some a ∧ a.bondId = bond ∧ a.status ≠ .resolved) ∧
    (∀ id id' a a', m.alerts id = some a → m.alerts id' = some a' → a.bondId = a'.bondId →
      a.status ≠ .resolved → a'.status ≠ .resolved → id = id') ∧
    (∀ id a, m.alerts id = some a → a.status ≠ .resolved →
      a.shortfall = a.liabilities - a.availableReserves ∧ 0 < a.shortfall) ∧
    (∀ id a, m.alerts id = some a → a.status = .resolved →
      ∀ l', (alertMachine.run m l').alerts id = some a) ∧
    (∀ id a, m.alerts id = some a → a.alertId = id) ∧
    ∀ l' id a, m.alerts id = none → (alertMachine.run m l').alerts id = some a →
      ∀ id' a', m.alerts id' = some a' → id' < id := by
  intro m
  have hm : AlertsIndexed m := (run_keeps (P := fun _ => True) (alertsIndexed_new h₀) trivial
    (fun _ _ _ _ _ => trivial) l).1
  refine ⟨hm.index, ?_, fun id a ha => (hm.table id a ha).2.2, ?_,
    fun id a ha => (hm.table id a ha).1, ?_⟩
  · intro id id' a a' ha ha' hbond hopen hopen'
    have hentry := hm.entry ha hopen
    rw [hbond, hm.entry ha' hopen'] at hentry
    exact (Option.some.inj hentry).symm
  · intro id a ha hclosed l'
    exact (run_keeps (P := fun t => t.alerts id = some a) hm ha
      (fun t t' ht hmove hta => hmove.keeps_closed ht hta (not_not.mpr hclosed)) l').2
  · intro l' id a hnone hsome id' a' ha'
    by_contra hle
    have hid : id < m.nextAlertId := lt_of_le_of_lt (not_lt.mp hle) (hm.table id' a' ha').2.1
    have hkeep := (run_keeps (P := fun t => id < t.nextAlertId ∧ t.alerts id = none) hm ⟨hid, hnone⟩
      (fun t t' _ hmove ht => hmove.keeps_unused ht.1 ht.2) l').2.2
    rw [hkeep] at hsome
    cases hsome

/-- A warning that turns critical is closed and replaced; the second alert is the open one. -/
theorem reserve_alerts_sound_escalation :
    ∃ m₀, new 9000 8000 = .ok m₀ ∧
      let m := alertMachine.run m₀ [.evaluateFunding 1 7 100 90 "", .evaluateFunding 2 7 100 60 ""]
      m.bondActiveAlerts 7 = some 2 ∧ ∃ a, m.alerts 2 = some a ∧ a.bondId = 7 ∧ a.status ≠ .resolved :=
  ⟨_, rfl, rfl, ((reserve_alerts_sound 9000 8000 _ rfl
    [.evaluateFunding 1 7 100 90 "", .evaluateFunding 2 7 100 60 ""]).1 7 2).mp rfl⟩

end VerdantBond
