import VerdantBond.Issuer.Balances

set_option autoImplicit false

/-! # BondIssuer: the redemption queue

`bond-issuer/src/redemption_queue.rs`. Holders of a matured bond queue requests; `process` pays
them strictly in order from the redemption pool, within a budget per cycle of ledgers.

`process` keeps the head cursor and the cycle's usage in local variables and writes them back at
the end. `QueueRun` holds these variables next to the bond's record, and `QueueRun.view` is the
record with them written back. One round of the loop is `turn`; it stops, pays the request at the
head in part, or completes it (`turn_ok`).
-/

namespace VerdantBond

open Function

def defaultRedemptionBudget : Int := 1000000000
def defaultRedemptionCycle : Nat := 720
def maxRedemptionBatch : Nat := 50

namespace Bond

/-- `budget`. -/
def budget (b : Bond) : RedemptionBudget :=
  b.redemptionBudget.getD ⟨defaultRedemptionBudget, defaultRedemptionCycle⟩

/-- The usage of the cycle number `current`: a usage stored for another cycle counts as none. -/
def usageIn (b : Bond) (current : Nat) : RedemptionCycle :=
  let value := b.redemptionCycle.getD ⟨current, 0⟩
  if value.cycle = current then value else ⟨current, 0⟩

theorem usageIn_cycle (b : Bond) (current : Nat) : (b.usageIn current).cycle = current := by
  unfold usageIn
  by_cases h : (b.redemptionCycle.getD ⟨current, 0⟩).cycle = current
  · simp [h]
  · simp [h]

/-- `cycle`. -/
def cycle (clock : Clock) (b : Bond) (config : RedemptionBudget) :
    Outcome BondError RedemptionCycle := do
  hostRequire (config.ledgersPerCycle ≠ 0)
  pure (b.usageIn (clock.sequence / config.ledgersPerCycle))

/-! ## Queueing -/

/-- The checks of `enqueue` before the nonce is consumed. -/
def checkRequest (b : Bond) (holder : Address) (amount : Int) : Outcome BondError Unit := do
  let state ← okOr b.state .bondNotFound
  reject (state.status ≠ .matured) .bondAlreadyMatured
  reject (amount ≤ 0) .zeroAmount
  let free ← okOr (i128 (b.holderBalance holder - b.redemptionReserved holder)) .overflow
  reject (free < amount) .insufficientSupply

/-- The writes of `enqueue`; the queue id is the new tail. -/
def push (clock : Clock) (b : Bond) (holder : Address) (amount : Int) (requestKey : Bytes32) :
    Outcome BondError Bond := do
  let id ← okOr (u64 (b.redemptionTail + 1)) .overflow
  let reserved ← okOr (i128 (b.redemptionReserved holder + amount)) .overflow
  let request : RedemptionRequest :=
    { id := id, holder := holder, requestKey := requestKey, submittedLedger := clock.sequence
      amount := amount, remaining := amount }
  pure { b with
    redemptionRequest := update b.redemptionRequest id (some request)
    redemptionId := update b.redemptionId holder
      (update (b.redemptionId holder) requestKey (some (id, amount)))
    redemptionTail := id
    redemptionHead := if b.redemptionHead = 0 then 1 else b.redemptionHead
    redemptionReserved := update b.redemptionReserved holder reserved
    -- the default budget is frozen too
    redemptionBudget := some b.budget }

end Bond

namespace BondIssuer

/-- `enqueue`. A known `(holder, request_key)` returns its id, or fails on another amount. -/
def enqueue (clock : Clock) (s : BondIssuer) (holder : Address) (bondId : Nat) (amount : Int)
    (requestKey : Bytes32) (nonce : Nat) : Outcome BondError (BondIssuer × Nat) :=
  match (s.bond bondId).redemptionId holder requestKey with
  | some (id, queuedAmount) => do
      reject (queuedAmount ≠ amount) .duplicateRedemptionRequest
      pure (s, id)
  | none => do
      (s.bond bondId).checkRequest holder amount
      let s₁ ← s.consumeNonce holder nonce
      let b ← (s.bond bondId).push clock holder amount requestKey
      pure (s₁.setBond bondId b, b.redemptionTail)

end BondIssuer

/-! ## Processing -/

/-- The variables of the loop in `process`. -/
structure QueueRun where
  bond : Bond
  head : Nat
  usage : RedemptionCycle
  completed : Nat

namespace QueueRun

/-- The bond's record once the cursor and the usage are written back. -/
def view (r : QueueRun) : Bond :=
  { r.bond with redemptionHead := r.head, redemptionCycle := some r.usage }

/-- Pay `amount` units of the request at the head. -/
def payRequest (config : BondConfig) (r : QueueRun) (request : RedemptionRequest) (amount : Int) :
    Outcome BondError QueueRun := do
  let payout ← okOr (i128 (amount * config.faceValue)) .overflow
  let b ← r.bond.settleRedemption request.holder amount
  let paid ← okOr (i128 (r.usage.paid + payout)) .overflow
  let remaining ← orTrap (i128 (request.remaining - amount))
  let nextReserved ← okOr (i128 (b.redemptionReserved request.holder - amount)) .overflow
  pure { r with
    bond := { b with
      redemptionReserved := update b.redemptionReserved request.holder nextReserved
      redemptionRequest := update b.redemptionRequest r.head
        (some { request with remaining := remaining }) }
    usage := { r.usage with paid := paid } }

/-- One round of the loop, with whether the loop goes on. -/
def turn (config : BondConfig) (budget : RedemptionBudget) (tail : Nat) (r : QueueRun) :
    Outcome BondError (QueueRun × Bool) :=
  if r.head = 0 ∨ tail < r.head then
    .ok (r, false)
  else do
    let room ← okOr (i128 (budget.principalPerCycle - r.usage.paid)) .overflow
    let available := min r.bond.redemptionPool room
    let request ← okOr (r.bond.redemptionRequest r.head) .redemptionQueueRequired
    let amount := min request.remaining (available.tdiv config.faceValue)
    if amount ≤ 0 then
      .ok (r, false)
    else do
      let r' ← r.payRequest config request amount
      if request.remaining - amount ≠ 0 then
        .ok (r', false)
      else do
        let head ← okOr (u64 (r.head + 1)) .overflow
        .ok ({ r' with head := head, completed := r'.completed + 1 }, true)

/-- The loop of `process`, over at most `fuel` requests. -/
def loop (config : BondConfig) (budget : RedemptionBudget) (tail : Nat) :
    Nat → QueueRun → Outcome BondError QueueRun
  | 0, r => .ok r
  | fuel + 1, r => do
      let (r', again) ← r.turn config budget tail
      if again then loop config budget tail fuel r' else .ok r'

/-- The bond's record after each round of the loop. -/
def visits (config : BondConfig) (budget : RedemptionBudget) (tail : Nat) :
    Nat → QueueRun → List Bond
  | 0, _ => []
  | fuel + 1, r =>
      match r.turn config budget tail with
      | .ok (r', again) =>
          r'.view :: (if again then visits config budget tail fuel r' else [])
      | .error _ => []

end QueueRun

namespace Bond

/-- The loop variables `process` starts with. -/
def processStart (clock : Clock) (b : Bond) : Outcome BondError (BondConfig × QueueRun) := do
  let config ← okOr b.config .bondNotFound
  reject (config.faceValue ≤ 0) .invalidRedemptionBudget
  let usage ← b.cycle clock b.budget
  pure (config, { bond := b, head := b.redemptionHead, usage := usage, completed := 0 })

/-- `process`, with the number of completed requests. -/
def process (clock : Clock) (b : Bond) (limit : Nat) : Outcome BondError (Bond × Nat) := do
  let (config, start) ← b.processStart clock
  let r ← start.loop config b.budget b.redemptionTail (min limit maxRedemptionBatch)
  pure (r.view, r.completed)

/-- The records `process` passes through: the current cycle's usage, then each round. -/
def processVisits (clock : Clock) (b : Bond) (limit : Nat) : List Bond :=
  match b.processStart clock with
  | .ok (config, start) =>
      start.view :: start.visits config b.budget b.redemptionTail (min limit maxRedemptionBatch)
  | .error _ => []

end Bond

/-! ## What a successful call did -/

namespace Bond

variable {clock : Clock} {b : Bond} {holder : Address} {amount : Int}

theorem cycle_ok {config : RedemptionBudget} {usage : RedemptionCycle}
    (h : b.cycle clock config = .ok usage) :
    config.ledgersPerCycle ≠ 0 ∧ usage = b.usageIn (clock.sequence / config.ledgersPerCycle) := by
  simp only [cycle, bind_ok_iff, hostRequire_ok_iff, pure_ok_iff, exists_unit_iff] at h
  exact ⟨h.1, h.2.symm⟩

theorem checkRequest_ok (h : b.checkRequest holder amount = .ok ()) :
    ∃ state, b.state = some state ∧ state.status = .matured ∧ 0 < amount ∧ InI128 amount ∧
      amount ≤ b.holderBalance holder - b.redemptionReserved holder := by
  simp only [checkRequest, bind_ok_iff, reject_ok_iff, okOr_ok_iff, i128_eq_some, exists_unit_iff,
    not_not, not_le, not_lt] at h
  obtain ⟨state, hs, hmat, hpos, _, ⟨hin, rfl⟩, hfree⟩ := h
  exact ⟨state, hs, hmat, hpos, .of_nonneg_le (le_of_lt hpos) hfree hin, hfree⟩

/-- The record a queued request leaves. -/
def queued (clock : Clock) (b : Bond) (holder : Address) (amount : Int) (requestKey : Bytes32) :
    Bond :=
  { b with
    redemptionRequest := update b.redemptionRequest (b.redemptionTail + 1)
      (some { id := b.redemptionTail + 1, holder := holder, requestKey := requestKey
              submittedLedger := clock.sequence, amount := amount, remaining := amount })
    redemptionId := update b.redemptionId holder
      (update (b.redemptionId holder) requestKey (some (b.redemptionTail + 1, amount)))
    redemptionTail := b.redemptionTail + 1
    redemptionHead := if b.redemptionHead = 0 then 1 else b.redemptionHead
    redemptionReserved := update b.redemptionReserved holder (b.redemptionReserved holder + amount)
    redemptionBudget := some b.budget }

theorem push_ok {b' : Bond} {requestKey : Bytes32}
    (h : b.push clock holder amount requestKey = .ok b') :
    b.redemptionTail + 1 ≤ u64Max ∧ b' = b.queued clock holder amount requestKey := by
  simp only [push, bind_ok_iff, okOr_ok_iff, u64_eq_some, i128_eq_some, pure_ok_iff] at h
  obtain ⟨_, ⟨hle, rfl⟩, _, ⟨-, rfl⟩, rfl⟩ := h
  exact ⟨hle, rfl⟩

end Bond

/-- A successful `enqueue` replays a known request and changes nothing, or queues a new one. -/
theorem BondIssuer.enqueue_ok {clock : Clock} {s s' : BondIssuer} {holder : Address} {bondId id : Nat}
    {amount : Int} {requestKey : Bytes32} {nonce : Nat}
    (h : s.enqueue clock holder bondId amount requestKey nonce = .ok (s', id)) :
    ((s.bond bondId).redemptionId holder requestKey = some (id, amount) ∧ s' = s) ∨
    ((s.bond bondId).redemptionId holder requestKey = none ∧
      (s.bond bondId).checkRequest holder amount = .ok () ∧
      ∃ s₁ b, s.consumeNonce holder nonce = .ok s₁ ∧
        (s.bond bondId).push clock holder amount requestKey = .ok b ∧
        s' = s₁.setBond bondId b ∧ id = b.redemptionTail) := by
  unfold BondIssuer.enqueue at h
  cases hk : (s.bond bondId).redemptionId holder requestKey with
  | some known =>
      obtain ⟨id', queued⟩ := known
      simp only [hk, bind_ok_iff, reject_ok_iff, pure_ok_iff, exists_unit_iff, not_not,
        Prod.mk.injEq] at h
      obtain ⟨rfl, rfl, rfl⟩ := h
      exact .inl ⟨rfl, rfl⟩
  | none =>
      simp only [hk, bind_ok_iff, pure_ok_iff, exists_unit_iff, Prod.mk.injEq] at h
      obtain ⟨hadm, s₁, hn, b, hb, rfl, rfl⟩ := h
      exact .inr ⟨rfl, hadm, s₁, b, hn, hb, rfl, rfl⟩

namespace QueueRun

variable {config : BondConfig}

/-- The variables a payment leaves. -/
theorem payRequest_ok {r r' : QueueRun} {request : RedemptionRequest} {amount : Int}
    (h : r.payRequest config request amount = .ok r') :
    ∃ b, r.bond.settleRedemption request.holder amount = .ok b ∧
      r' = { r with
        bond := { b with
          redemptionReserved := update b.redemptionReserved request.holder
            (b.redemptionReserved request.holder - amount)
          redemptionRequest := update b.redemptionRequest r.head
            (some { request with remaining := request.remaining - amount }) }
        usage := { r.usage with paid := r.usage.paid + amount * config.faceValue } } := by
  simp only [payRequest, bind_ok_iff, okOr_ok_iff, orTrap_ok_iff, i128_eq_some, pure_ok_iff] at h
  obtain ⟨_, ⟨-, rfl⟩, b, hb, _, ⟨-, rfl⟩, _, ⟨-, rfl⟩, _, ⟨-, rfl⟩, rfl⟩ := h
  exact ⟨b, hb, rfl⟩

/-- The units one round pays of `request`. -/
def due (config : BondConfig) (budget : RedemptionBudget) (r : QueueRun)
    (request : RedemptionRequest) : Int :=
  min request.remaining
    ((min r.bond.redemptionPool (budget.principalPerCycle - r.usage.paid)).tdiv config.faceValue)

/-- **The three outcomes of a round**: it stops, pays the head in part, or completes it. -/
theorem turn_ok {budget : RedemptionBudget} {tail : Nat} {r r' : QueueRun} {again : Bool}
    (h : r.turn config budget tail = .ok (r', again)) :
    (r' = r ∧ again = false ∧ (r.head = 0 ∨ tail < r.head ∨
      ∃ request, r.bond.redemptionRequest r.head = some request ∧
        r.due config budget request ≤ 0)) ∨
    ∃ request paid, r.head ≠ 0 ∧ r.head ≤ tail ∧ r.bond.redemptionRequest r.head = some request ∧
      0 < r.due config budget request ∧
      r.payRequest config request (r.due config budget request) = .ok paid ∧
      ((request.remaining - r.due config budget request ≠ 0 ∧ r' = paid ∧ again = false) ∨
       (request.remaining - r.due config budget request = 0 ∧ r.head + 1 ≤ u64Max ∧
        r' = { paid with head := r.head + 1, completed := paid.completed + 1 } ∧ again = true)) := by
  unfold turn at h
  by_cases hstop : r.head = 0 ∨ tail < r.head
  · rw [if_pos hstop] at h
    simp only [Except.ok.injEq, Prod.mk.injEq] at h
    exact .inl ⟨h.1.symm, h.2.symm, hstop.imp_right .inl⟩
  rw [if_neg hstop] at h
  simp only [bind_ok_iff, okOr_ok_iff, i128_eq_some] at h
  obtain ⟨_, ⟨-, rfl⟩, request, hreq, h⟩ := h
  by_cases hzero : r.due config budget request ≤ 0
  · rw [if_pos (by exact hzero)] at h
    simp only [Except.ok.injEq, Prod.mk.injEq] at h
    exact .inl ⟨h.1.symm, h.2.symm, .inr (.inr ⟨request, hreq, hzero⟩)⟩
  rw [if_neg (by exact hzero)] at h
  simp only [bind_ok_iff] at h
  obtain ⟨paid, hpay, h⟩ := h
  refine .inr ⟨request, paid, ?_, ?_, hreq, by omega, hpay, ?_⟩
  · exact fun h0 => hstop (.inl h0)
  · exact Nat.le_of_not_lt fun hlt => hstop (.inr hlt)
  by_cases hrem : request.remaining - r.due config budget request ≠ 0
  · rw [if_pos (by exact hrem)] at h
    simp only [Except.ok.injEq, Prod.mk.injEq] at h
    exact .inl ⟨hrem, h.1.symm, h.2.symm⟩
  · rw [if_neg (by exact hrem)] at h
    simp only [bind_ok_iff, okOr_ok_iff, u64_eq_some, Except.ok.injEq, Prod.mk.injEq] at h
    obtain ⟨_, ⟨hle, rfl⟩, rfl, rfl⟩ := h
    exact .inr ⟨not_not.mp hrem, hle, rfl, rfl⟩

end QueueRun

namespace Bond

variable {clock : Clock}

theorem processStart_ok {b : Bond} {config : BondConfig} {start : QueueRun}
    (h : b.processStart clock = .ok (config, start)) :
    b.config = some config ∧ 0 < config.faceValue ∧ b.budget.ledgersPerCycle ≠ 0 ∧
      start = { bond := b, head := b.redemptionHead, completed := 0
                usage := b.usageIn (clock.sequence / b.budget.ledgersPerCycle) } := by
  simp only [processStart, bind_ok_iff, okOr_ok_iff, reject_ok_iff, pure_ok_iff, exists_unit_iff,
    not_le, Prod.mk.injEq] at h
  obtain ⟨_, hc, hface, usage, hu, rfl, rfl⟩ := h
  obtain ⟨hl, rfl⟩ := cycle_ok hu
  exact ⟨hc, hface, hl, rfl⟩

theorem process_ok {b b' : Bond} {limit completed : Nat}
    (h : b.process clock limit = .ok (b', completed)) :
    ∃ config start r, b.processStart clock = .ok (config, start) ∧
      start.loop config b.budget b.redemptionTail (min limit maxRedemptionBatch) = .ok r ∧
      b' = r.view ∧ completed = r.completed := by
  simp only [process, bind_ok_iff, pure_ok_iff, Prod.mk.injEq] at h
  obtain ⟨⟨config, start⟩, hs, r, hr, rfl, rfl⟩ := h
  exact ⟨config, start, r, hs, hr, rfl, rfl⟩

end Bond

end VerdantBond
