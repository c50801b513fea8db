import VerdantBond.Issuer.State

set_option autoImplicit false

/-! # BondIssuer: balances and their checkpoints

The functions of `bond-issuer/src/lib.rs` that move a holder's balance, on the record of one
bond: `subscribe`, `transfer` and `settle_redemption`, with the checkpoints they write and the
two historical reads. Each of the three advances the balance version by one and writes a
checkpoint for every holder it touched; a transfer leaves the supply log alone.

Every function has one lemma `…_ok` that lists the checks a successful call made and the record
it leaves.
-/

namespace VerdantBond

open Function

/-- `MAX_SUPPLY`. -/
def maxSupply : Int := 1000000000000000000

namespace Bond

/-! ## Checkpoints -/

/-- `advance_balance_version`; the new version is `balanceVersion` of the result. -/
def advanceBalanceVersion (b : Bond) : Outcome BondError Bond := do
  let next ← okOr (u64 (b.balanceVersion + 1)) .overflow
  pure { b with balanceVersion := next }

/-- `append_holder_checkpoint`. -/
def appendHolderCheckpoint (b : Bond) (holder : Address) (version : Nat)
    (previousBalance balance : Int) : Outcome BondError Bond := do
  let log ← okOr ((b.holderLog holder).append version previousBalance balance) .overflow
  pure { b with holderLog := update b.holderLog holder log }

/-- `append_supply_checkpoint`. -/
def appendSupplyCheckpoint (b : Bond) (version : Nat) (previousTotalSubscribed totalSubscribed : Int) :
    Outcome BondError Bond := do
  let log ← okOr (b.supplyLog.append version previousTotalSubscribed totalSubscribed) .overflow
  pure { b with supplyLog := log }

/-- `holder_balance_at_version`. A holder without checkpoints has its live balance. -/
def holderBalanceAtVersion (b : Bond) (holder : Address) (version : Nat) : Outcome BondError Int :=
  if (b.holderLog holder).count = 0 then
    .ok (b.holderBalance holder)
  else
    (b.holderLog holder).search .bondNotFound .overflow 0 version

/-- `total_subscribed_at_version`. -/
def totalSubscribedAtVersion (b : Bond) (version : Nat) : Outcome BondError Int :=
  if b.supplyLog.count = 0 then do
    let state ← okOr b.state .bondNotFound
    pure state.totalSubscribed
  else
    b.supplyLog.search .bondNotFound .overflow 0 version

/-! ## Direct subscription -/

/-- The body of `subscribe` after the auction check and the nonce. -/
def subscribe (clock : Clock) (b : Bond) (investor : Address) (amount : Int) :
    Outcome BondError Bond := do
  reject (amount ≤ 0) .zeroAmount
  let config ← okOr b.config .bondNotFound
  let state ← okOr b.state .bondNotFound
  reject (state.status ≠ .active) .bondAlreadyMatured
  reject (config.maturityDate ≤ clock.timestamp) .bondAlreadyMatured
  let newTotal ← okOr (i128 (state.totalSubscribed + amount)) .overflow
  reject (config.totalSupply < newTotal) .insufficientSupply
  let newBalance ← okOr (i128 (b.holderBalance investor + amount)) .overflow
  let b₁ ← advanceBalanceVersion
    { b with holderBalance := update b.holderBalance investor newBalance
             state := some { state with totalSubscribed := newTotal } }
  let b₂ ← b₁.appendHolderCheckpoint investor b₁.balanceVersion (b.holderBalance investor) newBalance
  b₂.appendSupplyCheckpoint b₁.balanceVersion state.totalSubscribed newTotal

/-! ## Transfer -/

/-- `validate_transfer`; `blocked` is the compliance list. -/
def validateTransfer (blocked : Address → Bool) (clock : Clock) (b : Bond)
    (source target : Address) (amount : Int) : Outcome BondError Unit := do
  reject (target = source) .unauthorized
  reject (amount ≤ 0) .zeroAmount
  let config ← okOr b.config .bondNotFound
  let state ← okOr b.state .bondNotFound
  reject (state.status ≠ .active) .bondAlreadyMatured
  reject (config.maturityDate ≤ clock.timestamp) .bondAlreadyMatured
  reject (b.holderBalance source < amount) .insufficientSupply
  let _ ← okOr (i128 (b.holderBalance target + amount)) .overflow
  reject (blocked source = true) .unauthorized
  reject (blocked target = true) .unauthorized

/-- The body of `transfer` after the nonce. -/
def transfer (blocked : Address → Bool) (clock : Clock) (b : Bond) (source target : Address)
    (amount : Int) : Outcome BondError Bond := do
  validateTransfer blocked clock b source target amount
  let newFrom ← okOr (i128 (b.holderBalance source - amount)) .overflow
  -- the recipient's balance is read after the sender's was written
  let debited := update b.holderBalance source newFrom
  let newTo ← okOr (i128 (debited target + amount)) .overflow
  let b₁ ← advanceBalanceVersion { b with holderBalance := update debited target newTo }
  let b₂ ← b₁.appendHolderCheckpoint source b₁.balanceVersion (b.holderBalance source) newFrom
  b₂.appendHolderCheckpoint target b₁.balanceVersion (debited target) newTo

/-! ## Redemption of units -/

/-- `settle_redemption`: burn `amount` units against the redemption pool. -/
def settleRedemption (b : Bond) (holder : Address) (amount : Int) : Outcome BondError Bond := do
  reject (amount ≤ 0) .zeroAmount
  let state ← okOr b.state .bondNotFound
  let config ← okOr b.config .bondNotFound
  reject (state.status ≠ .matured) .bondAlreadyMatured
  reject (b.holderBalance holder < amount) .insufficientSupply
  let payout ← okOr (i128 (amount * config.faceValue)) .overflow
  reject (b.redemptionPool < payout) .redemptionUnderfunded
  let pool ← orTrap (i128 (b.redemptionPool - payout))
  let newBalance ← okOr (i128 (b.holderBalance holder - amount)) .overflow
  let newTotal ← okOr (i128 (state.totalSubscribed - amount)) .overflow
  let b₁ ← advanceBalanceVersion
    { b with redemptionPool := pool
             holderBalance := update b.holderBalance holder newBalance
             state := some { state with totalSubscribed := newTotal } }
  let b₂ ← b₁.appendHolderCheckpoint holder b₁.balanceVersion (b.holderBalance holder) newBalance
  b₂.appendSupplyCheckpoint b₁.balanceVersion state.totalSubscribed newTotal

/-! ## What a successful call did -/

variable {b b' : Bond} {holder : Address} {version : Nat} {clock : Clock} {amount : Int}

theorem advanceBalanceVersion_ok (h : b.advanceBalanceVersion = .ok b') :
    b.balanceVersion + 1 ≤ u64Max ∧ b' = { b with balanceVersion := b.balanceVersion + 1 } := by
  simp only [advanceBalanceVersion, bind_ok_iff, okOr_ok_iff, u64_eq_some, pure_ok_iff] at h
  obtain ⟨_, ⟨hle, rfl⟩, rfl⟩ := h
  exact ⟨hle, rfl⟩

theorem appendHolderCheckpoint_ok {previous balance : Int}
    (h : b.appendHolderCheckpoint holder version previous balance = .ok b') :
    ∃ log, (b.holderLog holder).append version previous balance = some log ∧
      b' = { b with holderLog := update b.holderLog holder log } := by
  simp only [appendHolderCheckpoint, bind_ok_iff, okOr_ok_iff, pure_ok_iff] at h
  obtain ⟨log, hlog, rfl⟩ := h
  exact ⟨log, hlog, rfl⟩

theorem appendSupplyCheckpoint_ok {previous total : Int}
    (h : b.appendSupplyCheckpoint version previous total = .ok b') :
    ∃ log, b.supplyLog.append version previous total = some log ∧
      b' = { b with supplyLog := log } := by
  simp only [appendSupplyCheckpoint, bind_ok_iff, okOr_ok_iff, pure_ok_iff] at h
  obtain ⟨log, hlog, rfl⟩ := h
  exact ⟨log, hlog, rfl⟩

/-- The record a subscription leaves. -/
theorem subscribe_ok {investor : Address} (h : b.subscribe clock investor amount = .ok b') :
    ∃ config state holderLog supplyLog,
      0 < amount ∧ b.config = some config ∧ b.state = some state ∧
      state.status = .active ∧ clock.timestamp < config.maturityDate ∧
      state.totalSubscribed + amount ≤ config.totalSupply ∧
      b.balanceVersion + 1 ≤ u64Max ∧
      (b.holderLog investor).append (b.balanceVersion + 1) (b.holderBalance investor)
        (b.holderBalance investor + amount) = some holderLog ∧
      b.supplyLog.append (b.balanceVersion + 1) state.totalSubscribed
        (state.totalSubscribed + amount) = some supplyLog ∧
      b' = { b with
        state := some { state with totalSubscribed := state.totalSubscribed + amount }
        holderBalance := update b.holderBalance investor (b.holderBalance investor + amount)
        balanceVersion := b.balanceVersion + 1
        holderLog := update b.holderLog investor holderLog
        supplyLog := supplyLog } := by
  simp only [subscribe, bind_ok_iff, reject_ok_iff, okOr_ok_iff, i128_eq_some, not_not,
    exists_unit_iff, not_le, not_lt] at h
  obtain ⟨hpos, config, hc, state, hs, hact, hmat, _, ⟨-, rfl⟩, hsup, _, ⟨-, rfl⟩, b₁, h1, b₂, h2,
    h3⟩ := h
  obtain ⟨hv, rfl⟩ := advanceBalanceVersion_ok h1
  obtain ⟨hl, hhl, rfl⟩ := appendHolderCheckpoint_ok h2
  obtain ⟨sl, hsl, rfl⟩ := appendSupplyCheckpoint_ok h3
  exact ⟨config, state, hl, sl, hpos, hc, hs, hact, hmat, hsup, hv, hhl, hsl, rfl⟩

/-- The record a transfer leaves. -/
theorem transfer_ok {blocked : Address → Bool} {source target : Address}
    (h : b.transfer blocked clock source target amount = .ok b') :
    ∃ config state sourceLog targetLog,
      0 < amount ∧ target ≠ source ∧ b.config = some config ∧ b.state = some state ∧
      state.status = .active ∧ clock.timestamp < config.maturityDate ∧
      amount ≤ b.holderBalance source ∧
      blocked source = false ∧ blocked target = false ∧
      b.balanceVersion + 1 ≤ u64Max ∧
      (b.holderLog source).append (b.balanceVersion + 1) (b.holderBalance source)
        (b.holderBalance source - amount) = some sourceLog ∧
      (b.holderLog target).append (b.balanceVersion + 1) (b.holderBalance target)
        (b.holderBalance target + amount) = some targetLog ∧
      b' = { b with
        holderBalance := update (update b.holderBalance source (b.holderBalance source - amount))
          target (b.holderBalance target + amount)
        balanceVersion := b.balanceVersion + 1
        holderLog := update (update b.holderLog source sourceLog) target targetLog } := by
  simp only [transfer, validateTransfer, bind_ok_iff, reject_ok_iff, okOr_ok_iff, i128_eq_some,
    not_not, exists_unit_iff, not_le, not_lt, Bool.not_eq_true] at h
  obtain ⟨⟨hne, hpos, config, hc, state, hs, hact, hmat, hbal, _, ⟨-, rfl⟩, hbs, hbt⟩, _, ⟨-, rfl⟩,
    _, ⟨-, rfl⟩, b₁, h1, b₂, h2, h3⟩ := h
  rw [update_of_ne hne] at h1 h3
  obtain ⟨hv, rfl⟩ := advanceBalanceVersion_ok h1
  obtain ⟨ls, hls, rfl⟩ := appendHolderCheckpoint_ok h2
  obtain ⟨lt, hlt, rfl⟩ := appendHolderCheckpoint_ok h3
  simp only [update_of_ne hne] at hlt
  exact ⟨config, state, ls, lt, hpos, hne, hc, hs, hact, hmat, hbal, hbs, hbt, hv, hls, hlt, rfl⟩

/-- The record a redemption of units leaves. -/
theorem settleRedemption_ok (h : b.settleRedemption holder amount = .ok b') :
    ∃ config state holderLog supplyLog,
      0 < amount ∧ b.config = some config ∧ b.state = some state ∧ state.status = .matured ∧
      amount ≤ b.holderBalance holder ∧ amount * config.faceValue ≤ b.redemptionPool ∧
      b.balanceVersion + 1 ≤ u64Max ∧
      (b.holderLog holder).append (b.balanceVersion + 1) (b.holderBalance holder)
        (b.holderBalance holder - amount) = some holderLog ∧
      b.supplyLog.append (b.balanceVersion + 1) state.totalSubscribed
        (state.totalSubscribed - amount) = some supplyLog ∧
      b' = { b with
        state := some { state with totalSubscribed := state.totalSubscribed - amount }
        holderBalance := update b.holderBalance holder (b.holderBalance holder - amount)
        balanceVersion := b.balanceVersion + 1
        holderLog := update b.holderLog holder holderLog
        supplyLog := supplyLog
        redemptionPool := b.redemptionPool - amount * config.faceValue } := by
  simp only [settleRedemption, bind_ok_iff, reject_ok_iff, okOr_ok_iff, orTrap_ok_iff, i128_eq_some,
    not_not, exists_unit_iff, not_le, not_lt] at h
  obtain ⟨hpos, state, hs, config, hc, hmat, hbal, _, ⟨-, rfl⟩, hpool, _, ⟨-, rfl⟩, _, ⟨-, rfl⟩,
    _, ⟨-, rfl⟩, b₁, h1, b₂, h2, h3⟩ := h
  obtain ⟨hv, rfl⟩ := advanceBalanceVersion_ok h1
  obtain ⟨hl, hhl, rfl⟩ := appendHolderCheckpoint_ok h2
  obtain ⟨sl, hsl, rfl⟩ := appendSupplyCheckpoint_ok h3
  exact ⟨config, state, hl, sl, hpos, hc, hs, hmat, hbal, hpool, hv, hhl, hsl, rfl⟩

end Bond

end VerdantBond
