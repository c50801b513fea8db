import VerdantBond.Issuer.Supply

set_option autoImplicit false

/-! # BondIssuer: the preview of a subscription

`preview_subscribe` repeats the checks of `subscribe` without an investor. It leaves out what
depends on the investor or on the history: the nonce, the checkpoint counters, and the overflow of
the investor's own balance. The last cannot happen in a reachable state, where a balance is at most
the subscribed total and the total at most the supply (`Bond.subscribe_of_clean`).
-/

namespace VerdantBond

open Function Bond

/-- `error as u32`: the codes count from one in the order of declaration. -/
def BondError.code (e : BondError) : Nat := e.ctorIdx + 1

structure PreviewSubscription where
  remainingSupply : Int
  requestedAmount : Int
  expectedFailure : Option Nat

/-- The first check of `subscribe` that would fail. -/
def Bond.expectedFailure (clock : Clock) (b : Bond) (config : BondConfig) (state : BondState)
    (amount : Int) : Option BondError :=
  if b.subscriptionAuctionRequired = true then some .auctionRequired
  else if amount ≤ 0 then some .zeroAmount
  else if state.status ≠ .active ∨ config.maturityDate ≤ clock.timestamp then
    some .bondAlreadyMatured
  else
    match i128 (state.totalSubscribed + amount) with
    | none => some .overflow
    | some newTotal => if config.totalSupply < newTotal then some .insufficientSupply else none

/-- `preview_subscribe`. The subtraction is not checked: the host aborts on overflow. -/
def BondIssuer.previewSubscribe (clock : Clock) (s : BondIssuer) (bondId : Nat) (amount : Int) :
    Outcome BondError PreviewSubscription := do
  let config ← okOr (s.bond bondId).config .bondNotFound
  let state ← okOr (s.bond bondId).state .bondNotFound
  let expected := (s.bond bondId).expectedFailure clock config state amount
  let remaining ← orTrap (i128 (config.totalSupply - state.totalSubscribed))
  pure ⟨remaining, amount, expected.map BondError.code⟩

/-! ## The supply of a reachable bond is bounded -/

/-- A step keeps the configuration, or issues a bond with a supply within the limit. -/
theorem BondStep.config_cases {clock : Clock} {kind : CallKind} {b b' : Bond}
    (h : BondStep clock kind b b') :
    b'.config = b.config ∨ ∃ config, b'.config = some config ∧ config.totalSupply ≤ maxSupply := by
  cases h with
  | issue config _ _ hmax | issueAuction config _ _ _ hmax => exact .inr ⟨config, rfl, hmax⟩
  | same | openCycle | pay => exact .inl rfl
  | subscribe _ h =>
      obtain ⟨_, _, _, _, -, -, -, -, -, -, -, -, -, rfl⟩ := subscribe_ok h
      exact .inl rfl
  | transfer h =>
      obtain ⟨_, _, _, _, -, -, -, -, -, -, -, -, -, -, -, -, rfl⟩ := transfer_ok h
      exact .inl rfl
  | grant h =>
      obtain ⟨_, -, -, -, -, -, -, rfl⟩ := grantSubscription_ok h
      exact .inl rfl
  | commit h =>
      obtain ⟨_, _, _, -, -, -, -, -, -, -, -, rfl⟩ := commitSubscription_ok h
      exact .inl rfl
  | settle h =>
      obtain ⟨_, _, _, _, m, _, -, -, -, -, -, -, -, -, hm, -, rfl⟩ := settleSubscription_ok h
      left
      show m.bond.config = b.config
      rw [(foldlM_mintAndRefund_ok hm).1]
  | mature h =>
      obtain ⟨_, _, -, -, -, -, rfl⟩ := mature_ok h
      exact .inl rfl
  | fund h =>
      obtain ⟨_, -, -, -, rfl⟩ := fund_ok h
      exact .inl rfl
  | configureBudget _ h =>
      obtain ⟨_, -, -, -, -, rfl⟩ := configureBudget_ok h
      exact .inl rfl
  | request _ _ h =>
      obtain ⟨-, rfl⟩ := push_ok h
      exact .inl rfl

theorem issuerRun_supply_le (clock : Clock) (self admin : Address) (l : List IssuerInput) (id : Nat) :
    ∀ config, ((issuerRun clock self admin l).issuer.bond id).config = some config →
      config.totalSupply ≤ maxSupply := by
  refine bond_invariant clock self admin
    (P := fun b => ∀ config, b.config = some config → config.totalSupply ≤ maxSupply)
    (fun _ h => by cases h) ?_ l id
  intro clock kind b b' hb h config hc
  rcases h.config_cases with hsame | ⟨config', hc', hmax⟩
  · exact hb config (hsame ▸ hc)
  · cases hc'.symm.trans hc
    exact hmax

/-! ## The preview agrees with the call -/

/-- The counters a subscription advances are below their maximum. -/
structure Bond.CountersFree (b : Bond) (investor : Address) : Prop where
  version : b.balanceVersion < u64Max
  holder : (b.holderLog investor).count < u32Max
  supply : b.supplyLog.count < u32Max

theorem VersionLog.append_of_lt {log : VersionLog Int} (h : log.count < u32Max) (version : Nat)
    (previous value : Int) : ∃ log', log.append version previous value = some log' := by
  have hseeded : (log.seeded previous).count + 1 ≤ u32Max := by
    unfold seeded
    by_cases h0 : log.count = 0
    · rw [if_pos h0]
      show 1 + 1 ≤ u32Max
      decide
    · rw [if_neg h0]
      omega
  exact ⟨_, by rw [append, u32_of hseeded, Option.map_some]⟩

namespace Bond

variable {clock : Clock} {b : Bond} {config : BondConfig} {state : BondState} {amount : Int}

/-- A balance is at most the subscribed total. -/
theorem Sound.balance_le (hb : b.Sound) (hstate : b.state = some state) (h : Address) :
    0 ≤ b.holderBalance h ∧ b.holderBalance h ≤ state.totalSubscribed := by
  refine ⟨hb.ledger.nonneg h, ?_⟩
  rw [← totalSubscribed_eq hstate]
  exact le_of_le_of_eq (le_finsum hb.ledger.finiteSupport hb.ledger.nonneg h) hb.ledger.sum

/-- What a clean preview has checked. -/
theorem expectedFailure_eq_none : b.expectedFailure clock config state amount = none ↔
    b.subscriptionAuctionRequired = false ∧ 0 < amount ∧ state.status = .active ∧
      clock.timestamp < config.maturityDate ∧ InI128 (state.totalSubscribed + amount) ∧
      state.totalSubscribed + amount ≤ config.totalSupply := by
  unfold expectedFailure
  by_cases hopen : b.subscriptionAuctionRequired = true
  · simp [hopen]
  by_cases hamount : amount ≤ 0
  · simp [hopen, hamount]
  by_cases hactive : state.status ≠ .active ∨ config.maturityDate ≤ clock.timestamp
  · rw [if_neg hopen, if_neg hamount, if_pos hactive]
    simp only [reduceCtorEq, false_iff]
    rintro ⟨-, -, h1, h2, -⟩
    exact hactive.elim (fun h => h h1) (fun h => absurd h2 (not_lt.mpr h))
  rw [if_neg hopen, if_neg hamount, if_neg hactive]
  push Not at hactive
  by_cases hin : InI128 (state.totalSubscribed + amount)
  · by_cases hle : state.totalSubscribed + amount ≤ config.totalSupply
    · simp [i128_of hin, hin, hactive, hle, not_le.mp hamount, Bool.eq_false_iff.mpr hopen]
    · simp [i128_of hin, hle, not_le.mp hle]
  · simp [i128, hin]

/-- **A clean preview**: no check of `subscribe` is left that could fail. -/
theorem subscribe_of_clean (hb : b.Sound) (hconfig : b.config = some config)
    (hstate : b.state = some state) {investor : Address} (hfree : b.CountersFree investor)
    (h : b.expectedFailure clock config state amount = none) :
    ∃ b', b.subscribe clock investor amount = .ok b' := by
  obtain ⟨-, hpos, hactive, hdate, hin, hle⟩ := expectedFailure_eq_none.mp h
  obtain ⟨h0, hbalance⟩ := hb.balance_le hstate investor
  have hin' : InI128 (b.holderBalance investor + amount) := .of_nonneg_le (by omega) (by omega) hin
  obtain ⟨hl, hhl⟩ := VersionLog.append_of_lt hfree.holder (b.balanceVersion + 1)
    (b.holderBalance investor) (b.holderBalance investor + amount)
  obtain ⟨sl, hsl⟩ := VersionLog.append_of_lt hfree.supply (b.balanceVersion + 1)
    state.totalSubscribed (state.totalSubscribed + amount)
  rw [subscribe, reject_of_not (by omega), ok_bind, hconfig, okOr_some, ok_bind, hstate, okOr_some,
    ok_bind, reject_of_not (not_not.mpr hactive), ok_bind, reject_of_not (not_le.mpr hdate), ok_bind,
    i128_of hin, okOr_some, ok_bind, reject_of_not (not_lt.mpr hle), ok_bind, i128_of hin',
    okOr_some, ok_bind]
  simp only [advanceBalanceVersion, u64_of hfree.version, okOr_some, ok_bind, pure_eq_ok,
    appendHolderCheckpoint, hhl, appendSupplyCheckpoint, hsl, Except.ok.injEq, exists_eq']

/-- **A predicted failure** is the error `subscribe` returns. -/
theorem subscribe_of_failure (hconfig : b.config = some config) (hstate : b.state = some state)
    (hopen : b.subscriptionAuctionRequired = false) {e : BondError} {investor : Address}
    (h : b.expectedFailure clock config state amount = some e) :
    b.subscribe clock investor amount = .error (.err e) := by
  unfold expectedFailure at h
  rw [if_neg (by simp [hopen])] at h
  rw [subscribe, hconfig, okOr_some, hstate, okOr_some]
  by_cases hamount : amount ≤ 0
  · rw [if_pos hamount, Option.some.injEq] at h
    rw [reject, if_pos hamount, h]
    rfl
  rw [if_neg hamount] at h
  rw [reject_of_not hamount, ok_bind, ok_bind, ok_bind]
  by_cases hactive : state.status ≠ .active
  · rw [if_pos (.inl hactive), Option.some.injEq] at h
    rw [reject, if_pos hactive, h]
    rfl
  rw [reject_of_not hactive, ok_bind]
  by_cases hdate : config.maturityDate ≤ clock.timestamp
  · rw [if_pos (.inr hdate), Option.some.injEq] at h
    rw [reject, if_pos hdate, h]
    rfl
  rw [if_neg (not_or.mpr ⟨hactive, hdate⟩)] at h
  rw [reject_of_not hdate, ok_bind]
  cases hsum : i128 (state.totalSubscribed + amount) with
  | none =>
      rw [hsum, Option.some.injEq] at h
      rw [h]
      rfl
  | some newTotal =>
      simp only [hsum] at h
      by_cases hlt : config.totalSupply < newTotal
      · rw [if_pos hlt, Option.some.injEq] at h
        rw [okOr_some, ok_bind, reject, if_pos hlt, h]
        rfl
      · rw [if_neg hlt] at h
        cases h

end Bond

namespace BondIssuer

variable {clock : Clock} {s : BondIssuer} {id : Nat} {config : BondConfig} {state : BondState}
  {investor : Address} {nonce : Nat} {amount : Int}

theorem subscribe_iff_clean (hb : (s.bond id).Sound) (hconfig : (s.bond id).config = some config)
    (hstate : (s.bond id).state = some state) (hfree : (s.bond id).CountersFree investor)
    (hnonce : ∃ s₁, s.consumeNonce investor nonce = .ok s₁) :
    (s.bond id).expectedFailure clock config state amount = none ↔
      ∃ s', s.subscribe clock investor id amount nonce = .ok s' := by
  obtain ⟨s₁, hs₁⟩ := hnonce
  constructor
  · intro h
    obtain ⟨b', hb'⟩ := subscribe_of_clean hb hconfig hstate hfree h
    have hopen := (expectedFailure_eq_none.mp h).1
    exact ⟨_, by rw [subscribe, reject_of_not (by simp [hopen]), ok_bind, hs₁, ok_bind, hb', ok_bind,
      pure_eq_ok]⟩
  · rintro ⟨s', h⟩
    obtain ⟨hopen, -, b', hb', -⟩ := subscribe_ok h
    cases he : (s.bond id).expectedFailure clock config state amount with
    | none => rfl
    | some e =>
        rw [subscribe_of_failure hconfig hstate hopen he] at hb'
        cases hb'

theorem subscribe_failure (hconfig : (s.bond id).config = some config)
    (hstate : (s.bond id).state = some state)
    (hnonce : ∃ s₁, s.consumeNonce investor nonce = .ok s₁) {e : BondError}
    (h : (s.bond id).expectedFailure clock config state amount = some e) :
    s.subscribe clock investor id amount nonce = .error (.err e) := by
  obtain ⟨s₁, hs₁⟩ := hnonce
  by_cases hopen : (s.bond id).subscriptionAuctionRequired = true
  · rw [expectedFailure, if_pos hopen, Option.some.injEq] at h
    rw [subscribe, reject, if_pos hopen, h]
    rfl
  · rw [subscribe, reject_of_not hopen, ok_bind, hs₁, ok_bind,
      subscribe_of_failure hconfig hstate (Bool.eq_false_iff.mpr hopen) h]
    rfl

end BondIssuer

/-- **The preview predicts the call.** After every run, for every existing bond with free checkpoint
counters and every call whose nonce is accepted: a clean preview means that `subscribe` succeeds, any
other names the error it returns, and the remaining supply of an open bond is the largest amount it
accepts. -/
theorem preview_predicts_subscribe (clock : Clock) (self admin : Address) (l : List IssuerInput)
    (id : Nat) (config : BondConfig) (state : BondState) (investor : Address) (nonce : Nat)
    (hconfig : ((issuerRun clock self admin l).issuer.bond id).config = some config)
    (hstate : ((issuerRun clock self admin l).issuer.bond id).state = some state)
    (hfree : ((issuerRun clock self admin l).issuer.bond id).CountersFree investor)
    (hnonce : ∃ s₁, (issuerRun clock self admin l).issuer.consumeNonce investor nonce = .ok s₁)
    (amount : Int) :
    let w := issuerRun clock self admin l
    let accepts (x : Int) := ∃ s', w.issuer.subscribe w.clock investor id x nonce = .ok s'
    ∃ preview, w.issuer.previewSubscribe w.clock id amount = .ok preview ∧
      (preview.expectedFailure = none ↔ accepts amount) ∧
      (∀ code, preview.expectedFailure = some code → ∃ e : BondError, code = e.code ∧
        w.issuer.subscribe w.clock investor id amount nonce = .error (.err e)) ∧
      ((w.issuer.bond id).subscriptionAuctionRequired = false → state.status = .active →
        w.clock.timestamp < config.maturityDate → 0 < preview.remainingSupply →
        accepts preview.remainingSupply ∧ ∀ x, accepts x → x ≤ preview.remainingSupply) := by
  intro w accepts
  have hb : (w.issuer.bond id).Sound := issuerRun_sound clock self admin l id
  have hmax : config.totalSupply ≤ maxSupply := issuerRun_supply_le clock self admin l id config hconfig
  have hcap : state.totalSubscribed ≤ config.totalSupply :=
    Bond.totalSubscribed_eq hstate ▸ hb.cap config hconfig
  have h0 : 0 ≤ state.totalSubscribed := (hb.balance_le hstate investor).1.trans
    (hb.balance_le hstate investor).2
  have hsupply : InI128 maxSupply := by decide
  have hremaining : InI128 (config.totalSupply - state.totalSubscribed) :=
    .of_nonneg_le (by omega) (by omega) hsupply
  have hiff : ∀ x, (w.issuer.bond id).expectedFailure w.clock config state x = none ↔ accepts x :=
    fun x => BondIssuer.subscribe_iff_clean hb hconfig hstate hfree hnonce
  refine ⟨⟨config.totalSupply - state.totalSubscribed, amount,
    ((w.issuer.bond id).expectedFailure w.clock config state amount).map BondError.code⟩,
    ?_, ?_, ?_, ?_⟩
  · rw [BondIssuer.previewSubscribe, hconfig, okOr_some, ok_bind, hstate, okOr_some, ok_bind,
      i128_of hremaining, orTrap_some, ok_bind, pure_eq_ok]
  · rw [← hiff amount, Option.map_eq_none_iff]
  · intro code hcode
    obtain ⟨e, he, rfl⟩ := Option.map_eq_some_iff.mp hcode
    exact ⟨e, rfl, BondIssuer.subscribe_failure hconfig hstate hnonce he⟩
  · intro hopen hactive hdate hpos
    simp only at hpos ⊢
    constructor
    · refine (hiff _).mp (Bond.expectedFailure_eq_none.mpr ⟨hopen, hpos, hactive, hdate, ?_, ?_⟩)
      · exact .of_nonneg_le (by omega) (by omega) hsupply
      · omega
    · intro x hx
      obtain ⟨-, -, -, -, -, hle⟩ := Bond.expectedFailure_eq_none.mp ((hiff x).mpr hx)
      omega

/-- In the sample run 45 of 50 units are left: that much can be subscribed, and no more. -/
theorem preview_predicts_sample :
    (∃ s', (issuerRun ⟨10, 100⟩ ⟨0⟩ ⟨1⟩ sampleSubscription).issuer.subscribe ⟨10, 100⟩ ⟨2⟩ 1 45 1
        = .ok s') ∧
      (issuerRun ⟨10, 100⟩ ⟨0⟩ ⟨1⟩ sampleSubscription).issuer.subscribe ⟨10, 100⟩ ⟨2⟩ 1 46 1
        = .error (.err .insufficientSupply) := by
  have hfree : ((issuerRun ⟨10, 100⟩ ⟨0⟩ ⟨1⟩ sampleSubscription).issuer.bond 1).CountersFree ⟨2⟩ :=
    ⟨by decide, by decide, by decide⟩
  constructor
  · obtain ⟨preview, hpreview, hiff, -⟩ := preview_predicts_subscribe ⟨10, 100⟩ ⟨0⟩ ⟨1⟩
      sampleSubscription 1 sampleConfig ⟨5, .active, 100⟩ ⟨2⟩ 1 (by decide) (by decide) hfree
      ⟨_, rfl⟩ 45
    refine hiff.mp ?_
    cases hpreview
    rfl
  · rfl

end VerdantBond
