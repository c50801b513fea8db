import VerdantBond.Coupon.EntryPoints

set_option autoImplicit false

/-! # CouponEngine: what a call does

Three relations say once what a successful call can do, and every invariant of the engine is derived
from them. `CouponWrite` is the record the call leaves for the bond it names, to the last field.
`CouponStep` is the same as far as credits are concerned. `AccountStep` is about one holder's account:
a call moves an account by steps of one kind, and which kind it is can be read off the call
(`CouponCall.kind`).
-/

namespace VerdantBond

open Function Relation
open CouponReply (ofUnit ofResult)

/-! ## Accounts -/

/-- What a call may do to one account. -/
inductive CreditKind where
  | distribution (periodIndex : Nat)
  | waterfall
  | claim
  | consumption (amount : Int)
  | correction (amount : Int)
  | none
  deriving DecidableEq

/-- One move of an account, on a bond with `periodCount` completed periods. -/
inductive AccountStep (periodCount : Nat) : CreditKind → Account → Account → Prop where
  | escrow {a a' : Account} {p : Nat} {t : CreditType} {amount : Int} (ht : t ∈ paidTypes)
      (hpos : 0 < amount) (h : a.credit (.period p t) amount = .ok a') :
      AccountStep periodCount (.distribution p) a a'
  | accrue {a a' : Account} {t : CreditType} {amount : Int} (ht : t ∈ paidTypes)
      (hpos : 0 < amount) (h : a.credit (.waterfall t) amount = .ok a') :
      AccountStep periodCount .waterfall a a'
  | claim (a : Account) : AccountStep periodCount .claim a (a.claim periodCount)
  | consume {a a' : Account} {amount : Int} (hpos : 0 < amount)
      (h : a.consume periodCount amount = .ok a') :
      AccountStep periodCount (.consumption amount) a a'
  | correct {a a' : Account} {amount : Int} (h : a.debitCombined amount = .ok a') :
      AccountStep periodCount (.correction amount) a a'

/-- An account moves by steps of one kind. -/
abbrev AccountMoves (periodCount : Nat) (kind : CreditKind) : Account → Account → Prop :=
  ReflTransGen (AccountStep periodCount kind)

/-- The kind of step a call makes on the account of `holder` under the bond `id`. -/
def CouponCall.kind (call : CouponCall) (id : Nat) (holder : Address) : CreditKind :=
  match call with
  | .distributeCoupon _ bondId periodIndex _ _ _ =>
      if bondId = id then .distribution periodIndex else .none
  | .distributeCouponBatch batch =>
      if batch.bondId = id then .distribution batch.periodIndex else .none
  | .claimWaterfall claimant bondId _ _ _ =>
      if bondId = id then if claimant = holder then .waterfall else .none else .none
  | .claimCredits caller bondId _ =>
      if bondId = id then if caller = holder then .claim else .none else .none
  | .consumeCredits owner bondId amount =>
      if bondId = id then if owner = holder then .consumption amount else .none else .none
  | .confirmRetirement _ bondId owner amount _ | .revertPayout _ bondId owner amount _ =>
      if bondId = id then if owner = holder then .correction amount else .none else .none
  | .registerBond .. | .submitTrueUpAdjustment .. | .settleWaterfall .. | .sweepUndistributed ..
  | .setAdmin .. | .setMinPerformanceAttestations .. | .clearPerformanceFlag ..
  | .beginMigration .. | .finalizeMigration .. | .rollbackMigration .. | .configureCovenant ..
  | .setEquivalenceGovernance .. | .publishEquivalence .. => .none

/-! ## Batches -/

theorem escrowPositive_moves {periodCount period : Nat} {a a' : Account} {t : CreditType}
    {amount : Int} (ht : t ∈ paidTypes) (h : a.escrowPositive period t amount = .ok a') :
    AccountMoves periodCount (.distribution period) a a' := by
  unfold Account.escrowPositive at h
  split at h
  · next hpos => exact .single (.escrow ht hpos h)
  · injection h with h
    rw [h]

namespace Payout

variable {period periodCount bondId : Nat} {p p' : Payout} {holder : Address} {shares : Pools}
  {issuer : BondIssuer} {creditType : CreditType} {calculation : CouponCalculation}
  {totalCredits : Int}

/-- What crediting one holder does: nothing, or the two shares go to its account. -/
theorem payShares_ok (h : p.payShares period holder shares = .ok p') :
    (shares.carbon + shares.biodiversity ≤ 0 ∧ p' = p) ∨
      (0 < shares.carbon + shares.biodiversity ∧ ∃ a₁ a₂,
        (p.account holder).escrowPositive period .carbon shares.carbon = .ok a₁ ∧
        a₁.escrowPositive period .biodiversity shares.biodiversity = .ok a₂ ∧
        p' = ⟨update p.account holder a₂,
          p.totalHolderCredits + (shares.carbon + shares.biodiversity), p.holderCount + 1⟩) := by
  simp only [payShares, bind_ok_iff, okOr_ok_iff, i128_eq_some] at h
  obtain ⟨_, ⟨-, rfl⟩, h⟩ := h
  split at h
  · next hpos =>
      simp only [bind_ok_iff, okOr_ok_iff, i128_eq_some, orTrap_ok_iff, u32_eq_some,
        pure_ok_iff] at h
      obtain ⟨_, ⟨-, rfl⟩, a₁, h₁, a₂, h₂, _, ⟨-, rfl⟩, rfl⟩ := h
      exact .inr ⟨hpos, a₁, a₂, h₁, h₂, rfl⟩
  · next hpos =>
      injection h with h
      exact .inl ⟨not_lt.mp hpos, h.symm⟩

theorem payShares_moves (h : p.payShares period holder shares = .ok p') (x : Address) :
    AccountMoves periodCount (.distribution period) (p.account x) (p'.account x) := by
  rcases payShares_ok h with ⟨-, rfl⟩ | ⟨-, a₁, a₂, h₁, h₂, rfl⟩
  · exact .refl
  · by_cases hx : x = holder
    · subst hx
      show AccountMoves periodCount (.distribution period) (p.account x) (update p.account x a₂ x)
      rw [update_self]
      exact (escrowPositive_moves (by decide) h₁).trans (escrowPositive_moves (by decide) h₂)
    · show AccountMoves _ _ _ (update p.account holder a₂ x)
      rw [update_of_ne hx]

theorem payHolder_ok
    (h : p.payHolder issuer bondId period creditType calculation totalCredits holder = .ok p') :
    ∃ balance,
      issuer.getHolderBalanceAtVersion bondId holder calculation.balanceVersion = .ok balance ∧
      ((balance ≤ 0 ∧ p' = p) ∨ (0 < balance ∧ ∃ shares,
        holderShares creditType calculation totalCredits balance = .ok shares ∧
        p.payShares period holder shares = .ok p')) := by
  simp only [payHolder, bind_ok_iff, invoke_ok_iff] at h
  obtain ⟨balance, hbalance, h⟩ := h
  refine ⟨balance, hbalance, ?_⟩
  split at h
  · next hpos =>
      simp only [bind_ok_iff] at h
      exact .inr ⟨hpos, h⟩
  · next hpos =>
      injection h with h
      exact .inl ⟨not_lt.mp hpos, h.symm⟩

/-- The loop only adds to accounts, by distribution steps of its period. -/
theorem payHolders_moves {holders : List Address} (n i : Nat) (p p' : Payout)
    (h : payHolders issuer bondId period creditType calculation totalCredits holders n i p
      = .ok p') (x : Address) :
    AccountMoves periodCount (.distribution period) (p.account x) (p'.account x) := by
  induction n generalizing i p with
  | zero =>
      unfold payHolders at h
      injection h with h
      rw [h]
  | succ n ih =>
      simp only [payHolders, bind_ok_iff, okOr_ok_iff, reject_ok_iff, exists_unit_iff] at h
      obtain ⟨holder, -, -, p₁, hpay, hrest⟩ := h
      refine ReflTransGen.trans ?_ (ih (i + 1) p₁ hrest)
      obtain ⟨balance, -, ⟨-, rfl⟩ | ⟨-, shares, -, hshares⟩⟩ := payHolder_ok hpay
      · exact .refl
      · exact payShares_moves hshares x

end Payout

/-! ## The record of a bond -/

namespace CouponBond

/-- Everything the credit invariants read is unchanged. -/
structure SameCredits (b b' : CouponBond) : Prop where
  bondCreditType : b'.bondCreditType = b.bondCreditType
  periodInfo : b'.periodInfo = b.periodInfo
  periodBatchCursor : b'.periodBatchCursor = b.periodBatchCursor
  periodCount : b'.periodCount = b.periodCount
  account : b'.account = b.account
  settlements : b'.waterfallSettlementAllocations = b.waterfallSettlementAllocations
  waterfallBook : b'.waterfallBook = b.waterfallBook
  covenantCycle : b'.covenantCycle = b.covenantCycle
  covenantLiveCycle : b'.covenantLiveCycle = b.covenantLiveCycle
  couponCalculation : b'.couponCalculation = b.couponCalculation
  couponLiveCalculation : b'.couponLiveCalculation = b.couponLiveCalculation

end CouponBond

/-- What a successful call does to the record of the bond `id` it names, and what it answers. -/
inductive CouponStep (env : Env) (clock : Clock) (issuer : BondIssuer) (s : CouponEngine)
    (id : Nat) : CouponCall → CouponReply → CouponBond → CouponBond → Prop where
  | other {call : CouponCall} {reply : CouponReply} {b b' : CouponBond}
      (hkind : ∀ id holder, call.kind id holder = .none) (h : b.SameCredits b') :
      CouponStep env clock issuer s id call reply b b'
  | register {caller : Address} {projectId : Bytes32} {nonce : Nat} {config : BondConfig}
      (b : CouponBond) (h : issuer.getBond id = .ok config) :
      CouponStep env clock issuer s id (.registerBond caller id projectId nonce) .unit b
        (b.register projectId config.creditType)
  | settle {caller : Address} {tranches : List WaterfallTranche} {carbon bio : Int} {nonce : Nat}
      {result : WaterfallResult} {b b' : CouponBond}
      (h : b.settleWaterfall issuer tranches carbon bio = .ok (b', result)) :
      CouponStep env clock issuer s id (.settleWaterfall caller id tranches carbon bio nonce)
        (.waterfall result) b b'
  | claimWaterfall {holder : Address} {settlementIndex priority nonce : Nat}
      {carbon biodiversity : Int} {b b' : CouponBond}
      (h : b.claimWaterfall issuer holder settlementIndex priority
        = .ok (b', carbon, biodiversity)) :
      CouponStep env clock issuer s id (.claimWaterfall holder id settlementIndex priority nonce)
        (.amounts carbon biodiversity) b b'
  | distribute {call : CouponCall} {batch : CouponBatch} {result : CouponResult} {b' : CouponBond}
      (hcall : call.batch = some batch) (hid : batch.bondId = id)
      (h : s.distribute env clock issuer batch = .ok (b', result)) :
      CouponStep env clock issuer s id call (.coupon result) (s.bond id) b'
  | confirm {caller holder : Address} {amount : Int} {nonce : Nat} {b b' : CouponBond}
      (h : b.debit holder amount = .ok b') :
      CouponStep env clock issuer s id (.confirmRetirement caller id holder amount nonce) .unit b b'
  | revert {caller holder : Address} {amount : Int} {nonce : Nat} {b b' : CouponBond}
      (h : b.debit holder amount = .ok b') :
      CouponStep env clock issuer s id (.revertPayout caller id holder amount nonce) .unit b b'
  | claim {caller : Address} {nonce : Nat} {accrued : Int} {b b' : CouponBond}
      (h : b.claim caller = .ok (b', accrued)) :
      CouponStep env clock issuer s id (.claimCredits caller id nonce) (.amount accrued) b b'
  | consume {holder : Address} {amount : Int} {b b' : CouponBond}
      (h : b.consume holder amount = .ok b') :
      CouponStep env clock issuer s id (.consumeCredits holder id amount) .unit b b'

/-- The record a successful call leaves for the bond `id` it names, and what it answers. -/
inductive CouponWrite (env : Env) (clock : Clock) (issuer : BondIssuer) (s : CouponEngine)
    (id : Nat) : CouponCall → CouponReply → CouponBond → CouponBond → Prop where
  | register {caller : Address} {projectId : Bytes32} {nonce : Nat} {config : BondConfig}
      (b : CouponBond) (h : issuer.getBond id = .ok config) :
      CouponWrite env clock issuer s id (.registerBond caller id projectId nonce) .unit b
        (b.register projectId config.creditType)
  | trueUp {caller : Address} {periodIndex : Nat} {amount : Int} {reason : Symbol} {hash : Bytes32}
      {nonce : Nat} {b b' : CouponBond}
      (h : b.addTrueUp ⟨id, periodIndex, amount, reason, hash, clock.timestamp, false⟩ = .ok b') :
      CouponWrite env clock issuer s id
        (.submitTrueUpAdjustment caller id periodIndex amount reason hash nonce) .unit b b'
  | settle {caller : Address} {tranches : List WaterfallTranche} {carbon bio : Int} {nonce : Nat}
      {result : WaterfallResult} {b b' : CouponBond}
      (h : b.settleWaterfall issuer tranches carbon bio = .ok (b', result)) :
      CouponWrite env clock issuer s id (.settleWaterfall caller id tranches carbon bio nonce)
        (.waterfall result) b b'
  | claimWaterfall {holder : Address} {settlementIndex priority nonce : Nat}
      {carbon biodiversity : Int} {b b' : CouponBond}
      (h : b.claimWaterfall issuer holder settlementIndex priority
        = .ok (b', carbon, biodiversity)) :
      CouponWrite env clock issuer s id (.claimWaterfall holder id settlementIndex priority nonce)
        (.amounts carbon biodiversity) b b'
  | distribute {call : CouponCall} {batch : CouponBatch} {result : CouponResult} {b' : CouponBond}
      (hcall : call.batch = some batch) (hid : batch.bondId = id)
      (h : s.distribute env clock issuer batch = .ok (b', result)) :
      CouponWrite env clock issuer s id call (.coupon result) (s.bond id) b'
  | confirm {caller holder : Address} {amount : Int} {nonce : Nat} {b b' : CouponBond}
      (h : b.debit holder amount = .ok b') :
      CouponWrite env clock issuer s id (.confirmRetirement caller id holder amount nonce) .unit b b'
  | revert {caller holder : Address} {amount : Int} {nonce : Nat} {b b' : CouponBond}
      (h : b.debit holder amount = .ok b') :
      CouponWrite env clock issuer s id (.revertPayout caller id holder amount nonce) .unit b b'
  | claim {caller : Address} {nonce : Nat} {accrued : Int} {b b' : CouponBond}
      (h : b.claim caller = .ok (b', accrued)) :
      CouponWrite env clock issuer s id (.claimCredits caller id nonce) (.amount accrued) b b'
  | consume {holder : Address} {amount : Int} {b b' : CouponBond}
      (h : b.consume holder amount = .ok b') :
      CouponWrite env clock issuer s id (.consumeCredits holder id amount) .unit b b'
  | sweep {caller : Address} {nonce : Nat} (b : CouponBond) :
      CouponWrite env clock issuer s id (.sweepUndistributed caller id nonce)
        (.amount b.sweep.2) b b.sweep.1
  | clearFlag {caller : Address} {nonce : Nat} {b b' : CouponBond} (h : b.clearFlag = .ok b') :
      CouponWrite env clock issuer s id (.clearPerformanceFlag caller id nonce) .unit b b'
  | beginMigration {caller : Address} {nonce : Nat} {window : MigrationWindow} {b b' : CouponBond}
      (h : b.beginMigration clock = .ok (b', window)) :
      CouponWrite env clock issuer s id (.beginMigration caller id nonce) (.window window) b b'
  | finalizeMigration {caller : Address} {nonce : Nat} {b b' : CouponBond}
      (h : b.finalizeMigration = .ok b') :
      CouponWrite env clock issuer s id (.finalizeMigration caller id nonce) .unit b b'
  | rollbackMigration {caller : Address} {nonce : Nat} {window : MigrationWindow}
      {b b' : CouponBond} (h : b.rollbackMigration = .ok (b', window)) :
      CouponWrite env clock issuer s id (.rollbackMigration caller id nonce) (.window window) b b'
  | configure {caller : Address} {config : CovenantConfig} {nonce : Nat} {b b' : CouponBond}
      (h : b.configureCovenant config = .ok b') :
      CouponWrite env clock issuer s id (.configureCovenant caller id config nonce) .unit b b'

namespace CouponBond

variable {b b' : CouponBond} {window : MigrationWindow}

theorem addTrueUp_ok {adjustment : TrueUpAdjustment} (h : b.addTrueUp adjustment = .ok b') :
    b' = { b with
      trueUpAdjustment := update b.trueUpAdjustment b.trueUpCount (some adjustment)
      trueUpCount := b.trueUpCount + 1 } := by
  simp only [addTrueUp, bind_ok_iff, orTrap_ok_iff, u32_eq_some, pure_ok_iff] at h
  obtain ⟨_, ⟨-, rfl⟩, rfl⟩ := h
  rfl

theorem clearFlag_ok (h : b.clearFlag = .ok b') : b' = { b with performanceFlag := none } := by
  simp only [clearFlag, bind_ok_iff, pure_ok_iff, exists_unit_iff] at h
  exact h.2.symm

theorem beginMigration_ok {clock : Clock} (h : b.beginMigration clock = .ok (b', window)) :
    b.migrationWindow = none ∧
      window = ⟨clock.timestamp, b.undistributedTotal, b.periodCount⟩ ∧
      b' = { b with migrationWindow := some window } := by
  simp only [beginMigration, bind_ok_iff, reject_ok_iff, pure_ok_iff, exists_unit_iff,
    Option.not_isSome_iff_eq_none, Prod.mk.injEq] at h
  obtain ⟨hnone, rfl, rfl⟩ := h
  exact ⟨hnone, rfl, rfl⟩

theorem finalizeMigration_ok (h : b.finalizeMigration = .ok b') :
    b' = { b with migrationWindow := none } := by
  simp only [finalizeMigration, bind_ok_iff, pure_ok_iff, exists_unit_iff] at h
  exact h.2.symm

theorem rollbackMigration_ok (h : b.rollbackMigration = .ok (b', window)) :
    b' = { b with migrationWindow := none } := by
  simp only [rollbackMigration, bind_ok_iff, pure_ok_iff, exists_unit_iff, Prod.mk.injEq] at h
  obtain ⟨_, -, -, rfl, -⟩ := h
  rfl

end CouponBond

variable {env : Env} {clock : Clock} {issuer : BondIssuer} {call : CouponCall} {reply : CouponReply}

/-- A write, as far as credits are concerned. -/
theorem CouponWrite.step {s : CouponEngine} {id : Nat} {b b' : CouponBond}
    (h : CouponWrite env clock issuer s id call reply b b') :
    CouponStep env clock issuer s id call reply b b' := by
  cases h with
  | register _ h => exact .register _ h
  | settle h => exact .settle h
  | claimWaterfall h => exact .claimWaterfall h
  | distribute hcall hid h => exact .distribute hcall hid h
  | confirm h => exact .confirm h
  | revert h => exact .revert h
  | claim h => exact .claim h
  | consume h => exact .consume h
  | trueUp h =>
      rw [CouponBond.addTrueUp_ok h]
      exact .other (fun _ _ => rfl) (by constructor <;> rfl)
  | sweep => exact .other (fun _ _ => rfl) (by constructor <;> rfl)
  | clearFlag h =>
      rw [CouponBond.clearFlag_ok h]
      exact .other (fun _ _ => rfl) (by constructor <;> rfl)
  | beginMigration h =>
      rw [(CouponBond.beginMigration_ok h).2.2]
      exact .other (fun _ _ => rfl) (by constructor <;> rfl)
  | finalizeMigration h =>
      rw [CouponBond.finalizeMigration_ok h]
      exact .other (fun _ _ => rfl) (by constructor <;> rfl)
  | rollbackMigration h =>
      rw [CouponBond.rollbackMigration_ok h]
      exact .other (fun _ _ => rfl) (by constructor <;> rfl)
  | configure h =>
      rw [CouponBond.configureCovenant_ok h]
      exact .other (fun _ _ => rfl) (by constructor <;> rfl)

namespace CouponEngine

variable {env : Env} {clock : Clock} {issuer : BondIssuer} {s s' : CouponEngine}

/-- The bonds and the tables are the same. -/
def SameData (s s' : CouponEngine) : Prop :=
  s'.bond = s.bond ∧ s'.equivalenceTable = s.equivalenceTable

theorem SameData.tables (h : s.SameData s') (hs : s.TablesInBounds) : s'.TablesInBounds := by
  unfold TablesInBounds
  rw [h.2]
  exact hs

/-- The bonds, the tables and their version are the same. -/
structure Keeps (s s' : CouponEngine) : Prop where
  data : s.SameData s'
  version : s'.equivalenceVersion = s.equivalenceVersion

variable {caller : Address} {nonce : Nat} {call : CouponCall} {reply : CouponReply}

theorem consumeNonce_keeps (h : s.consumeNonce caller nonce = .ok s') : s.Keeps s' := by
  rw [consumeNonce_ok h]
  exact ⟨⟨rfl, rfl⟩, rfl⟩

theorem consumeNonceChecked_keeps (h : s.consumeNonceChecked caller nonce = .ok s') : s.Keeps s' := by
  rw [consumeNonceChecked_ok h]
  exact ⟨⟨rfl, rfl⟩, rfl⟩

theorem asAdmin_keeps (h : s.asAdmin env caller nonce = .ok s') : s.Keeps s' := by
  simp only [asAdmin, bind_ok_iff, pure_ok_iff, exists_unit_iff] at h
  obtain ⟨-, s₁, hnonce, -, rfl⟩ := h
  exact consumeNonce_keeps hnonce

/-- What a call did, seen from the bond `id`: it does not name the bond and left its record alone,
or it made a step. The published factors stay in bounds. -/
structure Effect (env : Env) (clock : Clock) (issuer : BondIssuer) (s s' : CouponEngine)
    (call : CouponCall) (reply : CouponReply) (id : Nat) : Prop where
  record : (call.target ≠ some id ∧ s'.bond id = s.bond id) ∨
    (call.target = some id ∧ CouponStep env clock issuer s id call reply (s.bond id) (s'.bond id))
  tables : s.TablesInBounds → s'.TablesInBounds

/-- What a call wrote, seen from the bond `id`. -/
structure Writes (env : Env) (clock : Clock) (issuer : BondIssuer) (s s' : CouponEngine)
    (call : CouponCall) (reply : CouponReply) (id : Nat) : Prop where
  record : (call.target ≠ some id ∧ s'.bond id = s.bond id) ∨
    (call.target = some id ∧ CouponWrite env clock issuer s id call reply (s.bond id) (s'.bond id))
  tables : s.TablesInBounds → s'.TablesInBounds

theorem Writes.effect {id : Nat} (h : Writes env clock issuer s s' call reply id) :
    Effect env clock issuer s s' call reply id :=
  ⟨h.record.imp_right fun hwrite => ⟨hwrite.1, hwrite.2.step⟩, h.tables⟩

/-- A call that writes no record. -/
theorem Writes.idle (htarget : call.target = none) (hbond : s'.bond = s.bond)
    (htables : s.TablesInBounds → s'.TablesInBounds) (id : Nat) :
    Writes env clock issuer s s' call reply id := by
  refine ⟨.inl ⟨?_, by rw [hbond]⟩, htables⟩
  rw [htarget]
  exact fun h => by cases h

/-- A call that writes the record of one bond. -/
theorem Writes.write {target : Nat} {b : CouponBond} {s₁ : CouponEngine}
    (htarget : call.target = some target) (hs₁ : s.SameData s₁)
    (hwrite : CouponWrite env clock issuer s target call reply (s.bond target) b) (id : Nat) :
    Writes env clock issuer s (s₁.setBond target b) call reply id := by
  refine ⟨?_, hs₁.tables⟩
  by_cases hid : id = target
  · subst hid
    refine .inr ⟨htarget, ?_⟩
    rw [setBond_bond_same]
    exact hwrite
  · refine .inl ⟨?_, ?_⟩
    · rw [htarget]
      exact fun h => hid (Option.some.inj h).symm
    · rw [setBond_bond_other _ _ hid, hs₁.1]

end CouponEngine

/-- **What a successful call does to the engine**: it writes the record of the bond it names, changes
a setting, or publishes a table. -/
inductive EngineMove (env : Env) (clock : Clock) (issuer : BondIssuer) (s : CouponEngine) :
    CouponCall → CouponReply → CouponEngine → Prop where
  | write {call : CouponCall} {reply : CouponReply} {target : Nat} {b : CouponBond}
      {s₁ : CouponEngine} (htarget : call.target = some target) (hkeeps : s.Keeps s₁)
      (hwrite : CouponWrite env clock issuer s target call reply (s.bond target) b) :
      EngineMove env clock issuer s call reply (s₁.setBond target b)
  | setting {call : CouponCall} {reply : CouponReply} {s' : CouponEngine}
      (htarget : call.target = none) (hkeeps : s.Keeps s') : EngineMove env clock issuer s call reply s'
  | publish {caller : Address} {expectedVersion : Nat} {factors : List EquivalenceFactor}
      {rationaleHash : Bytes32} {nonce version : Nat} {reply : CouponReply} {s' : CouponEngine}
      (h : s.publishEquivalence env clock caller expectedVersion factors rationaleHash nonce
        = .ok (s', version)) :
      EngineMove env clock issuer s
        (.publishEquivalence caller expectedVersion factors rationaleHash nonce) reply s'

/-- A move, seen from the bond `id`. -/
theorem EngineMove.writes {s s' : CouponEngine} (h : EngineMove env clock issuer s call reply s')
    (id : Nat) : s.Writes env clock issuer s' call reply id := by
  cases h with
  | write htarget hkeeps hwrite => exact .write htarget hkeeps.data hwrite id
  | setting htarget hkeeps => exact .idle htarget hkeeps.data.1 hkeeps.data.tables id
  | publish h =>
      obtain ⟨hbond, htables⟩ := CouponEngine.publishEquivalence_ok h
      exact .idle rfl hbond htables id

namespace CouponEngine

variable {env : Env} {clock : Clock} {issuer : BondIssuer} {s s' : CouponEngine}

variable {call : CouponCall} {reply : CouponReply}

theorem distributeCouponBatch_move {batch : CouponBatch} {result : CouponResult}
    (hcall : call.batch = some batch) (htarget : call.target = some batch.bondId)
    (h : s.distributeCouponBatch env clock issuer batch = .ok (s', result)) :
    EngineMove env clock issuer s call (.coupon result) s' := by
  simp only [distributeCouponBatch, bind_ok_iff, pure_ok_iff, Prod.mk.injEq, Prod.exists] at h
  obtain ⟨s₁, hadmin, b, _, hb, rfl, rfl⟩ := h
  exact .write htarget (asAdmin_keeps hadmin) (.distribute hcall rfl hb)

/-- **Every successful call is a move.** -/
theorem exec_move (h : s.exec env clock issuer call = .ok (s', reply)) :
    EngineMove env clock issuer s call reply s' := by
  simp only [exec, bind_ok_iff, hostRequire_ok_iff, exists_unit_iff] at h
  obtain ⟨-, h⟩ := h
  cases call with
  | registerBond caller bondId projectId nonce =>
      simp only [dispatch, ofUnit, registerBond, bind_ok_iff, invoke_ok_iff,
        pure_ok_iff, Prod.mk.injEq] at h
      obtain ⟨_, ⟨s₁, hadmin, config, hconfig, rfl⟩, rfl, rfl⟩ := h
      exact .write rfl (asAdmin_keeps hadmin) (.register _ hconfig)
  | submitTrueUpAdjustment caller bondId periodIndex amount reason hash nonce =>
      simp only [dispatch, ofUnit, submitTrueUpAdjustment, bind_ok_iff, pure_ok_iff,
        Prod.mk.injEq] at h
      obtain ⟨_, ⟨s₁, hadmin, b, hb, rfl⟩, rfl, rfl⟩ := h
      exact .write rfl (asAdmin_keeps hadmin) (.trueUp hb)
  | settleWaterfall caller bondId tranches carbon bio nonce =>
      simp only [dispatch, ofResult, settleWaterfall, bind_ok_iff, pure_ok_iff,
        Prod.mk.injEq, Prod.exists] at h
      obtain ⟨_, _, ⟨s₁, hadmin, b, _, hb, rfl, rfl⟩, rfl, rfl⟩ := h
      exact .write rfl (asAdmin_keeps hadmin) (.settle hb)
  | claimWaterfall holder bondId settlementIndex priority nonce =>
      simp only [dispatch, ofResult, claimWaterfall, bind_ok_iff, pure_ok_iff,
        exists_unit_iff, Prod.mk.injEq, Prod.exists] at h
      obtain ⟨_, _, _, ⟨-, s₁, hnonce, b, _, _, hb, rfl, rfl, rfl⟩, rfl, rfl⟩ := h
      have hs₁ := consumeNonceChecked_keeps hnonce
      exact .write rfl hs₁ (.claimWaterfall hb)
  | distributeCoupon caller bondId periodIndex holders reportId nonce =>
      simp only [dispatch, ofResult, bind_ok_iff, pure_ok_iff, Prod.mk.injEq, Prod.exists] at h
      obtain ⟨_, result, hdist, rfl, rfl⟩ := h
      exact distributeCouponBatch_move rfl rfl hdist
  | distributeCouponBatch batch =>
      simp only [dispatch, ofResult, bind_ok_iff, pure_ok_iff, Prod.mk.injEq, Prod.exists] at h
      obtain ⟨_, result, hdist, rfl, rfl⟩ := h
      exact distributeCouponBatch_move rfl rfl hdist
  | confirmRetirement caller bondId holder amount nonce =>
      simp only [dispatch, ofUnit, confirmRetirement, bind_ok_iff, pure_ok_iff, Prod.mk.injEq] at h
      obtain ⟨_, ⟨s₁, hadmin, b, hb, rfl⟩, rfl, rfl⟩ := h
      exact .write rfl (asAdmin_keeps hadmin) (.confirm hb)
  | revertPayout caller bondId holder amount nonce =>
      simp only [dispatch, ofUnit, revertPayout, bind_ok_iff, pure_ok_iff, Prod.mk.injEq] at h
      obtain ⟨_, ⟨s₁, hadmin, b, hb, rfl⟩, rfl, rfl⟩ := h
      exact .write rfl (asAdmin_keeps hadmin) (.revert hb)
  | claimCredits caller bondId nonce =>
      simp only [dispatch, ofResult, claimCredits, bind_ok_iff, pure_ok_iff,
        exists_unit_iff, Prod.mk.injEq, Prod.exists] at h
      obtain ⟨_, _, ⟨-, s₁, hnonce, b, _, hb, rfl, rfl⟩, rfl, rfl⟩ := h
      have hs₁ := consumeNonce_keeps hnonce
      exact .write rfl hs₁ (.claim hb)
  | consumeCredits holder bondId amount =>
      simp only [dispatch, ofUnit, consumeCredits, bind_ok_iff, pure_ok_iff,
        exists_unit_iff, Prod.mk.injEq] at h
      obtain ⟨_, ⟨-, b, hb, rfl⟩, rfl, rfl⟩ := h
      exact .write rfl ⟨⟨rfl, rfl⟩, rfl⟩ (.consume hb)
  | sweepUndistributed caller bondId nonce =>
      simp only [dispatch, ofResult, sweepUndistributed, bind_ok_iff, pure_ok_iff,
        Prod.mk.injEq, Prod.exists] at h
      obtain ⟨_, _, ⟨s₁, hadmin, rfl, rfl⟩, rfl, rfl⟩ := h
      exact .write rfl (asAdmin_keeps hadmin) (.sweep _)
  | setAdmin currentAdmin newAdmin nonce =>
      simp only [dispatch, ofUnit, setAdmin, bind_ok_iff, pure_ok_iff, Prod.mk.injEq] at h
      obtain ⟨_, ⟨s₁, hadmin, rfl⟩, rfl, rfl⟩ := h
      obtain ⟨⟨hbond, htable⟩, hversion⟩ := asAdmin_keeps hadmin
      exact .setting rfl ⟨⟨hbond, htable⟩, hversion⟩
  | setMinPerformanceAttestations caller minAttestations nonce =>
      simp only [dispatch, ofUnit, setMinPerformanceAttestations, bind_ok_iff,
        pure_ok_iff, exists_unit_iff, Prod.mk.injEq] at h
      obtain ⟨_, ⟨s₁, hadmin, -, rfl⟩, rfl, rfl⟩ := h
      obtain ⟨⟨hbond, htable⟩, hversion⟩ := asAdmin_keeps hadmin
      exact .setting rfl ⟨⟨hbond, htable⟩, hversion⟩
  | clearPerformanceFlag caller bondId nonce =>
      simp only [dispatch, ofUnit, clearPerformanceFlag, bind_ok_iff, pure_ok_iff,
        Prod.mk.injEq] at h
      obtain ⟨_, ⟨s₁, hadmin, b, hb, rfl⟩, rfl, rfl⟩ := h
      exact .write rfl (asAdmin_keeps hadmin) (.clearFlag hb)
  | beginMigration caller bondId nonce =>
      simp only [dispatch, ofResult, beginMigration, bind_ok_iff, pure_ok_iff,
        Prod.mk.injEq, Prod.exists] at h
      obtain ⟨_, _, ⟨s₁, hadmin, b, _, hb, rfl, rfl⟩, rfl, rfl⟩ := h
      exact .write rfl (asAdmin_keeps hadmin) (.beginMigration hb)
  | finalizeMigration caller bondId nonce =>
      simp only [dispatch, ofUnit, finalizeMigration, bind_ok_iff, pure_ok_iff, Prod.mk.injEq] at h
      obtain ⟨_, ⟨s₁, hadmin, b, hb, rfl⟩, rfl, rfl⟩ := h
      exact .write rfl (asAdmin_keeps hadmin) (.finalizeMigration hb)
  | rollbackMigration caller bondId nonce =>
      simp only [dispatch, ofResult, rollbackMigration, bind_ok_iff, pure_ok_iff,
        Prod.mk.injEq, Prod.exists] at h
      obtain ⟨_, _, ⟨s₁, hadmin, b, _, hb, rfl, rfl⟩, rfl, rfl⟩ := h
      exact .write rfl (asAdmin_keeps hadmin) (.rollbackMigration hb)
  | configureCovenant caller bondId config nonce =>
      simp only [dispatch, ofUnit, configureCovenant, bind_ok_iff, pure_ok_iff,
        exists_unit_iff, Prod.mk.injEq] at h
      obtain ⟨_, ⟨-, -, -, b, hb, s₁, hnonce, rfl⟩, rfl, rfl⟩ := h
      have hs₁ := consumeNonceChecked_keeps hnonce
      exact .write rfl hs₁ (.configure hb)
  | setEquivalenceGovernance caller governance nonce =>
      simp only [dispatch, ofUnit, setEquivalenceGovernance, bind_ok_iff, pure_ok_iff,
        exists_unit_iff, Prod.mk.injEq] at h
      obtain ⟨_, ⟨-, -, -, -, s₁, hnonce, rfl⟩, rfl, rfl⟩ := h
      obtain ⟨⟨hbond, htable⟩, hversion⟩ := consumeNonceChecked_keeps hnonce
      exact .setting rfl ⟨⟨hbond, htable⟩, hversion⟩
  | publishEquivalence caller expectedVersion factors rationaleHash nonce =>
      simp only [dispatch, ofResult, bind_ok_iff, pure_ok_iff, Prod.mk.injEq, Prod.exists] at h
      obtain ⟨_, _, hpublish, rfl, rfl⟩ := h
      exact .publish hpublish

/-- **The writes of a call.** -/
theorem exec_writes (h : s.exec env clock issuer call = .ok (s', reply)) (id : Nat) :
    Writes env clock issuer s s' call reply id :=
  (exec_move h).writes id

/-- **The effect of a call.** -/
theorem exec_effect (h : s.exec env clock issuer call = .ok (s', reply)) (id : Nat) :
    Effect env clock issuer s s' call reply id :=
  (exec_writes h id).effect

end CouponEngine

end VerdantBond
