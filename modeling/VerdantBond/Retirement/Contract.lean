import VerdantBond.Coupon.EntryPoints

set_option autoImplicit false

/-! # CreditRetirement

The contract that retires credits for good. `retire_credits` debits the holder's account in the
coupon engine through `consume_credits` before it writes a record, so a call changes two contracts
or none.
-/

namespace VerdantBond

open Function

structure RetirementRecord where
  id : Nat
  holder : Address
  bondId : Nat
  amount : Int
  creditType : CreditType
  retiredAt : Nat
  certificateIpfsHash : Bytes32
  deriving DecidableEq, Repr

structure CreditRetirement where
  admin : Option Address
  retirement : Nat → Option RetirementRecord
  retirementCount : Nat
  holderRetirements : Address → List Nat
  retiredCredits : Address → Int
  retiredPerBond : Nat → Address → Int
  nonce : Address → Nat

namespace CreditRetirement

/-- `__constructor`. -/
def deploy (admin : Address) : CreditRetirement where
  admin := some admin
  retirement := fun _ => none
  retirementCount := 0
  holderRetirements := fun _ => []
  retiredCredits := fun _ => 0
  retiredPerBond := fun _ _ => 0
  nonce := fun _ => 0

def consumeNonce (s : CreditRetirement) (addr : Address) (nonce : Nat) :
    Outcome CreditError CreditRetirement := do
  reject (nonce ≠ s.nonce addr) .invalidNonce
  let next ← orTrap (u64 (s.nonce addr + 1))
  pure { s with nonce := update s.nonce addr next }

def requireAdmin (s : CreditRetirement) (caller : Address) : Outcome CreditError Unit := do
  let admin ← okOr s.admin .notInitialized
  reject (caller ≠ admin) .unauthorized

/-- `retire_credits`, with the engine it leaves and the record's id. -/
def retireCredits (env : Env) (clock : Clock) (issuer : BondIssuer) (engine : CouponEngine)
    (s : CreditRetirement) (holder : Address) (bondId : Nat) (amount : Int)
    (creditType : CreditType) (certificateHash : Bytes32) (nonce : Nat) :
    Outcome CreditError (CouponEngine × CreditRetirement × Nat) := do
  requireAuth env holder
  let s₁ ← s.consumeNonce holder nonce
  reject (amount ≤ 0) .insufficientCredits
  reject (certificateHash = ⟨0⟩) .invalidCertificate
  reject (issuer.getHolderBalance bondId holder ≤ 0) .notAHolder
  reject (engine.escrowedCredits bondId holder < amount) .insufficientCredits
  let engine' ← invoke (engine.consumeCredits env holder bondId amount)
  let perBond ← orTrap (i128 (s.retiredPerBond bondId holder + amount))
  let id ← orTrap (u64 (s.retirementCount + 1))
  let total ← okOr (i128 (s.retiredCredits holder + amount)) .insufficientCredits
  pure (engine', { s₁ with
    retiredPerBond := update s.retiredPerBond bondId
      (update (s.retiredPerBond bondId) holder perBond)
    retirementCount := id
    retirement := update s.retirement id (some
      { id, holder, bondId, amount, creditType, retiredAt := clock.timestamp
        certificateIpfsHash := certificateHash })
    retiredCredits := update s.retiredCredits holder total
    holderRetirements := update s.holderRetirements holder (s.holderRetirements holder ++ [id]) },
    id)

def setAdmin (env : Env) (s : CreditRetirement) (currentAdmin newAdmin : Address) (nonce : Nat) :
    Outcome CreditError CreditRetirement := do
  requireAuth env currentAdmin
  let s₁ ← s.consumeNonce currentAdmin nonce
  s₁.requireAdmin currentAdmin
  pure { s₁ with admin := some newAdmin }

end CreditRetirement

inductive RetirementCall where
  | retireCredits (holder : Address) (bondId : Nat) (amount : Int) (creditType : CreditType)
      (certificateHash : Bytes32) (nonce : Nat)
  | setAdmin (currentAdmin newAdmin : Address) (nonce : Nat)
  deriving DecidableEq, Repr

/-- The arguments fit the types of the entry point's signature. -/
def RetirementCall.WellTyped : RetirementCall → Prop
  | .retireCredits _ bondId amount _ _ nonce => bondId ≤ u64Max ∧ InI128 amount ∧ nonce ≤ u64Max
  | .setAdmin _ _ nonce => nonce ≤ u64Max

instance RetirementCall.decidableWellTyped : DecidablePred RetirementCall.WellTyped := fun call =>
  match call with
  | .retireCredits .. => inferInstanceAs (Decidable (_ ∧ _))
  | .setAdmin .. => inferInstanceAs (Decidable (_ ≤ (_ : Nat)))

namespace CreditRetirement

/-- The entry point a call names, with the engine it leaves and the id it returns, if any. -/
def dispatch (env : Env) (clock : Clock) (issuer : BondIssuer) (engine : CouponEngine)
    (s : CreditRetirement) :
    RetirementCall → Outcome CreditError (CouponEngine × CreditRetirement × Option Nat)
  | .retireCredits holder bondId amount creditType certificateHash nonce => do
      let (engine', s', id) ← s.retireCredits env clock issuer engine holder bondId amount
        creditType certificateHash nonce
      pure (engine', s', some id)
  | .setAdmin currentAdmin newAdmin nonce => do
      let s' ← s.setAdmin env currentAdmin newAdmin nonce
      pure (engine, s', none)

/-- One call: its arguments decode, and its entry point succeeds. -/
def exec (env : Env) (clock : Clock) (issuer : BondIssuer) (engine : CouponEngine)
    (s : CreditRetirement) (call : RetirementCall) :
    Outcome CreditError (CouponEngine × CreditRetirement × Option Nat) := do
  hostRequire call.WellTyped
  s.dispatch env clock issuer engine call

/-! ## What a successful call did -/

variable {env : Env} {s s' : CreditRetirement} {nonce : Nat}

theorem retireCredits_ok {clock : Clock} {issuer : BondIssuer} {engine engine' : CouponEngine}
    {holder : Address} {bondId : Nat} {amount : Int} {creditType : CreditType}
    {certificateHash : Bytes32} {id : Nat}
    (h : s.retireCredits env clock issuer engine holder bondId amount creditType certificateHash
      nonce = .ok (engine', s', id)) :
    engine.consumeCredits env holder bondId amount = .ok engine' ∧
      s'.retiredPerBond = update s.retiredPerBond bondId
        (update (s.retiredPerBond bondId) holder (s.retiredPerBond bondId holder + amount)) := by
  simp only [retireCredits, bind_ok_iff, reject_ok_iff, invoke_ok_iff, orTrap_ok_iff, okOr_ok_iff,
    i128_eq_some, u64_eq_some, pure_ok_iff, exists_unit_iff, Prod.mk.injEq] at h
  obtain ⟨-, _, -, -, -, -, -, engine₁, hconsume, _, ⟨-, rfl⟩, _, -, _, -, rfl, rfl, -⟩ := h
  exact ⟨hconsume, rfl⟩

theorem setAdmin_ok {currentAdmin newAdmin : Address}
    (h : s.setAdmin env currentAdmin newAdmin nonce = .ok s') :
    s'.retiredPerBond = s.retiredPerBond := by
  simp only [setAdmin, consumeNonce, bind_ok_iff, reject_ok_iff, orTrap_ok_iff, u64_eq_some,
    pure_ok_iff, exists_unit_iff] at h
  obtain ⟨-, _, ⟨-, _, -, rfl⟩, -, rfl⟩ := h
  rfl

section Calls

variable {env : Env} {clock : Clock} {issuer : BondIssuer} {engine engine' : CouponEngine}
  {s s' : CreditRetirement} {reply : Option Nat}

variable {nonce : Nat}

/-- A retirement retires what it consumed in the engine. -/
theorem exec_retireCredits_ok {holder : Address} {bondId : Nat} {amount : Int}
    {creditType : CreditType} {certificateHash : Bytes32} (h : s.exec env clock issuer engine
      (.retireCredits holder bondId amount creditType certificateHash nonce)
        = .ok (engine', s', reply)) :
    engine.consumeCredits env holder bondId amount = .ok engine' ∧
      s'.retiredPerBond = update s.retiredPerBond bondId
        (update (s.retiredPerBond bondId) holder (s.retiredPerBond bondId holder + amount)) := by
  simp only [exec, dispatch, bind_ok_iff, hostRequire_ok_iff, pure_ok_iff, exists_unit_iff,
    Prod.mk.injEq, Prod.exists] at h
  obtain ⟨-, _, _, _, hretire, rfl, rfl, -⟩ := h
  exact retireCredits_ok hretire

/-- A change of the admin leaves the engine and the retired amounts alone. -/
theorem exec_setAdmin_ok {currentAdmin newAdmin : Address}
    (h : s.exec env clock issuer engine (.setAdmin currentAdmin newAdmin nonce)
      = .ok (engine', s', reply)) : engine' = engine ∧ s'.retiredPerBond = s.retiredPerBond := by
  simp only [exec, dispatch, bind_ok_iff, hostRequire_ok_iff, pure_ok_iff, exists_unit_iff,
    Prod.mk.injEq] at h
  obtain ⟨-, _, hset, rfl, rfl, -⟩ := h
  exact ⟨rfl, setAdmin_ok hset⟩

end Calls

end CreditRetirement

end VerdantBond
