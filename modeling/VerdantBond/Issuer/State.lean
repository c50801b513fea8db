import VerdantBond.Shared
import VerdantBond.Lib.VersionLog

set_option autoImplicit false

/-! # BondIssuer: storage

The storage of `contracts/bond-issuer`. Every key that carries a bond id is a field of that
bond's record `Bond`, so an operation on one bond visibly leaves the others alone; the remaining
keys are fields of `BondIssuer`. A key that is only ever read with `unwrap_or(d)` is a total
field with the value `d` where nothing was stored.

`HolderCheckpoint(bond, holder, i)` with its counter, and `SupplyCheckpoint(bond, i)` with its
counter, are version logs (`Lib/VersionLog.lean`).
-/

namespace VerdantBond

open Function

/-! ## Records -/

structure BondState where
  totalSubscribed : Int
  status : BondStatus
  createdAt : Nat
  deriving DecidableEq, Repr

structure SerialRange where
  start : Int
  «end» : Int
  deriving DecidableEq, Repr

structure RedemptionBudget where
  principalPerCycle : Int
  ledgersPerCycle : Nat
  deriving DecidableEq, Repr

structure RedemptionRequest where
  id : Nat
  holder : Address
  requestKey : Bytes32
  submittedLedger : Nat
  amount : Int
  remaining : Int
  deriving DecidableEq, Repr

structure RedemptionCycle where
  cycle : Nat
  paid : Int
  deriving DecidableEq, Repr

structure AuctionConfig where
  token : Address
  treasury : Address
  openLedger : Nat
  cutoffLedger : Nat
  identityCap : Int
  deriving DecidableEq, Repr

structure AuctionOrder where
  wallet : Address
  identity : Bytes32
  requested : Int
  allocated : Int
  refunded : Int
  deriving DecidableEq, Repr

structure AuctionState where
  config : AuctionConfig
  wallets : List Address
  orders : List AuctionOrder
  settled : Bool
  deriving DecidableEq, Repr

/-- Everything stored under one bond id. -/
structure Bond where
  config : Option BondConfig
  state : Option BondState
  holderBalance : Address → Int
  balanceVersion : Nat
  holderLog : Address → VersionLog Int
  supplyLog : VersionLog Int
  redemptionPool : Int
  redemptionBudget : Option RedemptionBudget
  redemptionCycle : Option RedemptionCycle
  redemptionHead : Nat
  redemptionTail : Nat
  redemptionRequest : Nat → Option RedemptionRequest
  redemptionId : Address → Bytes32 → Option (Nat × Int)
  redemptionReserved : Address → Int
  subscriptionAuctionRequired : Bool
  subscriptionAuction : Option AuctionState
  subscriptionIdentity : Address → Option Bytes32

/-- A bond id under which nothing is stored. -/
def Bond.unissued : Bond where
  config := none
  state := none
  holderBalance := fun _ => 0
  balanceVersion := 0
  holderLog := fun _ => VersionLog.empty
  supplyLog := VersionLog.empty
  redemptionPool := 0
  redemptionBudget := none
  redemptionCycle := none
  redemptionHead := 0
  redemptionTail := 0
  redemptionRequest := fun _ => none
  redemptionId := fun _ _ => none
  redemptionReserved := fun _ => 0
  subscriptionAuctionRequired := false
  subscriptionAuction := none
  subscriptionIdentity := fun _ => none

/-- The contract's storage, its own address, and the balances of the token contracts it moves
funds in. -/
structure BondIssuer where
  self : Address
  admin : Option Address
  pendingAdmin : Option Address
  pendingAdminExpiry : Option Nat
  projectRegistry : Option Address
  bondCount : Nat
  nonce : Address → Nat
  transferBlocked : Address → Bool
  committedRanges : Bytes32 → Nat → List SerialRange
  bond : Nat → Bond
  tokenBalance : Address → Address → Int

/-- `__constructor`. -/
def BondIssuer.deploy (self admin : Address) : BondIssuer where
  self := self
  admin := some admin
  pendingAdmin := none
  pendingAdminExpiry := none
  projectRegistry := none
  bondCount := 0
  nonce := fun _ => 0
  transferBlocked := fun _ => false
  committedRanges := fun _ _ => []
  bond := fun _ => Bond.unissued
  tokenBalance := fun _ _ => 0

namespace BondIssuer

/-- Replace the record of one bond. -/
def setBond (s : BondIssuer) (bondId : Nat) (b : Bond) : BondIssuer :=
  { s with bond := update s.bond bondId b }

@[simp] theorem setBond_bond_same (s : BondIssuer) (bondId : Nat) (b : Bond) :
    (s.setBond bondId b).bond bondId = b := update_self ..

theorem setBond_bond_other (s : BondIssuer) {bondId id : Nat} (b : Bond) (h : id ≠ bondId) :
    (s.setBond bondId b).bond id = s.bond id := update_of_ne h ..

@[simp] theorem setBond_bondCount (s : BondIssuer) (bondId : Nat) (b : Bond) :
    (s.setBond bondId b).bondCount = s.bondCount := rfl

/-! ## Authority and nonces -/

/-- `require_admin`. -/
def requireAdmin (s : BondIssuer) (caller : Address) : Outcome BondError Unit := do
  let admin ← okOr s.admin .notInitialized
  reject (caller ≠ admin) .unauthorized

theorem requireAdmin_ok {s : BondIssuer} {caller : Address} {u : Unit}
    (h : s.requireAdmin caller = .ok u) : s.admin = some caller := by
  simp only [requireAdmin, bind_ok_iff, okOr_ok_iff, reject_ok_iff, not_not] at h
  obtain ⟨_, hadmin, rfl⟩ := h
  exact hadmin

/-- `consume_nonce`. The increment is the only unchecked one: the host aborts on overflow. -/
def consumeNonce (s : BondIssuer) (addr : Address) (nonce : Nat) :
    Outcome BondError BondIssuer := do
  reject (nonce ≠ s.nonce addr) .invalidNonce
  let next ← orTrap (u64 (s.nonce addr + 1))
  pure { s with nonce := update s.nonce addr next }

theorem consumeNonce_ok {s s' : BondIssuer} {addr : Address} {nonce : Nat}
    (h : s.consumeNonce addr nonce = .ok s') :
    nonce = s.nonce addr ∧ s' = { s with nonce := update s.nonce addr (s.nonce addr + 1) } := by
  simp only [consumeNonce, bind_ok_iff, reject_ok_iff, orTrap_ok_iff, u64_eq_some,
    pure_ok_iff, not_not] at h
  obtain ⟨-, hn, _, ⟨-, rfl⟩, rfl⟩ := h
  exact ⟨hn, rfl⟩

end BondIssuer

end VerdantBond
