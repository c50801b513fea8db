import VerdantBond.Retirement.Contract

set_option autoImplicit false

/-! # CreditRetirement: records and certificates

Retirement records are numbered as they are written, and each carries the hash of a certificate.
`uniqueness.rs` has a registry of the hashes that were used. `retire_credits` does not consult it:
the contract never calls the module.
-/

namespace VerdantBond

open Function

/-! ## The records -/

/-- The record a call writes under an id, if any. -/
def RetirementCall.record (clock : Clock) (id : Nat) : RetirementCall → Option RetirementRecord
  | .retireCredits holder bondId amount creditType certificateHash _ =>
      some ⟨id, holder, bondId, amount, creditType, clock.timestamp, certificateHash⟩
  | .setAdmin _ _ _ => none

namespace CreditRetirement

/-- The stored records, in the order of their ids. -/
def records (s : CreditRetirement) : List RetirementRecord :=
  (List.range s.retirementCount).filterMap fun k => s.retirement (k + 1)

/-- No two stored records carry the same certificate. -/
def CertificatesUnique (s : CreditRetirement) : Prop :=
  ∀ i j ri rj, s.retirement i = some ri → s.retirement j = some rj →
    ri.certificateIpfsHash = rj.certificateIpfsHash → i = j

/-- No stored record carries the certificate. -/
def Fresh (s : CreditRetirement) (certificateHash : Bytes32) : Prop :=
  ∀ id r, s.retirement id = some r → r.certificateIpfsHash ≠ certificateHash

/-- The records have the ids from one to the count. -/
def Numbered (s : CreditRetirement) : Prop :=
  ∀ id, (s.retirement id).isSome = true ↔ 1 ≤ id ∧ id ≤ s.retirementCount

/-- **What a call does to the records**: nothing, or one more under the next id. -/
structure Appends (s s' : CreditRetirement) (r : RetirementRecord) : Prop where
  count : s'.retirementCount = s.retirementCount + 1
  retirement : s'.retirement = update s.retirement (s.retirementCount + 1) (some r)

section Calls

variable {env : Env} {clock : Clock} {issuer : BondIssuer} {engine engine' : CouponEngine}
  {s s' : CreditRetirement} {call : RetirementCall} {reply : Option Nat}

theorem exec_records (h : s.exec env clock issuer engine call = .ok (engine', s', reply)) :
    (call.record clock (s.retirementCount + 1) = none ∧
        s'.retirementCount = s.retirementCount ∧ s'.retirement = s.retirement) ∨
      ∃ r, call.record clock (s.retirementCount + 1) = some r ∧ s.Appends s' r := by
  simp only [exec, bind_ok_iff, hostRequire_ok_iff, exists_unit_iff] at h
  obtain ⟨-, h⟩ := h
  cases call with
  | retireCredits holder bondId amount creditType certificateHash nonce =>
      simp only [dispatch, retireCredits, consumeNonce, bind_ok_iff, reject_ok_iff, invoke_ok_iff,
        orTrap_ok_iff, okOr_ok_iff, u64_eq_some, pure_ok_iff, exists_unit_iff, Prod.mk.injEq,
        Prod.exists] at h
      obtain ⟨_, _, _, ⟨-, _, ⟨-, _, -, rfl⟩, -, -, -, -, _, -, _, -, _, ⟨-, rfl⟩, _, -, rfl, rfl,
        rfl⟩, rfl, rfl, rfl⟩ := h
      exact .inr ⟨_, rfl, rfl, rfl⟩
  | setAdmin currentAdmin newAdmin nonce =>
      simp only [dispatch, setAdmin, consumeNonce, bind_ok_iff, reject_ok_iff, orTrap_ok_iff,
        u64_eq_some, pure_ok_iff, exists_unit_iff, Prod.mk.injEq] at h
      obtain ⟨_, ⟨-, _, ⟨-, _, -, rfl⟩, -, rfl⟩, rfl, rfl, rfl⟩ := h
      exact .inl ⟨rfl, rfl, rfl⟩

end Calls

variable {s s' : CreditRetirement} {r : RetirementRecord}

theorem records_congr (hcount : s'.retirementCount = s.retirementCount)
    (hretirement : s'.retirement = s.retirement) : s'.records = s.records := by
  unfold records
  rw [hcount, hretirement]

theorem Appends.records (h : s.Appends s' r) : s'.records = s.records ++ [r] := by
  have hold : ∀ k ∈ List.range s.retirementCount,
      s'.retirement (k + 1) = s.retirement (k + 1) := by
    intro k hk
    have hne : k + 1 ≠ s.retirementCount + 1 := by
      have := List.mem_range.mp hk
      omega
    rw [h.retirement, update_of_ne hne]
  have hnew : [s.retirementCount].filterMap (fun k => s'.retirement (k + 1)) = [r] := by
    refine List.filterMap_cons_some (f := fun k => s'.retirement (k + 1)) ?_
    show s'.retirement (s.retirementCount + 1) = some r
    rw [h.retirement, update_self]
  unfold CreditRetirement.records
  rw [h.count, List.range_succ, List.filterMap_append, List.filterMap_congr hold, hnew]

theorem numbered_deploy (admin : Address) : (deploy admin).Numbered := by
  intro id
  show false = true ↔ 1 ≤ id ∧ id ≤ 0
  constructor
  · intro h
    cases h
  · rintro ⟨hlo, hhi⟩
    omega

theorem Numbered.appends (hs : s.Numbered) (h : s.Appends s' r) : s'.Numbered := by
  intro id
  rw [h.retirement, h.count]
  by_cases hid : id = s.retirementCount + 1
  · subst hid
    rw [update_self]
    exact iff_of_true rfl ⟨by omega, le_refl _⟩
  · rw [update_of_ne hid, hs id]
    omega

/-- **One more record keeps the certificates unique exactly when its certificate is fresh.** -/
theorem certificatesUnique_appends (hs : s.Numbered) (hunique : s.CertificatesUnique)
    (h : s.Appends s' r) : s'.CertificatesUnique ↔ s.Fresh r.certificateIpfsHash := by
  have hnew : s'.retirement (s.retirementCount + 1) = some r := by
    rw [h.retirement, update_self]
  have hold : ∀ {id x}, s.retirement id = some x →
      id ≠ s.retirementCount + 1 ∧ s'.retirement id = some x := by
    intro id x hx
    have hne : id ≠ s.retirementCount + 1 := by
      have := ((hs id).mp (by rw [hx]; rfl)).2
      omega
    rw [h.retirement, update_of_ne hne]
    exact ⟨hne, hx⟩
  constructor
  · intro hafter id x hx hsame
    obtain ⟨hne, hx'⟩ := hold hx
    exact hne (hafter _ _ _ _ hx' hnew hsame)
  · intro hfresh i j ri rj hi hj hsame
    rw [h.retirement] at hi hj
    by_cases hi' : i = s.retirementCount + 1
    · by_cases hj' : j = s.retirementCount + 1
      · rw [hi', hj']
      · rw [hi', update_self] at hi
        rw [update_of_ne hj'] at hj
        obtain rfl := Option.some.inj hi
        exact absurd hsame.symm (hfresh j rj hj)
    · rw [update_of_ne hi'] at hi
      by_cases hj' : j = s.retirementCount + 1
      · rw [hj', update_self] at hj
        obtain rfl := Option.some.inj hj
        exact absurd hsame (hfresh i ri hi)
      · rw [update_of_ne hj'] at hj
        exact hunique i j ri rj hi hj hsame

end CreditRetirement

end VerdantBond
