import VerdantBond.Issuer.Steps

set_option autoImplicit false

/-! # BondIssuer: what a call can do to the contract

`BondStep` lists what can happen to one bond; `IssuerMove` lists what can happen to the whole
contract, one constructor for each shape of entry point. Each constructor says who signed the
call and what the state is afterwards, so that facts about the nonces, the admin and the serial
ranges are one case analysis each.
-/

namespace VerdantBond

open Function Machine IssuerReply

/-- The signer and the bond of a call that its signer makes on a bond, other than `subscribe`,
`transfer` and the redemption queue. -/
def IssuerCall.operation : IssuerCall → Option (Address × Nat)
  | .grantSubscription caller bondId _ _ _ => some (caller, bondId)
  | .commitSubscription investor bondId _ _ => some (investor, bondId)
  | .matureBond caller bondId _ => some (caller, bondId)
  | .fundRedemption caller bondId _ _ => some (caller, bondId)
  | .configureRedemptionBudget caller bondId _ _ _ => some (caller, bondId)
  | _ => none

/-- The signer and the configuration of a call that issues a bond. -/
def IssuerCall.issuance : IssuerCall → Option (Address × BondConfig)
  | .issueBond caller config _ => some (caller, config)
  | .issueAuction caller config _ _ => some (caller, config)
  | _ => none

/-- The signer of a call that only changes a setting of the contract. -/
def IssuerCall.setting : IssuerCall → Option Address
  | .setProjectRegistry caller _ _ => some caller
  | .setTransferBlocked caller _ _ _ => some caller
  | _ => none

/-- What a successful call does. -/
inductive IssuerMove (env : Env) (clock : Clock) (s : BondIssuer) : IssuerCall → BondIssuer → Prop where
  | setAdmin {a b : Address} {nonce : Nat} (hauth : env.authorized a = true)
      (hadmin : s.admin = some a) :
      IssuerMove env clock s (.setAdmin a b nonce) { s.signedBy a with admin := some b }
  | proposeAdmin {a p : Address} {nonce ttlLedgers : Nat} (hauth : env.authorized a = true)
      (hadmin : s.admin = some a) :
      IssuerMove env clock s (.proposeAdmin a p nonce ttlLedgers) { s.signedBy a with
        pendingAdmin := some p
        pendingAdminExpiry := some (min (clock.sequence + ttlLedgers) u32Max) }
  | acceptAdmin {p : Address} {nonce : Nat} (hauth : env.authorized p = true)
      (hpending : s.pendingAdmin = some p)
      (hlive : ∃ expiry ∈ s.pendingAdminExpiry, clock.sequence ≤ expiry) :
      IssuerMove env clock s (.acceptAdmin p nonce) { s.signedBy p with
        admin := some p, pendingAdmin := none, pendingAdminExpiry := none }
  | cancelAdminProposal {a : Address} {nonce : Nat} (hauth : env.authorized a = true)
      (hadmin : s.admin = some a) :
      IssuerMove env clock s (.cancelAdminProposal a nonce) { s.signedBy a with
        pendingAdmin := none, pendingAdminExpiry := none }
  | setting {call : IssuerCall} {a : Address} (registry : Option Address) (blocked : Address → Bool)
      (hcall : call.setting = some a) (hauth : env.authorized a = true) :
      IssuerMove env clock s call { s.signedBy a with
        projectRegistry := registry, transferBlocked := blocked }
  | issue {call : IssuerCall} {a : Address} {config : BondConfig} {b : Bond}
      (hcall : call.issuance = some (a, config)) (hauth : env.authorized a = true)
      (hrange : config.serialNumberStart ≤ config.serialNumberEnd)
      (hapart : ∀ r ∈ s.committedRanges config.projectId config.creditVintage,
        ¬ config.serialRange.Overlaps r)
      (hconfig : b.config = some config)
      (hbalance : b.holderBalance = (s.bond (s.bondCount + 1)).holderBalance) :
      IssuerMove env clock s call { s.signedBy a with
        committedRanges := update s.committedRanges config.projectId
          (update (s.committedRanges config.projectId) config.creditVintage
            (s.committedRanges config.projectId config.creditVintage ++ [config.serialRange]))
        bondCount := s.bondCount + 1
        bond := update s.bond (s.bondCount + 1) b }
  /-- Nobody's authorization is required. -/
  | subscribe {a : Address} {bondId : Nat} {amount : Int} {nonce : Nat} {b : Bond}
      (hopen : (s.bond bondId).subscriptionAuctionRequired = false)
      (h : (s.bond bondId).subscribe clock a amount = .ok b) :
      IssuerMove env clock s (.subscribe a bondId amount nonce) ((s.signedBy a).setBond bondId b)
  | transfer {a target : Address} {bondId : Nat} {amount : Int} {nonce : Nat} {b : Bond}
      (hauth : env.authorized a = true)
      (h : (s.bond bondId).transfer s.transferBlocked clock a target amount = .ok b) :
      IssuerMove env clock s (.transfer a target bondId amount nonce)
        ((s.signedBy a).setBond bondId b)
  | operation {call : IssuerCall} {a : Address} {bondId : Nat} {b : Bond} (tokens : TokenBalances)
      (hcall : call.operation = some (a, bondId)) (hauth : env.authorized a = true)
      (hconfig : b.config = (s.bond bondId).config)
      (hbalance : b.holderBalance = (s.bond bondId).holderBalance) :
      IssuerMove env clock s call { (s.signedBy a).setBond bondId b with tokenBalance := tokens }
  | settle {bondId : Nat} {b : Bond} {tokens : TokenBalances} {auction : AuctionState}
      (h : (s.bond bondId).settleSubscription env clock s.self s.tokenBalance
        = .ok (b, tokens, auction)) :
      IssuerMove env clock s (.settleSubscription bondId)
        { s.setBond bondId b with tokenBalance := tokens }
  /-- A known request is answered from the record and consumes no nonce. -/
  | request {a : Address} {bondId : Nat} {amount : Int} {requestKey : Bytes32} {nonce id : Nat}
      {s' : BondIssuer} (hauth : env.authorized a = true)
      (h : s.enqueue clock a bondId amount requestKey nonce = .ok (s', id)) :
      IssuerMove env clock s (.requestRedemption a bondId amount requestKey nonce) s'
  | process {bondId limit completed : Nat} {b : Bond}
      (h : (s.bond bondId).process clock limit = .ok (b, completed)) :
      IssuerMove env clock s (.processRedemptions bondId limit) (s.setBond bondId b)
  | redeem {a : Address} {bondId : Nat} {amount : Int} {nonce id : Nat} {s₁ : BondIssuer} {b : Bond}
      (hauth : env.authorized a = true)
      (hidle : (s.bond bondId).redeemable clock a amount = .ok ())
      (h : s.enqueue clock a bondId amount (env.sha256 nonce) nonce = .ok (s₁, id))
      (hid : (s.bond bondId).redemptionTail < id)
      (hpaid : (s₁.bond bondId).process clock 1 = .ok (b, 1)) :
      IssuerMove env clock s (.redeem a bondId amount nonce) (s₁.setBond bondId b)

namespace BondIssuer

variable {env : Env} {clock : Clock} {s s' : BondIssuer}

/-- Issuing a bond, directly or for an auction. -/
theorem issueBond_move {call : IssuerCall} {caller : Address} {config : BondConfig} {nonce id : Nat}
    (hcall : call.issuance = some (caller, config))
    (h : s.issueBond env clock caller config nonce = .ok (s', id)) {b : Bond}
    (hconfig : b.config = some config)
    (hbalance : b.holderBalance = (s.bond (s.bondCount + 1)).holderBalance) :
    IssuerMove env clock s call (s'.setBond id b) := by
  obtain ⟨hauth, -, -, -, -, -, -, rfl, hs⟩ := issueBond_ok h
  obtain ⟨hrange, hapart, hranges⟩ := issueBond_ranges h
  rw [hranges] at hs
  have hmove : IssuerMove env clock s call _ :=
    .issue hcall hauth hrange hapart hconfig hbalance
  have hpost : s'.setBond (s.bondCount + 1) b = { s.signedBy caller with
      committedRanges := update s.committedRanges config.projectId
        (update (s.committedRanges config.projectId) config.creditVintage
          (s.committedRanges config.projectId config.creditVintage ++ [config.serialRange]))
      bondCount := s.bondCount + 1
      bond := update s.bond (s.bondCount + 1) b } := by
    rw [hs]
    simp only [setBond, update_idem]
    rfl
  rw [hpost]
  exact hmove

/-- **What a successful call does to the contract.** -/
theorem exec_move {call : IssuerCall} {reply : IssuerReply}
    (h : s.exec env clock call = .ok (s', reply)) : IssuerMove env clock s call s' := by
  simp only [exec, bind_ok_iff, hostRequire_ok_iff, exists_unit_iff] at h
  obtain ⟨-, h⟩ := h
  cases call with
  | setAdmin =>
      obtain ⟨hauth, hadmin, -, rfl⟩ := setAdmin_ok (ofUnit_ok_iff.mp h).1
      exact .setAdmin hauth hadmin
  | proposeAdmin =>
      obtain ⟨hauth, hadmin, -, -, rfl⟩ := proposeAdmin_ok (ofUnit_ok_iff.mp h).1
      exact .proposeAdmin hauth hadmin
  | acceptAdmin =>
      obtain ⟨hauth, -, hpending, hlive, rfl⟩ := acceptAdmin_ok (ofUnit_ok_iff.mp h).1
      exact .acceptAdmin hauth hpending hlive
  | cancelAdminProposal =>
      obtain ⟨hauth, hadmin, -, rfl⟩ := cancelAdminProposal_ok (ofUnit_ok_iff.mp h).1
      exact .cancelAdminProposal hauth hadmin
  | setProjectRegistry =>
      obtain ⟨hauth, -, -, rfl⟩ := setProjectRegistry_ok (ofUnit_ok_iff.mp h).1
      exact .setting _ s.transferBlocked rfl hauth
  | setTransferBlocked =>
      obtain ⟨hauth, -, -, rfl⟩ := setTransferBlocked_ok (ofUnit_ok_iff.mp h).1
      exact .setting s.projectRegistry _ rfl hauth
  | issueBond caller config nonce =>
      obtain ⟨id, h, -⟩ := ofNumber_ok_iff.mp h
      have hid : (s'.bond id).config = some config ∧
          (s'.bond id).holderBalance = (s.bond (s.bondCount + 1)).holderBalance := by
        obtain ⟨-, -, -, -, -, -, -, rfl, hs⟩ := issueBond_ok h
        rw [hs]
        simp [Bond.issued]
      have hmove : IssuerMove env clock s (.issueBond caller config nonce)
          (s'.setBond id (s'.bond id)) := issueBond_move rfl h hid.1 hid.2
      have hsame : s'.setBond id (s'.bond id) = s' := by
        simp only [setBond, update_eq_self]
      rwa [hsame] at hmove
  | issueAuction caller config auction nonce =>
      obtain ⟨id, h, -⟩ := ofNumber_ok_iff.mp h
      obtain ⟨s₁, h1, -, -, -, rfl⟩ := issueAuction_ok h
      have hid : ((s₁.bond id).withAuction auction).config = some config ∧
          ((s₁.bond id).withAuction auction).holderBalance
            = (s.bond (s.bondCount + 1)).holderBalance := by
        obtain ⟨-, -, -, -, -, -, -, rfl, hs⟩ := issueBond_ok h1
        rw [hs]
        simp [Bond.issued, Bond.withAuction]
      exact issueBond_move rfl h1 hid.1 hid.2
  | subscribe =>
      obtain ⟨hopen, -, b, hb, rfl⟩ := subscribe_ok (ofUnit_ok_iff.mp h).1
      exact .subscribe hopen hb
  | transfer =>
      obtain ⟨hauth, -, b, hb, rfl⟩ := transfer_ok (ofUnit_ok_iff.mp h).1
      exact .transfer hauth hb
  | grantSubscription =>
      obtain ⟨hauth, -, -, b, hb, rfl⟩ := grantSubscription_ok (ofUnit_ok_iff.mp h).1
      obtain ⟨_, -, -, -, -, -, -, rfl⟩ := Bond.grantSubscription_ok hb
      exact .operation s.tokenBalance rfl hauth rfl rfl
  | commitSubscription =>
      obtain ⟨hauth, -, b, tokens, hb, rfl⟩ := commitSubscription_ok (ofUnit_ok_iff.mp h).1
      obtain ⟨_, _, _, -, -, -, -, -, -, -, -, rfl⟩ := Bond.commitSubscription_ok hb
      exact .operation tokens rfl hauth rfl rfl
  | settleSubscription =>
      obtain ⟨_, h, -⟩ := ofAuction_ok_iff.mp h
      obtain ⟨b, tokens, hb, rfl⟩ := settleSubscription_ok h
      exact .settle hb
  | matureBond =>
      obtain ⟨hauth, -, -, b, hb, rfl⟩ := matureBond_ok (ofUnit_ok_iff.mp h).1
      obtain ⟨_, _, -, -, -, -, rfl⟩ := Bond.mature_ok hb
      exact .operation s.tokenBalance rfl hauth rfl rfl
  | fundRedemption =>
      obtain ⟨hauth, -, -, b, hb, rfl⟩ := fundRedemption_ok (ofUnit_ok_iff.mp h).1
      obtain ⟨_, -, -, -, rfl⟩ := Bond.fund_ok hb
      exact .operation s.tokenBalance rfl hauth rfl rfl
  | configureRedemptionBudget =>
      obtain ⟨hauth, -, -, b, hb, rfl⟩ := configureRedemptionBudget_ok (ofUnit_ok_iff.mp h).1
      obtain ⟨_, -, -, -, -, rfl⟩ := Bond.configureBudget_ok hb
      exact .operation s.tokenBalance rfl hauth rfl rfl
  | requestRedemption =>
      obtain ⟨_, h, -⟩ := ofNumber_ok_iff.mp h
      obtain ⟨hauth, henq⟩ := requestRedemption_ok h
      exact .request hauth henq
  | processRedemptions =>
      obtain ⟨_, h, -⟩ := ofNumber_ok_iff.mp h
      obtain ⟨b, hb, rfl⟩ := processRedemptions_ok h
      exact .process hb
  | redeem =>
      obtain ⟨hauth, -, hidle, s₁, id, henq, hid, hproc⟩ := redeem_ok (ofUnit_ok_iff.mp h).1
      obtain ⟨b, hb, rfl⟩ := processRedemptions_ok hproc
      exact .redeem hauth hidle henq hid hb

end BondIssuer

/-- An input is a successful call, or leaves everything in the contract but the tokens. -/
theorem IssuerWorld.step_move (w : IssuerWorld) (i : IssuerInput) :
    ((w.step i).1.issuer = { w.issuer with tokenBalance := (w.step i).1.issuer.tokenBalance } ∧
        (w.step i).2 = none) ∨
      ∃ env call, i = .call env call ∧ IssuerMove env w.clock w.issuer call (w.step i).1.issuer ∧
        (w.step i).1.clock = w.clock ∧ (w.step i).2.isSome = true := by
  cases i with
  | call env call =>
      rcases w.step_call env call with ⟨-, hstep⟩ | ⟨issuer, reply, hexec, hstep⟩
      · exact .inl ⟨by rw [hstep], by rw [hstep]⟩
      · refine .inr ⟨env, call, rfl, ?_, ?_, ?_⟩
        · rw [hstep]
          exact BondIssuer.exec_move hexec
        · rw [hstep]
        · rw [hstep]
          rfl
  | close ledgers seconds => exact .inl ⟨rfl, rfl⟩
  | tokens balances => exact .inl ⟨rfl, rfl⟩

end VerdantBond
