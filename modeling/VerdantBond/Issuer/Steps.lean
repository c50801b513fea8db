import VerdantBond.Issuer.EntryPoints

set_option autoImplicit false

/-! # BondIssuer: what a call can do to a bond

`BondStep clock b b'` lists every elementary change of a bond's record. A successful call
touches at most one bond and takes it along a trail of such steps: one step for most calls, and
for `process_redemptions` and `redeem` one step for each round of the queue loop (`exec_trail`).

Facts about one bond are proved from `BondStep` alone; `bond_invariant` carries them to every
run.
-/

namespace VerdantBond

open Function Machine IssuerReply Bond

namespace Bond

/-- The units `process` pays of `request`, by the pool and the cycle's unused allowance. -/
def due (b : Bond) (config : BondConfig) (usage : RedemptionCycle) (request : RedemptionRequest) :
    Int :=
  min request.remaining
    ((min b.redemptionPool (b.budget.principalPerCycle - usage.paid)).tdiv config.faceValue)

/-- The record after `amount` units of the head's `request` were paid. -/
def paid (b : Bond) (config : BondConfig) (state : BondState) (usage : RedemptionCycle)
    (request : RedemptionRequest) (amount : Int) (holderLog supplyLog : VersionLog Int) : Bond :=
  { b with
    state := some { state with totalSubscribed := state.totalSubscribed - amount }
    holderBalance :=
      update b.holderBalance request.holder (b.holderBalance request.holder - amount)
    balanceVersion := b.balanceVersion + 1
    holderLog := update b.holderLog request.holder holderLog
    supplyLog := supplyLog
    redemptionPool := b.redemptionPool - amount * config.faceValue
    redemptionReserved :=
      update b.redemptionReserved request.holder (b.redemptionReserved request.holder - amount)
    redemptionRequest := update b.redemptionRequest b.redemptionHead
      (some { request with remaining := request.remaining - amount })
    redemptionHead := if request.remaining = amount then b.redemptionHead + 1 else b.redemptionHead
    redemptionCycle := some { usage with paid := usage.paid + amount * config.faceValue } }

end Bond

/-- Calls by what they do to a bond's redemption queue. -/
inductive CallKind where
  | redemption
  | funding
  | other
  deriving DecidableEq, Repr

def IssuerCall.kind : IssuerCall → CallKind
  | .requestRedemption .. | .processRedemptions .. | .redeem .. => .redemption
  | .fundRedemption .. => .funding
  | _ => .other

/-- **The elementary changes of a bond's record**, by the kind of call that makes them. -/
inductive BondStep (clock : Clock) : CallKind → Bond → Bond → Prop where
  | same (kind : CallKind) (b : Bond) : BondStep clock kind b b
  | issue (config : BondConfig) (hface : 0 < config.faceValue) (hsupply : 0 < config.totalSupply)
      (hmax : config.totalSupply ≤ maxSupply) :
      BondStep clock .other Bond.unissued (Bond.unissued.issued clock config)
  | issueAuction (config : BondConfig) (auction : AuctionConfig) (hface : 0 < config.faceValue)
      (hsupply : 0 < config.totalSupply) (hmax : config.totalSupply ≤ maxSupply) :
      BondStep clock .other Bond.unissued ((Bond.unissued.issued clock config).withAuction auction)
  | subscribe {b b' : Bond} {investor : Address} {amount : Int}
      (hopen : b.subscriptionAuctionRequired = false)
      (h : b.subscribe clock investor amount = .ok b') : BondStep clock .other b b'
  | transfer {b b' : Bond} {blocked : Address → Bool} {source target : Address} {amount : Int}
      (h : b.transfer blocked clock source target amount = .ok b') : BondStep clock .other b b'
  | grant {b b' : Bond} {self wallet : Address} {identity : Bytes32}
      (h : b.grantSubscription clock self wallet identity = .ok b') : BondStep clock .other b b'
  | commit {b b' : Bond} {env : Env} {self investor : Address} {tokens tokens' : TokenBalances}
      {amount : Int}
      (h : b.commitSubscription env clock self tokens investor amount = .ok (b', tokens')) :
      BondStep clock .other b b'
  | settle {b b' : Bond} {env : Env} {self : Address} {tokens tokens' : TokenBalances}
      {auction : AuctionState}
      (h : b.settleSubscription env clock self tokens = .ok (b', tokens', auction)) :
      BondStep clock .other b b'
  | mature {b b' : Bond} (h : b.mature clock = .ok b') : BondStep clock .other b b'
  | fund {b b' : Bond} {amount : Int} (h : b.fund amount = .ok b') : BondStep clock .funding b b'
  | configureBudget {b b' : Bond} {principalPerCycle : Int} {ledgersPerCycle : Nat}
      (hin : InI128 principalPerCycle)
      (h : b.configureBudget principalPerCycle ledgersPerCycle = .ok b') : BondStep clock .other b b'
  | request {b b' : Bond} {holder : Address} {amount : Int} {requestKey : Bytes32}
      (hnew : b.redemptionId holder requestKey = none) (hcheck : b.checkRequest holder amount = .ok ())
      (h : b.push clock holder amount requestKey = .ok b') : BondStep clock .redemption b b'
  /-- `process` reads the current cycle's usage and stores it back. -/
  | openCycle {b : Bond} {config : BondConfig} (hconfig : b.config = some config)
      (hlength : b.budget.ledgersPerCycle ≠ 0) :
      BondStep clock .redemption b { b with
        redemptionCycle := some (b.usageIn (clock.sequence / b.budget.ledgersPerCycle)) }
  /-- A round of `process` that pays. -/
  | pay {b : Bond} {config : BondConfig} {state : BondState} {usage : RedemptionCycle}
      {request : RedemptionRequest} {amount : Int} {holderLog supplyLog : VersionLog Int}
      (hconfig : b.config = some config) (hface : 0 < config.faceValue)
      (hstate : b.state = some state) (hmatured : state.status = .matured)
      (husage : b.redemptionCycle = some usage)
      (hcycle : usage.cycle = clock.sequence / b.budget.ledgersPerCycle)
      (hhead : b.redemptionHead ≠ 0) (htail : b.redemptionHead ≤ b.redemptionTail)
      (hrequest : b.redemptionRequest b.redemptionHead = some request)
      (hamount : amount = b.due config usage request) (hpos : 0 < amount)
      (hbalance : amount ≤ b.holderBalance request.holder)
      (hpool : amount * config.faceValue ≤ b.redemptionPool)
      (hholder : (b.holderLog request.holder).append (b.balanceVersion + 1)
        (b.holderBalance request.holder) (b.holderBalance request.holder - amount) = some holderLog)
      (hsupply : b.supplyLog.append (b.balanceVersion + 1) state.totalSubscribed
        (state.totalSubscribed - amount) = some supplyLog) :
      BondStep clock .redemption b (b.paid config state usage request amount holderLog supplyLog)

/-- What no elementary change takes back: the configuration, the existence of the state, and
maturity. -/
structure Bond.Persists (b b' : Bond) : Prop where
  config : ∀ c, b.config = some c → b'.config = some c
  state : ∀ s, b.state = some s → ∃ s', b'.state = some s' ∧
    (s.status = .matured → s'.status = .matured)

theorem Bond.Persists.refl (b : Bond) : b.Persists b := ⟨fun _ h => h, fun s h => ⟨s, h, id⟩⟩

variable {b b' : Bond} {clock : Clock} {env : Env} {call : IssuerCall} {reply : IssuerReply}

theorem Bond.Persists.trans {b'' : Bond} (h : b.Persists b') (h' : b'.Persists b'') :
    b.Persists b'' := by
  refine ⟨fun c hc => h'.config c (h.config c hc), fun s hs => ?_⟩
  obtain ⟨s', hs', hmat⟩ := h.state s hs
  obtain ⟨s'', hs'', hmat'⟩ := h'.state s' hs'
  exact ⟨s'', hs'', fun hm => hmat' (hmat hm)⟩

/-- A blank record has nothing to keep. -/
theorem Bond.Persists.of_unissued (b : Bond) : unissued.Persists b := by
  constructor <;> intro _ h <;> cases h

/-- A change that keeps the configuration and the state. -/
theorem Bond.Persists.of_eq (hc : b'.config = b.config) (hs : b'.state = b.state) : b.Persists b' :=
  ⟨fun c h => by rw [hc, h], fun s h => ⟨s, by rw [hs, h], id⟩⟩

variable {state : BondState} {s s' : BondIssuer}

/-- A change of the state that keeps its status. -/
theorem Bond.Persists.of_state {state' : BondState} (hc : b'.config = b.config)
    (hs : b.state = some state) (hs' : b'.state = some state')
    (hstatus : state.status = .matured → state'.status = .matured) : b.Persists b' := by
  refine ⟨fun c h => by rw [hc, h], fun s h => ⟨state', hs', ?_⟩⟩
  rw [hs] at h
  cases h
  exact hstatus

/-! ## The queue loop -/

namespace QueueRun

/-- What the loop variables keep through the loop of `process`. -/
structure Running (clock : Clock) (config : BondConfig) (budget : RedemptionBudget) (tail : Nat)
    (r : QueueRun) : Prop where
  face : 0 < config.faceValue
  cycle_eq : r.usage.cycle = clock.sequence / budget.ledgersPerCycle
  config_eq : r.bond.config = some config
  budget_eq : r.bond.budget = budget
  tail_eq : r.bond.redemptionTail = tail

variable {clock : Clock} {config : BondConfig} {budget : RedemptionBudget} {tail : Nat}

/-- One round of the loop is one elementary step. -/
theorem turn_step {r r' : QueueRun} {again : Bool} (hr : r.Running clock config budget tail)
    (h : r.turn config budget tail = .ok (r', again)) :
    BondStep clock .redemption r.view r'.view ∧ r'.Running clock config budget tail := by
  obtain ⟨hface, hcycle, hconfig, rfl, rfl⟩ := hr
  rcases turn_ok h with ⟨rfl, -, -⟩ | ⟨request, paid, hhead, htail, hreq, hpos, hpay, hend⟩
  · exact ⟨.same _ _, hface, hcycle, hconfig, rfl, rfl⟩
  obtain ⟨amount, hamount⟩ : ∃ a, a = r.due config r.bond.budget request := ⟨_, rfl⟩
  rw [← hamount] at hpos hpay hend
  obtain ⟨b, hb, rfl⟩ := payRequest_ok hpay
  obtain ⟨config', state, hl, sl, -, hc', hs, hmat, hbal, hpool, -, hhl, hsl, rfl⟩ :=
    settleRedemption_ok hb
  obtain rfl : config' = config := by
    rw [hconfig] at hc'
    exact (Option.some.inj hc').symm
  have hstep : BondStep clock .redemption r.view (r.view.paid config' state r.usage request amount hl sl) :=
    .pay hconfig hface hs hmat rfl hcycle hhead htail hreq hamount hpos hbal hpool hhl hsl
  rcases hend with ⟨hrem, rfl, -⟩ | ⟨hrem, -, rfl, -⟩
  · refine ⟨?_, hface, hcycle, hconfig, rfl, rfl⟩
    have hne : request.remaining ≠ amount := by omega
    rw [paid, if_neg hne] at hstep
    exact hstep
  · refine ⟨?_, hface, hcycle, hconfig, rfl, rfl⟩
    have heq : request.remaining = amount := by omega
    rw [paid, if_pos heq] at hstep
    exact hstep

theorem loop_trail :
    ∀ fuel (r r' : QueueRun), r.Running clock config budget tail →
      loop config budget tail fuel r = .ok r' →
      Trail (BondStep clock .redemption) r.view (visits config budget tail fuel r) r'.view := by
  intro fuel
  induction fuel with
  | zero =>
      intro r r' _ h
      simp only [loop, Except.ok.injEq] at h
      subst h
      exact .nil _
  | succ fuel ih =>
      intro r r' hr h
      simp only [loop, bind_ok_iff] at h
      obtain ⟨⟨r₁, again⟩, h1, h2⟩ := h
      obtain ⟨hstep, hr₁⟩ := turn_step hr h1
      simp only [visits, h1]
      cases again with
      | true => exact .cons hstep (ih r₁ r' hr₁ h2)
      | false =>
          simp only [Bool.false_eq_true, if_false, Except.ok.injEq] at h2 ⊢
          subst h2
          exact Trail.single hstep

end QueueRun

/-- `process` takes a bond along the records it passes through. -/
theorem Bond.process_trail {limit completed : Nat} (h : b.process clock limit = .ok (b', completed)) :
    Trail (BondStep clock .redemption) b (b.processVisits clock limit) b' := by
  obtain ⟨config, start, r, hs, hl, rfl, -⟩ := process_ok h
  obtain ⟨hconfig, hface, hlen, rfl⟩ := processStart_ok hs
  simp only [processVisits, hs]
  refine .cons (BondStep.openCycle hconfig hlen) ?_
  exact QueueRun.loop_trail _ _ _ ⟨hface, b.usageIn_cycle _, hconfig, rfl, rfl⟩ hl

/-! ## Calls -/

namespace BondIssuer

/-- The records of the bond `id` after each balance operation of a successful call from `s` to
`s'`. Only the queue loop makes more than one. -/
def visits (env : Env) (clock : Clock) (s s' : BondIssuer) (id : Nat) : IssuerCall → List Bond
  | .processRedemptions bondId limit =>
      if id = bondId then (s.bond id).processVisits clock limit else [s'.bond id]
  | .redeem holder bondId amount nonce =>
      if id = bondId then
        match s.enqueue clock holder bondId amount (env.sha256 nonce) nonce with
        | .ok (s₁, _) => s₁.bond id :: (s₁.bond id).processVisits clock 1
        | .error _ => []
      else [s'.bond id]
  | _ => [s'.bond id]

/-- What a successful call does to the bonds: it issues the next one, or takes one bond along a
trail of elementary steps and no other bond anywhere. -/
inductive Effect (clock : Clock) (kind : CallKind) (s s' : BondIssuer) (visits : Nat → List Bond) : Prop where
  | issue (b : Bond) (hcount : s'.bondCount = s.bondCount + 1)
      (hbond : s'.bond = update s.bond (s.bondCount + 1) b)
      (hstep : s.bond (s.bondCount + 1) = Bond.unissued → BondStep clock kind Bond.unissued b)
      (hvisits : ∀ id, visits id = [s'.bond id])
  | touch (target : Nat) (hcount : s'.bondCount = s.bondCount)
      (hother : ∀ id, id ≠ target → s'.bond id = s.bond id ∧ visits id = [s'.bond id])
      (htrail : Trail (BondStep clock kind) (s.bond target) (visits target) (s'.bond target))
      (hissued : s.bond target = Bond.unissued → s'.bond target = Bond.unissued)

variable {clock : Clock} {kind : CallKind} {visits : Nat → List Bond}

variable {s s' : BondIssuer}

/-- A call that leaves the bonds alone. -/
theorem Effect.none (hcount : s'.bondCount = s.bondCount) (hbond : s'.bond = s.bond)
    (hvisits : ∀ id, visits id = [s'.bond id]) : Effect clock kind s s' visits := by
  refine .touch 0 hcount (fun id _ => ⟨by rw [hbond], hvisits id⟩) ?_ (fun h => by rw [hbond, h])
  rw [hvisits, hbond]
  exact Trail.single (.same _ _)

/-- A call that makes one elementary step on one bond. -/
theorem Effect.single {target : Nat} {b : Bond} (hcount : s'.bondCount = s.bondCount)
    (hbond : s'.bond = update s.bond target b) (hstep : BondStep clock kind (s.bond target) b)
    (hissued : s.bond target ≠ unissued) (hvisits : ∀ id, visits id = [s'.bond id]) :
    Effect clock kind s s' visits := by
  refine .touch target hcount (fun id hid => ⟨?_, hvisits id⟩) ?_ (fun h => absurd h hissued)
  · rw [hbond, update_of_ne hid]
  · rw [hvisits, hbond, update_self]
    exact Trail.single hstep

end BondIssuer

/-- A record with a configuration, a state or an auction is not blank. -/
theorem Bond.ne_unissued_of_config {config : BondConfig} (h : b.config = some config) :
    b ≠ unissued := by
  rintro rfl
  cases h

theorem Bond.ne_unissued_of_state (h : b.state = some state) : b ≠ unissued := by
  rintro rfl
  cases h

theorem Bond.ne_unissued_of_auction {auction : AuctionState}
    (h : b.subscriptionAuction = some auction) : b ≠ unissued := by
  rintro rfl
  cases h

namespace BondIssuer

variable {env : Env} {clock : Clock} {s s' : BondIssuer} {caller holder : Address}
  {config : BondConfig} {nonce id bondId limit : Nat} {visits : Nat → List Bond} {amount : Int}

theorem issueBond_effect (h : s.issueBond env clock caller config nonce = .ok (s', id))
    (hvisits : ∀ id, visits id = [s'.bond id]) : Effect clock .other s s' visits := by
  obtain ⟨-, -, -, hface, hpos, hmax, -, rfl, hs⟩ := issueBond_ok h
  refine .issue ((s.bond (s.bondCount + 1)).issued clock config) (by rw [hs]) (by rw [hs]) ?_ hvisits
  intro hblank
  rw [hblank]
  exact .issue config hface hpos hmax

theorem issueAuction_effect {auction : AuctionConfig}
    (h : s.issueAuction env clock caller config auction nonce = .ok (s', id))
    (hvisits : ∀ id, visits id = [s'.bond id]) : Effect clock .other s s' visits := by
  obtain ⟨s₁, h1, -, -, -, rfl⟩ := issueAuction_ok h
  obtain ⟨-, -, -, hface, hpos, hmax, -, rfl, hs⟩ := issueBond_ok h1
  refine .issue (((s.bond (s.bondCount + 1)).issued clock config).withAuction auction)
    (by rw [setBond_bondCount, hs]) ?_ ?_ hvisits
  · rw [hs]
    simp [setBond]
  · intro hblank
    rw [hblank]
    exact .issueAuction config auction hface hpos hmax

/-- Queueing a request, or replaying a known one. -/
theorem enqueue_step {requestKey : Bytes32}
    (h : s.enqueue clock holder bondId amount requestKey nonce = .ok (s', id)) :
    s'.bondCount = s.bondCount ∧ (∀ i, i ≠ bondId → s'.bond i = s.bond i) ∧
      BondStep clock .redemption (s.bond bondId) (s'.bond bondId) ∧
      (s.bond bondId = unissued → s'.bond bondId = unissued) := by
  rcases enqueue_ok h with ⟨-, rfl⟩ | ⟨hnew, hadm, s₁, b, hn, hb, rfl, -⟩
  · exact ⟨rfl, fun _ _ => rfl, .same _ _, fun h => h⟩
  obtain ⟨-, rfl⟩ := consumeNonce_ok hn
  refine ⟨rfl, fun i hi => setBond_bond_other _ b hi, ?_, ?_⟩
  · rw [setBond_bond_same]
    exact .request hnew hadm hb
  · obtain ⟨state, hs, -⟩ := checkRequest_ok hadm
    exact fun hblank => absurd hblank (ne_unissued_of_state hs)

variable {completed : Nat}

theorem process_ne_unissued {b b' : Bond} (h : b.process clock limit = .ok (b', completed)) :
    b ≠ unissued := by
  obtain ⟨config, start, r, hs, -⟩ := process_ok h
  exact ne_unissued_of_config (processStart_ok hs).1

theorem processRedemptions_effect
    (h : s.processRedemptions clock bondId limit = .ok (s', completed)) :
    Effect clock .redemption s s'
      (fun id => s.visits env clock s' id (.processRedemptions bondId limit)) := by
  obtain ⟨b, hb, rfl⟩ := processRedemptions_ok h
  refine .touch bondId rfl (fun id hid => ⟨setBond_bond_other _ b hid, if_neg hid⟩) ?_
    (fun hblank => absurd hblank (process_ne_unissued hb))
  simp only [visits, if_true, setBond_bond_same]
  exact process_trail hb

theorem redeem_effect (h : s.redeem env clock holder bondId amount nonce = .ok s') :
    Effect clock .redemption s s'
      (fun id => s.visits env clock s' id (.redeem holder bondId amount nonce)) := by
  obtain ⟨-, -, hred, s₁, id, h1, -, h2⟩ := redeem_ok h
  obtain ⟨hcount, hother, hstep, -⟩ := enqueue_step h1
  obtain ⟨b, hb, rfl⟩ := processRedemptions_ok h2
  refine .touch bondId hcount (fun i hi => ⟨?_, if_neg hi⟩) ?_ ?_
  · rw [setBond_bond_other _ b hi, hother i hi]
  · simp only [visits, if_true, h1, setBond_bond_same]
    exact .cons hstep (process_trail hb)
  · simp only [redeemable, bind_ok_iff, okOr_ok_iff] at hred
    obtain ⟨config, hc, -⟩ := hred
    exact fun hblank => absurd hblank (ne_unissued_of_config hc)

end BondIssuer

/-- The calls that only concern the admin, the registry and the transfer blocks. -/
def IssuerCall.administers : IssuerCall → Bool
  | .setAdmin .. | .proposeAdmin .. | .acceptAdmin .. | .cancelAdminProposal ..
  | .setProjectRegistry .. | .setTransferBlocked .. => true
  | _ => false

namespace BondIssuer

variable {env : Env} {clock : Clock} {call : IssuerCall} {reply : IssuerReply}

variable {s s' : BondIssuer}

/-- Such a call leaves the bonds and the tokens. -/
theorem exec_administers (hcall : call.administers = true)
    (h : s.exec env clock call = .ok (s', reply)) :
    s'.self = s.self ∧ s'.bondCount = s.bondCount ∧ s'.bond = s.bond ∧
      s'.tokenBalance = s.tokenBalance := by
  simp only [exec, bind_ok_iff, hostRequire_ok_iff, exists_unit_iff] at h
  obtain ⟨-, h⟩ := h
  cases call with
  | setAdmin =>
      obtain ⟨-, -, -, rfl⟩ := setAdmin_ok (ofUnit_ok_iff.mp h).1
      exact ⟨rfl, rfl, rfl, rfl⟩
  | proposeAdmin =>
      obtain ⟨-, -, -, -, rfl⟩ := proposeAdmin_ok (ofUnit_ok_iff.mp h).1
      exact ⟨rfl, rfl, rfl, rfl⟩
  | acceptAdmin =>
      obtain ⟨-, -, -, -, rfl⟩ := acceptAdmin_ok (ofUnit_ok_iff.mp h).1
      exact ⟨rfl, rfl, rfl, rfl⟩
  | cancelAdminProposal =>
      obtain ⟨-, -, -, rfl⟩ := cancelAdminProposal_ok (ofUnit_ok_iff.mp h).1
      exact ⟨rfl, rfl, rfl, rfl⟩
  | setProjectRegistry =>
      obtain ⟨-, -, -, rfl⟩ := setProjectRegistry_ok (ofUnit_ok_iff.mp h).1
      exact ⟨rfl, rfl, rfl, rfl⟩
  | setTransferBlocked =>
      obtain ⟨-, -, -, rfl⟩ := setTransferBlocked_ok (ofUnit_ok_iff.mp h).1
      exact ⟨rfl, rfl, rfl, rfl⟩
  | _ => cases hcall

/-- **What a successful call does to the bonds.** -/
theorem exec_effect (h : s.exec env clock call = .ok (s', reply)) :
    Effect clock call.kind s s' (fun id => s.visits env clock s' id call) := by
  have hexec := h
  simp only [exec, bind_ok_iff, hostRequire_ok_iff, exists_unit_iff] at h
  obtain ⟨htyped, h⟩ := h
  cases call with
  | setAdmin | proposeAdmin | acceptAdmin | cancelAdminProposal | setProjectRegistry
  | setTransferBlocked =>
      obtain ⟨-, hcount, hbond, -⟩ := exec_administers rfl hexec
      exact .none hcount hbond (fun _ => rfl)
  | issueBond caller config nonce =>
      obtain ⟨_, h, -⟩ := ofNumber_ok_iff.mp h
      exact issueBond_effect h (fun _ => rfl)
  | issueAuction caller config auction nonce =>
      obtain ⟨_, h, -⟩ := ofNumber_ok_iff.mp h
      exact issueAuction_effect h (fun _ => rfl)
  | subscribe investor bondId amount nonce =>
      obtain ⟨hreq, -, b, hb, rfl⟩ := subscribe_ok (ofUnit_ok_iff.mp h).1
      obtain ⟨config, -, -, -, -, hc, -⟩ := Bond.subscribe_ok hb
      exact .single rfl rfl (.subscribe hreq hb) (Bond.ne_unissued_of_config hc) (fun _ => rfl)
  | transfer source target bondId amount nonce =>
      obtain ⟨-, -, b, hb, rfl⟩ := transfer_ok (ofUnit_ok_iff.mp h).1
      obtain ⟨config, -, -, -, -, -, hc, -⟩ := Bond.transfer_ok hb
      exact .single rfl rfl (.transfer hb) (Bond.ne_unissued_of_config hc) (fun _ => rfl)
  | grantSubscription caller bondId wallet identity nonce =>
      obtain ⟨-, -, -, b, hb, rfl⟩ := grantSubscription_ok (ofUnit_ok_iff.mp h).1
      obtain ⟨auction, ha, -⟩ := Bond.grantSubscription_ok hb
      exact .single rfl rfl (.grant hb) (Bond.ne_unissued_of_auction ha) (fun _ => rfl)
  | commitSubscription investor bondId amount nonce =>
      obtain ⟨-, -, b, tokens, hb, rfl⟩ := commitSubscription_ok (ofUnit_ok_iff.mp h).1
      obtain ⟨auction, -, -, ha, -⟩ := Bond.commitSubscription_ok hb
      exact .single rfl rfl (.commit hb) (Bond.ne_unissued_of_auction ha) (fun _ => rfl)
  | settleSubscription bondId =>
      obtain ⟨_, h, -⟩ := ofAuction_ok_iff.mp h
      obtain ⟨b, tokens, hb, rfl⟩ := settleSubscription_ok h
      obtain ⟨auction, -, -, -, -, -, ha, -⟩ := Bond.settleSubscription_ok hb
      exact .single rfl rfl (.settle hb) (Bond.ne_unissued_of_auction ha) (fun _ => rfl)
  | matureBond caller bondId nonce =>
      obtain ⟨-, -, -, b, hb, rfl⟩ := matureBond_ok (ofUnit_ok_iff.mp h).1
      obtain ⟨config, -, hc, -⟩ := mature_ok hb
      exact .single rfl rfl (.mature hb) (ne_unissued_of_config hc) (fun _ => rfl)
  | fundRedemption caller bondId amount nonce =>
      obtain ⟨-, -, -, b, hb, rfl⟩ := fundRedemption_ok (ofUnit_ok_iff.mp h).1
      obtain ⟨config, hc, -⟩ := fund_ok hb
      exact .single rfl rfl (.fund hb) (ne_unissued_of_config hc) (fun _ => rfl)
  | configureRedemptionBudget caller bondId principalPerCycle ledgersPerCycle nonce =>
      obtain ⟨-, -, -, b, hb, rfl⟩ := configureRedemptionBudget_ok (ofUnit_ok_iff.mp h).1
      obtain ⟨config, hc, -⟩ := configureBudget_ok hb
      exact .single rfl rfl (.configureBudget htyped.2.1 hb) (ne_unissued_of_config hc)
        (fun _ => rfl)
  | requestRedemption holder bondId amount requestKey nonce =>
      obtain ⟨_, h, -⟩ := ofNumber_ok_iff.mp h
      obtain ⟨hcount, hother, hstep, hissued⟩ := enqueue_step (requestRedemption_ok h).2
      exact .touch bondId hcount (fun i hi => ⟨hother i hi, rfl⟩) (Trail.single hstep) hissued
  | processRedemptions bondId limit =>
      obtain ⟨_, h, -⟩ := ofNumber_ok_iff.mp h
      exact processRedemptions_effect h
  | redeem holder bondId amount nonce =>
      exact redeem_effect (ofUnit_ok_iff.mp h).1

end BondIssuer

/-! ## Runs -/

/-- No record was ever written under an id that is not issued yet. -/
def BondIssuer.Fresh (s : BondIssuer) : Prop := ∀ id, s.bondCount < id → s.bond id = Bond.unissued

theorem BondIssuer.exec_fresh (hs : s.Fresh) (h : s.exec env clock call = .ok (s', reply)) :
    s'.Fresh := by
  intro id hid
  cases exec_effect h with
  | issue b hcount hbond _ _ =>
      rw [hbond, update_of_ne (by omega)]
      exact hs id (by omega)
  | touch target hcount hother _ hissued =>
      rw [hcount] at hid
      by_cases hit : id = target
      · rw [hit] at hid ⊢
        exact hissued (hs target hid)
      · rw [(hother id hit).1]
        exact hs id hid

/-- **Every successful call takes every bond along a trail of elementary steps.** -/
theorem BondIssuer.exec_trail (hs : s.Fresh) (h : s.exec env clock call = .ok (s', reply))
    (id : Nat) :
    Trail (BondStep clock call.kind) (s.bond id) (s.visits env clock s' id call) (s'.bond id) := by
  cases exec_effect h with
  | issue b hcount hbond hstep hvisits =>
      rw [hvisits, hbond]
      by_cases hid : id = s.bondCount + 1
      · have hblank := hs (s.bondCount + 1) (Nat.lt_succ_self _)
        rw [hid, update_self, hblank]
        exact Trail.single (hstep hblank)
      · rw [update_of_ne hid]
        exact Trail.single (.same _ _)
  | touch target hcount hother htrail hissued =>
      by_cases hid : id = target
      · rw [hid]
        exact htrail
      · obtain ⟨hb, hv⟩ := hother id hid
        rw [hv, hb]
        exact Trail.single (.same _ _)

def IssuerInput.kind : IssuerInput → CallKind
  | .call _ c => c.kind
  | .close _ _ => .other
  | .tokens _ => .other

namespace IssuerWorld

/-- The records of the bond `id` after each balance operation of one input. -/
def visits (w : IssuerWorld) (id : Nat) : IssuerInput → List Bond
  | .call env call =>
      match w.issuer.exec env w.clock call with
      | .ok (issuer, _) => w.issuer.visits env w.clock issuer id call
      | .error _ => []
  | .close _ _ => []
  | .tokens _ => []

/-- A call fails and changes nothing, or succeeds with the new state. -/
theorem step_call (w : IssuerWorld) (env : Env) (call : IssuerCall) :
    ((∃ e, w.issuer.exec env w.clock call = .error e) ∧ w.step (.call env call) = (w, none)) ∨
      ∃ issuer reply, w.issuer.exec env w.clock call = .ok (issuer, reply) ∧
        w.step (.call env call) = ({ w with issuer := issuer }, some reply) := by
  cases h : w.issuer.exec env w.clock call with
  | error e => exact .inl ⟨⟨e, rfl⟩, by simp only [step, h]⟩
  | ok r =>
      obtain ⟨issuer, reply⟩ := r
      exact .inr ⟨issuer, reply, rfl, by simp only [step, h]⟩

variable {w : IssuerWorld}

theorem step_fresh (hw : w.issuer.Fresh) (i : IssuerInput) : (w.step i).1.issuer.Fresh := by
  cases i with
  | call env call =>
      rcases w.step_call env call with ⟨-, hstep⟩ | ⟨issuer, reply, hexec, hstep⟩
      · rw [hstep]
        exact hw
      · rw [hstep]
        exact BondIssuer.exec_fresh hw hexec
  | close ledgers seconds => exact hw
  | tokens balances => exact hw

/-- One input takes every bond along a trail of elementary steps at the current clock. -/
theorem step_trail (hw : w.issuer.Fresh) (i : IssuerInput) (id : Nat) :
    Trail (BondStep w.clock i.kind) (w.issuer.bond id) (w.visits id i)
      ((w.step i).1.issuer.bond id) := by
  cases i with
  | call env call =>
      rcases w.step_call env call with ⟨⟨e, hexec⟩, hstep⟩ | ⟨issuer, reply, hexec, hstep⟩
      · simp only [visits, hexec, hstep]
        exact .nil _
      · simp only [visits, hexec, hstep]
        exact BondIssuer.exec_trail hw hexec id
  | close ledgers seconds => exact .nil _
  | tokens balances => exact .nil _

end IssuerWorld

section Runs

variable (clock : Clock) (self admin : Address)

/-- The world after the inputs `l`, from deployment. -/
def issuerRun (l : List IssuerInput) : IssuerWorld :=
  issuerMachine.run (IssuerWorld.deploy clock self admin) l

theorem issuerRun_snoc (l : List IssuerInput) (i : IssuerInput) :
    issuerRun clock self admin (l ++ [i]) = ((issuerRun clock self admin l).step i).1 :=
  issuerMachine.run_snoc _ l i

theorem issuerRun_fresh (l : List IssuerInput) : (issuerRun clock self admin l).issuer.Fresh :=
  issuerMachine.run_invariant (P := fun w => w.issuer.Fresh) (fun _ _ => rfl)
    (fun _ i hw => IssuerWorld.step_fresh hw i) l

/-- **The bond rule.** What holds of a blank record and is kept by every elementary step holds of
every bond after every run. -/
theorem bond_invariant {P : Bond → Prop} (h0 : P unissued)
    (hstep : ∀ clock kind b b', P b → BondStep clock kind b b' → P b') (l : List IssuerInput) (id : Nat) :
    P ((issuerRun clock self admin l).issuer.bond id) := by
  induction l using List.reverseRecOn with
  | nil => exact h0
  | append_singleton l i ih =>
      rw [issuerRun_snoc]
      exact (IssuerWorld.step_trail (issuerRun_fresh clock self admin l) i id).induct
        (fun x y => hstep _ _ x y) ih

end Runs

end VerdantBond
