import VerdantBond.Coupon.Batches
import VerdantBond.Issuer.Snapshots
import VerdantBond.Retirement.Contract

set_option autoImplicit false

/-! # The protocol: issuer, coupon engine and retirement in one world

A run interleaves calls to the three contracts with the passing of ledgers, in any order. The
issuer inside the protocol moves exactly as it does alone (`protocolRun_base`), so its theorems
hold here unchanged. Whatever an input does to the engine, it does through one engine call
(`step_effect`): a retirement acts on it as the `consume_credits` it makes.
-/

namespace VerdantBond

open Function Relation Machine

structure ProtocolWorld where
  base : IssuerWorld
  engine : CouponEngine
  retirement : CreditRetirement

inductive ProtocolInput where
  | issuer (input : IssuerInput)
  | coupon (env : Env) (call : CouponCall)
  | retirement (env : Env) (call : RetirementCall)

inductive ProtocolReply where
  | issuer (reply : IssuerReply)
  | coupon (reply : CouponReply)
  | retirement (id : Option Nat)
  deriving DecidableEq, Repr

/-- The ledger at deployment, the addresses of the contracts and their first admins. -/
structure Deployment where
  clock : Clock
  issuer : Address
  issuerAdmin : Address
  engine : Address
  engineAdmin : Address
  retirementAdmin : Address

namespace ProtocolWorld

def deploy (d : Deployment) : ProtocolWorld where
  base := IssuerWorld.deploy d.clock d.issuer d.issuerAdmin
  engine := CouponEngine.deploy d.engine d.engineAdmin
  retirement := CreditRetirement.deploy d.retirementAdmin

/-- One input. A failed call answers `none` and changes nothing. -/
def step (w : ProtocolWorld) : ProtocolInput → ProtocolWorld × Option ProtocolReply
  | .issuer input =>
      ({ w with base := (w.base.step input).1 }, (w.base.step input).2.map .issuer)
  | .coupon env call =>
      match w.engine.exec env w.base.clock w.base.issuer call with
      | .ok (engine, reply) => ({ w with engine := engine }, some (.coupon reply))
      | .error _ => (w, none)
  | .retirement env call =>
      match w.retirement.exec env w.base.clock w.base.issuer w.engine call with
      | .ok (engine, retirement, id) =>
          ({ w with engine := engine, retirement := retirement }, some (.retirement id))
      | .error _ => (w, none)

/-- A holder's account under a bond. -/
def account (w : ProtocolWorld) (id : Nat) (holder : Address) : Account :=
  (w.engine.bond id).account holder

end ProtocolWorld

/-- The protocol as a machine. -/
def protocolMachine : Machine ProtocolWorld ProtocolInput (Option ProtocolReply) :=
  ⟨ProtocolWorld.step⟩

abbrev ProtocolEvent := Event ProtocolWorld ProtocolInput (Option ProtocolReply)

/-- The engine call an input makes, if any. -/
def ProtocolInput.couponCall : ProtocolInput → Option (Env × CouponCall)
  | .issuer _ => none
  | .coupon env call => some (env, call)
  | .retirement env (.retireCredits holder bondId amount _ _ _) =>
      some (env, .consumeCredits holder bondId amount)
  | .retirement _ (.setAdmin _ _ _) => none

/-- The kind of step an input makes on an account. -/
def ProtocolInput.kind (i : ProtocolInput) (id : Nat) (holder : Address) : CreditKind :=
  match i.couponCall with
  | some (_, call) => call.kind id holder
  | none => .none

/-- The batch an input distributes, if any. -/
def ProtocolInput.batch (i : ProtocolInput) : Option CouponBatch :=
  i.couponCall.bind fun c => c.2.batch

variable {env : Env} {call : CouponCall} {batch : CouponBatch} {e : ProtocolEvent}
  {holder : Address} {w : ProtocolWorld} {i : ProtocolInput}

theorem ProtocolInput.kind_of_couponCall (i : ProtocolInput) (h : i.couponCall = some (env, call))
    (id : Nat) (holder : Address) : i.kind id holder = call.kind id holder := by
  unfold ProtocolInput.kind
  rw [h]

theorem ProtocolInput.batch_of_couponCall (i : ProtocolInput) (h : i.couponCall = some (env, call))
    (hbatch : call.batch = some batch) : i.batch = some batch := by
  unfold ProtocolInput.batch
  rw [h]
  exact hbatch

/-- The call an event makes on the record of a bond. A call that fails makes none. -/
def callOn (id : Nat) (e : ProtocolEvent) : Option (Env × CouponCall) :=
  if e.output.isSome = true then e.input.couponCall.filter fun c => c.2.target = some id else none

theorem couponCall_of_callOn {id : Nat} {c : Env × CouponCall} (h : callOn id e = some c) :
    e.input.couponCall = some c := by
  unfold callOn at h
  split at h
  · exact Option.eq_some_of_filter_eq_some h
  · cases h

/-- The input the issuer reads. -/
def ProtocolInput.issuerInput : ProtocolInput → Option IssuerInput
  | .issuer input => some input
  | .coupon _ _ => none
  | .retirement _ _ => none

/-! ## The issuer inside the protocol -/

theorem protocol_component :
    protocolMachine.Component issuerMachine ProtocolWorld.base ProtocolInput.issuerInput := by
  intro w i
  cases i with
  | issuer input => rfl
  | coupon env call =>
      show (w.step (.coupon env call)).1.base = w.base
      simp only [ProtocolWorld.step]
      split <;> rfl
  | retirement env call =>
      show (w.step (.retirement env call)).1.base = w.base
      simp only [ProtocolWorld.step]
      split <;> rfl

section Runs

variable (d : Deployment)

variable (l : List ProtocolInput)

/-- The world after the inputs `l`, from deployment. -/
def protocolRun : ProtocolWorld :=
  protocolMachine.run (ProtocolWorld.deploy d) l

/-- The events of the inputs `l`, from deployment, oldest first. -/
def protocolHistory : List ProtocolEvent :=
  protocolMachine.history (ProtocolWorld.deploy d) l

/-- The inputs the issuer reads in a run. -/
def issuerInputs : List IssuerInput :=
  l.flatMap (fun i => i.issuerInput.toList)

theorem protocolRun_snoc (i : ProtocolInput) :
    protocolRun d (l ++ [i]) = ((protocolRun d l).step i).1 :=
  protocolMachine.run_snoc _ l i

variable {P : List ProtocolEvent → ProtocolWorld → Prop}

/-- The history rule, for runs of the protocol whose events meet a condition. -/
theorem protocolHistory_guarded {G : List ProtocolEvent → ProtocolEvent → Prop}
    (h0 : P [] (ProtocolWorld.deploy d)) (hstep : ∀ l i, P (protocolHistory d l) (protocolRun d l) →
      G (protocolHistory d l) (protocolMachine.event (protocolRun d l) i) →
      P (protocolHistory d l ++ [protocolMachine.event (protocolRun d l) i])
        (protocolMachine.event (protocolRun d l) i).post) (l : List ProtocolInput)
    (hG : Guarded G (protocolHistory d l)) : P (protocolHistory d l) (protocolRun d l) :=
  protocolMachine.guarded_induct h0 hstep l hG

/-- The history rule, for all runs of the protocol. -/
theorem protocolHistory_induct (h0 : P [] (ProtocolWorld.deploy d))
    (hstep : ∀ l i, P (protocolHistory d l) (protocolRun d l) →
      P (protocolHistory d l ++ [protocolMachine.event (protocolRun d l) i])
        (protocolMachine.event (protocolRun d l) i).post) (l :
    List ProtocolInput) : P (protocolHistory d l) (protocolRun d l) :=
  protocolMachine.history_induct h0 hstep l

/-- The issuer moves as it does alone. -/
theorem protocolRun_base :
    (protocolRun d l).base = issuerRun d.clock d.issuer d.issuerAdmin (issuerInputs l) :=
  protocol_component.run _ l

theorem protocolRun_issuer_sound (id : Nat) : ((protocolRun d l).base.issuer.bond id).Sound := by
  rw [protocolRun_base]
  exact issuerRun_sound _ _ _ _ id

/-- One more input keeps what the issuer's bond persists, and every answer about the past. -/
theorem protocolRun_issuer_later (i : ProtocolInput) (id : Nat) :
    let b := (protocolRun d l).base.issuer.bond id
    let b' := (protocolRun d (l ++ [i])).base.issuer.bond id
    b.Persists b' ∧ b.balanceVersion ≤ b'.balanceVersion ∧
      ∀ v ≤ b.balanceVersion, (∀ h, b'.ledger.balanceAt h v = b.ledger.balanceAt h v) ∧
        b'.ledger.totalAt v = b.ledger.totalAt v := by
  have hsplit : issuerInputs (l ++ [i]) = issuerInputs l ++ issuerInputs [i] :=
    List.flatMap_append
  rw [protocolRun_base, protocolRun_base, hsplit]
  exact bond_later _ _ _ (issuerInputs l) (issuerInputs [i]) id

end Runs

/-! ## The engine inside the protocol -/

/-- A retirement acts on the engine as the call it makes. -/
theorem CouponEngine.consumeCredits_move {clock : Clock} {issuer : BondIssuer} {s s' : CouponEngine}
    {bondId : Nat} {amount : Int} (h : s.consumeCredits env holder bondId amount = .ok s') :
    EngineMove env clock issuer s (.consumeCredits holder bondId amount) .unit s' := by
  simp only [consumeCredits, bind_ok_iff, pure_ok_iff, exists_unit_iff] at h
  obtain ⟨-, b, hb, rfl⟩ := h
  exact .write rfl ⟨⟨rfl, rfl⟩, rfl⟩ (.consume hb)

namespace ProtocolWorld

/-- **What an input does to the engine**: nothing, or the move of the one call it makes. -/
theorem step_move (w : ProtocolWorld) (i : ProtocolInput) :
    ((w.step i).1.engine = w.engine ∧ (i.couponCall = none ∨ (w.step i).2.isSome = false)) ∨
      ∃ env call reply, i.couponCall = some (env, call) ∧ (w.step i).2.isSome = true ∧
        EngineMove env w.base.clock w.base.issuer w.engine call reply (w.step i).1.engine := by
  cases i with
  | issuer input => exact .inl ⟨rfl, .inl rfl⟩
  | coupon env call =>
      cases h : w.engine.exec env w.base.clock w.base.issuer call with
      | error e =>
          refine .inl ?_
          simp only [step, h, Option.isSome_none, or_true, and_self]
      | ok r =>
          refine .inr ⟨env, call, r.2, rfl, by simp only [step, h, Option.isSome_some], ?_⟩
          simp only [step, h]
          exact CouponEngine.exec_move h
  | retirement env call =>
      cases h : w.retirement.exec env w.base.clock w.base.issuer w.engine call with
      | error e =>
          refine .inl ?_
          simp only [step, h, Option.isSome_none, or_true, and_self]
      | ok r =>
          obtain ⟨engine, retirement, id⟩ := r
          simp only [step, h]
          cases call with
          | setAdmin currentAdmin newAdmin nonce =>
              exact .inl ⟨(CreditRetirement.exec_setAdmin_ok h).1, .inl rfl⟩
          | retireCredits holder bondId amount creditType certificateHash nonce =>
              have hconsume := (CreditRetirement.exec_retireCredits_ok h).1
              exact .inr ⟨env, _, .unit, rfl, rfl, CouponEngine.consumeCredits_move hconsume⟩

/-- **What an input writes in the engine**: nothing, or what the one call it makes writes. -/
theorem step_writes (w : ProtocolWorld) (i : ProtocolInput) :
    ((w.step i).1.engine = w.engine ∧ (i.couponCall = none ∨ (w.step i).2.isSome = false)) ∨
      ∃ env call reply, i.couponCall = some (env, call) ∧ (w.step i).2.isSome = true ∧
        ∀ id, w.engine.Writes env w.base.clock w.base.issuer (w.step i).1.engine call reply id := by
  rcases w.step_move i with hidle | ⟨env, call, reply, hcall, hout, hmove⟩
  · exact .inl hidle
  · exact .inr ⟨env, call, reply, hcall, hout, hmove.writes⟩

/-- **The effect of an input on the engine**: none, or the effect of the one call it makes. -/
theorem step_effect (w : ProtocolWorld) (i : ProtocolInput) :
    (w.step i).1.engine = w.engine ∨
      ∃ env call reply, i.couponCall = some (env, call) ∧
        ∀ id, w.engine.Effect env w.base.clock w.base.issuer (w.step i).1.engine call reply id := by
  rcases w.step_writes i with ⟨heq, -⟩ | ⟨env, call, reply, hcall, -, hwrites⟩
  · exact .inl heq
  · exact .inr ⟨env, call, reply, hcall, fun id => (hwrites id).effect⟩

/-- **What an event writes in the record of one bond**: nothing, or what its call on the bond
writes. -/
theorem event_write (w : ProtocolWorld) (i : ProtocolInput) (id : Nat) :
    (callOn id (protocolMachine.event w i) = none ∧
        (w.step i).1.engine.bond id = w.engine.bond id) ∨
      ∃ env call reply, callOn id (protocolMachine.event w i) = some (env, call) ∧
        CouponWrite env w.base.clock w.base.issuer w.engine id call reply (w.engine.bond id)
          ((w.step i).1.engine.bond id) := by
  have hcallOn : callOn id (protocolMachine.event w i)
      = if (w.step i).2.isSome = true then i.couponCall.filter fun c => c.2.target = some id
        else none := rfl
  rcases w.step_writes i with ⟨heq, hidle⟩ | ⟨env, call, reply, hcall, hout, hwrites⟩
  · refine .inl ⟨?_, by rw [heq]⟩
    rcases hidle with hnone | hfailed
    · rw [hcallOn, hnone, Option.filter_none, ite_self]
    · rw [hcallOn, hfailed, if_neg (by decide)]
  · rw [hcallOn, if_pos hout, hcall]
    rcases (hwrites id).record with ⟨hother, hsame⟩ | ⟨htarget, hwrite⟩
    · exact .inl ⟨Option.filter_some_neg (by simpa using hother), hsame⟩
    · exact .inr ⟨env, call, reply, Option.filter_some_pos (by simpa using htarget), hwrite⟩

/-- What an input does to the record of one bond: nothing, or a step of the call it makes. -/
theorem step_record (w : ProtocolWorld) (i : ProtocolInput) (id : Nat) :
    (w.step i).1.engine.bond id = w.engine.bond id ∨
      ∃ env call reply, i.couponCall = some (env, call) ∧ call.target = some id ∧
        CouponStep env w.base.clock w.base.issuer w.engine id call reply (w.engine.bond id)
          ((w.step i).1.engine.bond id) := by
  rcases w.step_effect i with heq | ⟨env, call, reply, hcall, heffect⟩
  · exact .inl (by rw [heq])
  · rcases (heffect id).record with ⟨-, hsame⟩ | ⟨htarget, hstep⟩
    · exact .inl hsame
    · exact .inr ⟨env, call, reply, hcall, htarget, hstep⟩

variable {w : ProtocolWorld}

theorem step_settlementsNonneg {id : Nat} (hw : (w.engine.bond id).SettlementsNonneg)
    (i : ProtocolInput) : ((w.step i).1.engine.bond id).SettlementsNonneg := by
  rcases w.step_record i id with heq | ⟨_, _, _, -, -, hstep⟩
  · rw [heq]
    exact hw
  · exact hstep.settlementsNonneg hw

/-- **Accounts move by the kind of the input.** -/
theorem step_moves {id : Nat} (hw : (w.engine.bond id).SettlementsNonneg) (i : ProtocolInput)
    (holder : Address) :
    AccountMoves (w.engine.bond id).periodCount (i.kind id holder) (w.account id holder)
      ((w.step i).1.account id holder) := by
  unfold account
  rcases w.step_record i id with heq | ⟨env, call, _, hcall, -, hstep⟩
  · rw [heq]
  · rw [i.kind_of_couponCall hcall]
    exact hstep.moves hw holder

end ProtocolWorld

/-- A call that fails leaves the engine and the retired amounts alone. -/
theorem ProtocolWorld.step_failed (h : (w.step i).2.isSome = false) :
    (w.step i).1.engine = w.engine ∧ (w.step i).1.retirement = w.retirement := by
  cases i with
  | issuer input => exact ⟨rfl, rfl⟩
  | coupon env call =>
      cases hexec : w.engine.exec env w.base.clock w.base.issuer call with
      | error e => simp only [step, hexec, and_self]
      | ok r =>
          simp only [step, hexec, Option.isSome_some, reduceCtorEq] at h
  | retirement env call =>
      cases hexec : w.retirement.exec env w.base.clock w.base.issuer w.engine call with
      | error e => simp only [step, hexec, and_self]
      | ok r =>
          simp only [step, hexec, Option.isSome_some, reduceCtorEq] at h

/-- A successful claim pays out the combined balance and clears the account. -/
theorem ProtocolWorld.step_claim {id nonce : Nat}
    (h : (w.step (.coupon env (.claimCredits holder id nonce))).2.isSome = true) :
    (w.step (.coupon env (.claimCredits holder id nonce))).2
        = some (.coupon (.amount (w.account id holder).escrowedCredits)) ∧
      (w.step (.coupon env (.claimCredits holder id nonce))).1.account id holder
        = (w.account id holder).claim (w.engine.bond id).periodCount := by
  cases hexec : w.engine.exec env w.base.clock w.base.issuer (.claimCredits holder id nonce) with
  | error e => simp only [step, hexec, Option.isSome_none, reduceCtorEq] at h
  | ok r =>
      obtain ⟨engine, reply⟩ := r
      rcases (CouponEngine.exec_effect hexec id).record with ⟨hother, -⟩ | ⟨-, hstep⟩
      · exact absurd rfl hother
      · obtain ⟨rfl, haccount⟩ := hstep.of_claim
        simp only [step, hexec, account, haccount, update_self, and_self]

/-- A successful distribution is one of the engine, and leaves the issuer alone. -/
theorem ProtocolWorld.step_batch (hcall : i.couponCall = some (env, call))
    (hbatch : call.batch = some batch) (h : (w.step i).2.isSome = true) :
    (w.step i).1.base = w.base ∧
      (∃ result, w.engine.distribute env w.base.clock w.base.issuer batch
        = .ok ((w.step i).1.engine.bond batch.bondId, result)) ∧
      ∀ id, id ≠ batch.bondId → (w.step i).1.engine.bond id = w.engine.bond id := by
  cases i with
  | issuer input => cases hcall
  | retirement env' call' =>
      cases call' with
      | retireCredits =>
          cases hcall
          cases hbatch
      | setAdmin => cases hcall
  | coupon env' call' =>
      cases hcall
      cases hexec : w.engine.exec env w.base.clock w.base.issuer call with
      | error e => simp only [step, hexec, Option.isSome_none, reduceCtorEq] at h
      | ok r =>
          have hstep : (w.step (.coupon env call)).1 = { w with engine := r.1 } := by
            simp only [step, hexec]
          have htarget := CouponCall.target_of_batch hbatch
          rw [hstep]
          refine ⟨rfl, ?_, fun id hid => ?_⟩
          · rcases (CouponEngine.exec_effect hexec batch.bondId).record with ⟨hother, -⟩ | ⟨-, hcoupon⟩
            · exact absurd htarget hother
            · exact (hcoupon.of_batch hbatch).2.2
          · rcases (CouponEngine.exec_effect hexec id).record with ⟨-, hsame⟩ | ⟨hthis, -⟩
            · exact hsame
            · rw [htarget] at hthis
              exact absurd (Option.some.inj hthis).symm hid

/-- The published factors are in bounds, in every run. -/
theorem protocolRun_tablesInBounds (d : Deployment) (l : List ProtocolInput) :
    (protocolRun d l).engine.TablesInBounds := by
  refine protocolMachine.run_invariant (P := fun w => w.engine.TablesInBounds) ?_ (fun w i hw => ?_) l
  · intro version table htable
    cases htable
  · show (w.step i).1.engine.TablesInBounds
    rcases w.step_effect i with heq | ⟨_, _, _, -, heffect⟩
    · rw [heq]
      exact hw
    · exact (heffect 0).tables hw

theorem protocolRun_settlementsNonneg (d : Deployment) (l : List ProtocolInput) (id : Nat) :
    ((protocolRun d l).engine.bond id).SettlementsNonneg := by
  refine protocolMachine.run_invariant (P := fun w => (w.engine.bond id).SettlementsNonneg) ?_
    (fun w i hw => ProtocolWorld.step_settlementsNonneg hw i) l
  intro i a ha
  cases ha

theorem protocolRun_moves (d : Deployment) (l : List ProtocolInput) (i : ProtocolInput) (id : Nat)
    (holder : Address) :
    AccountMoves ((protocolRun d l).engine.bond id).periodCount (i.kind id holder)
      ((protocolRun d l).account id holder) (((protocolRun d l).step i).1.account id holder) :=
  ProtocolWorld.step_moves (protocolRun_settlementsNonneg d l id) i holder

/-! ## A sample run -/

/-- All contracts at addresses of their own, one admin. -/
def sampleDeployment : Deployment := ⟨⟨10, 100⟩, ⟨100⟩, ⟨1⟩, ⟨101⟩, ⟨1⟩, ⟨1⟩⟩

/-- The oracle knows one verified report on the sample project, with five credits of carbon. -/
def sampleOracle : Env where
  authorized := fun _ => true
  sha256 := fun n => ⟨n⟩
  hasApprovedProject := fun _ _ => none
  getProjectMethodology := fun _ _ => none
  tokenAccepts := fun _ _ _ _ => true
  isProjectDisputed := fun _ => some false
  getProjectStalenessState := fun _ _ => some ⟨0, 0⟩
  getReport := fun id => some ⟨id, ⟨7⟩, 10, 20, 5000, .absent, "verra_vcs", .verified⟩
  getVerificationCount := fun _ => some 2

/-- The sample bond is issued, subscribed by one holder and registered with the engine. -/
def sampleIssue : List ProtocolInput :=
  sampleSubscription.map .issuer ++ [.coupon sampleOracle (.registerBond ⟨1⟩ 1 ⟨7⟩ 0)]

/-- The first coupon is paid to its only holder. -/
def sampleCoupon : List ProtocolInput :=
  sampleIssue ++ [.coupon sampleOracle (.distributeCoupon ⟨1⟩ 1 0 [⟨2⟩] 1 1)]

/-- Nothing but the last input of the sample touches an account. -/
theorem sampleCoupon_event (he : e ∈ protocolHistory sampleDeployment sampleCoupon) :
    (e.input.batch = none ∧ ∀ id holder, e.input.kind id holder = .none) ∨
      e = protocolMachine.event (protocolRun sampleDeployment sampleIssue)
        (.coupon sampleOracle (.distributeCoupon ⟨1⟩ 1 0 [⟨2⟩] 1 1)) := by
  simp only [protocolHistory, sampleCoupon, sampleIssue, sampleSubscription, List.map_cons,
    List.map_nil, List.cons_append, List.nil_append, Machine.history, List.mem_cons,
    List.not_mem_nil, or_false] at he
  rcases he with rfl | rfl | rfl | rfl
  · exact .inl ⟨rfl, fun _ _ => rfl⟩
  · exact .inl ⟨rfl, fun _ _ => rfl⟩
  · exact .inl ⟨rfl, fun _ _ => rfl⟩
  · exact .inr rfl

end VerdantBond
