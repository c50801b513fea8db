import VerdantBond.Coupon.AccountLaws
import VerdantBond.Protocol.System

set_option autoImplicit false

/-! # Credits are spent at most once

Two contracts and five debit paths draw on the combined balance of an account. What each kind of
call does to that balance is said once (`BalanceChange`); summed over a run it gives the
conservation rule: everything credited covers what was claimed, what was retired and what is still
escrowed. The two administrative corrections subtract whatever amount they are given, so a negative
one adds credits nobody earned; the rule holds in every run whose corrections are not negative.
-/

namespace VerdantBond

open Function Relation Machine CouponCall

/-! ## One call -/

/-- What a call of some kind does to the combined balance of an account, from `old` to `new`, where
a claim returned `claimed` and a retirement recorded `retired`. -/
def BalanceChange (old new claimed retired : Int) : CreditKind → Prop
  | .distribution _ | .waterfall => old ≤ new ∧ claimed = 0 ∧ retired = 0
  | .claim => new = 0 ∧ claimed = old ∧ retired = 0
  | .consumption amount =>
      amount ≤ old ∧ new = old - amount ∧ claimed = 0 ∧ 0 < amount ∧
        (retired = 0 ∨ retired = amount)
  | .correction amount => amount ≤ old ∧ new = old - amount ∧ claimed = 0 ∧ retired = 0
  | .none => new = old ∧ claimed = 0 ∧ retired = 0

namespace Account

/-- Credits only add. -/
theorem escrowed_le_of_credits {n : Nat} {kind : CreditKind} {a a' : Account}
    (hkind : (∃ p, kind = .distribution p) ∨ kind = .waterfall) (h : AccountMoves n kind a a') :
    a.escrowedCredits ≤ a'.escrowedCredits := by
  induction h with
  | refl => exact le_refl _
  | tail _ hstep ih =>
      refine le_trans ih ?_
      cases hstep with
      | escrow _ hpos hcredit | accrue _ hpos hcredit =>
          obtain ⟨-, -, rfl⟩ := credit_ok hcredit
          show _ ≤ _ + _
          omega
      | claim | consume | correct => simp at hkind

/-- A call of no kind leaves the account alone. -/
theorem eq_of_no_moves {n : Nat} {a a' : Account} (h : AccountMoves n .none a a') : a' = a := by
  induction h with
  | refl => rfl
  | tail _ hstep => cases hstep

end Account

/-- The amount a claim returns. -/
def CouponReply.claimed (kind : CreditKind) : CouponReply → Int
  | .amount n => if kind = .claim then n else 0
  | .unit | .number _ | .amounts _ _ | .coupon _ | .waterfall _ | .window _ => 0

theorem CouponReply.claimed_none (reply : CouponReply) : reply.claimed .none = 0 := by
  cases reply <;> rfl

variable {call : CouponCall} {id : Nat} {owner holder : Address} {reply : CouponReply} {env : Env}
  {w : ProtocolWorld} {i : ProtocolInput} {e : ProtocolEvent}

theorem CouponCall.kind_of_target_ne (h : call.target ≠ some id) (holder : Address) :
    call.kind id holder = .none := by
  cases call with
  | distributeCoupon | distributeCouponBatch | claimWaterfall | claimCredits | consumeCredits
  | confirmRetirement | revertPayout => exact if_neg (fun hid => h (congrArg some hid))
  | _ => rfl

/-- A write to one account, seen from any account. -/
theorem balanceChange_update {account : Address → Account} {a : Account} (kind : CreditKind)
    (h : BalanceChange (account owner).escrowedCredits a.escrowedCredits (reply.claimed kind) 0
      kind) (holder : Address) :
    BalanceChange (account holder).escrowedCredits (update account owner a holder).escrowedCredits
      (reply.claimed (if owner = holder then kind else .none)) 0
      (if owner = holder then kind else .none) := by
  by_cases hx : owner = holder
  · subst hx
    rw [if_pos rfl, update_self]
    exact h
  · rw [if_neg hx, update_of_ne (fun heq => hx heq.symm)]
    exact ⟨rfl, reply.claimed_none, rfl⟩

theorem CouponStep.balanceChange {clock : Clock} {issuer : BondIssuer} {s : CouponEngine}
    {b b' : CouponBond} (hb : b.SettlementsNonneg)
    (h : CouponStep env clock issuer s id call reply b b') (holder : Address) :
    BalanceChange (b.account holder).escrowedCredits (b'.account holder).escrowedCredits
      (reply.claimed (call.kind id holder)) 0 (call.kind id holder) := by
  have hmoves := h.moves hb holder
  cases h with
  | other hkind hsame =>
      rw [hkind, hsame.account]
      exact ⟨rfl, reply.claimed_none, rfl⟩
  | register => exact ⟨rfl, rfl, rfl⟩
  | settle h =>
      obtain ⟨_, _, -, rfl⟩ := CouponBond.settleWaterfall_ok h
      exact ⟨rfl, rfl, rfl⟩
  | claimWaterfall h =>
      simp only [kind, if_true] at hmoves ⊢
      split_ifs at hmoves ⊢
      · exact ⟨Account.escrowed_le_of_credits (.inr rfl) hmoves, rfl, rfl⟩
      · rw [Account.eq_of_no_moves hmoves]
        exact ⟨rfl, rfl, rfl⟩
  | distribute hcall hid h =>
      subst hid
      rw [kind_of_batch hcall] at hmoves ⊢
      exact ⟨Account.escrowed_le_of_credits (.inl ⟨_, rfl⟩) hmoves, rfl, rfl⟩
  | confirm h | revert h =>
      obtain ⟨a, ha, rfl⟩ := CouponBond.debit_ok h
      obtain ⟨hle, rfl⟩ := Account.debitCombined_ok ha
      simp only [kind, if_true]
      exact balanceChange_update (.correction _) ⟨hle, rfl, rfl, rfl⟩ holder
  | claim h =>
      obtain ⟨rfl, rfl⟩ := CouponBond.claim_ok h
      simp only [kind, if_true]
      refine balanceChange_update .claim ⟨Account.claim_escrowedCredits _ _, ?_, rfl⟩ holder
      rfl
  | consume h =>
      obtain ⟨hpos, a, ha, rfl⟩ := CouponBond.consume_ok h
      obtain ⟨hle, hd⟩ := Account.consume_drained hpos ha
      simp only [kind, if_true]
      exact balanceChange_update (.consumption _) ⟨hle, hd.escrowedCredits, rfl, hpos, .inl rfl⟩ holder

/-- What a retirement does to the balance of an account and to its retired amount. -/
theorem CouponEngine.retire_balanceChange {s s' : CouponEngine} {bondId : Nat} {amount : Int}
    (h : s.consumeCredits env owner bondId amount = .ok s') (retired : Nat → Address → Int)
    (id : Nat) (holder : Address) :
    BalanceChange (s.escrowedCredits id holder) (s'.escrowedCredits id holder) 0
      (update retired bondId (update (retired bondId) owner (retired bondId owner + amount)) id
        holder - retired id holder) (kind (.consumeCredits owner bondId amount) id
          holder) := by
  simp only [consumeCredits, bind_ok_iff, pure_ok_iff, exists_unit_iff] at h
  obtain ⟨-, b, hb, rfl⟩ := h
  obtain ⟨hpos, a, ha, rfl⟩ := CouponBond.consume_ok hb
  obtain ⟨hle, hd⟩ := Account.consume_drained hpos ha
  unfold escrowedCredits
  by_cases hid : bondId = id
  · subst hid
    rw [setBond_bond_same, update_self]
    by_cases hx : owner = holder
    · subst hx
      have hkind : kind (.consumeCredits owner bondId amount) bondId owner
          = .consumption amount := by simp only [kind, if_true]
      rw [hkind, update_self, add_sub_cancel_left]
      refine ⟨hle, ?_, rfl, hpos, .inr rfl⟩
      show (update (s.bond bondId).account owner a owner).escrowedCredits = _
      rw [update_self]
      exact hd.escrowedCredits
    · have hkind : kind (.consumeCredits owner bondId amount) bondId holder = .none := by
        simp only [kind, if_true, if_neg hx]
      rw [hkind, update_of_ne (fun h => hx h.symm), sub_self]
      refine ⟨?_, rfl, rfl⟩
      show (update (s.bond bondId).account owner a holder).escrowedCredits = _
      rw [update_of_ne (fun h => hx h.symm)]
  · have hkind : kind (.consumeCredits owner bondId amount) id holder = .none :=
      if_neg hid
    rw [hkind, setBond_bond_other _ _ (fun h => hid h.symm), update_of_ne (fun h => hid h.symm),
      sub_self]
    exact ⟨rfl, rfl, rfl⟩

/-! ## One input -/

/-- What a step credits to an account: the rise of its balance in a distribution or a waterfall
claim. -/
def CreditKind.credited (old new : Int) : CreditKind → Int
  | .distribution _ | .waterfall => new - old
  | .claim | .consumption _ | .correction _ | .none => 0

/-- What an event credits to an account. -/
def creditedIn (id : Nat) (holder : Address) (e : ProtocolEvent) : Int :=
  (e.input.kind id holder).credited (e.pre.engine.escrowedCredits id holder)
    (e.post.engine.escrowedCredits id holder)

/-- What a claim returns to the holder in an event. -/
def claimedIn (id : Nat) (holder : Address) (e : ProtocolEvent) : Int :=
  match e.output with
  | some (.coupon reply) => reply.claimed (e.input.kind id holder)
  | some (.issuer _) | some (.retirement _) | none => 0

/-- What an event adds to `RetiredPerBond`. -/
def retiredIn (id : Nat) (holder : Address) (e : ProtocolEvent) : Int :=
  e.post.retirement.retiredPerBond id holder - e.pre.retirement.retiredPerBond id holder

/-- **What a successful input does to the balance of an account.** -/
theorem ProtocolWorld.step_balanceChange (hw : (w.engine.bond id).SettlementsNonneg)
    (hout : (w.step i).2.isSome = true) (holder : Address) :
    BalanceChange (w.engine.escrowedCredits id holder)
      ((w.step i).1.engine.escrowedCredits id holder)
      (claimedIn id holder (protocolMachine.event w i))
      (retiredIn id holder (protocolMachine.event w i)) (i.kind id holder) := by
  cases i with
  | issuer input =>
      refine ⟨rfl, ?_, sub_self _⟩
      show claimedIn id holder ⟨w, .issuer input, (w.base.step input).2.map .issuer, _⟩ = 0
      unfold claimedIn
      cases (w.base.step input).2 <;> rfl
  | coupon env call =>
      cases hexec : w.engine.exec env w.base.clock w.base.issuer call with
      | error e => simp only [step, hexec, Option.isSome_none, reduceCtorEq] at hout
      | ok r =>
          obtain ⟨engine, reply⟩ := r
          have hstep : w.step (.coupon env call) = ({ w with engine }, some (.coupon reply)) := by
            simp only [step, hexec]
          have hevent : protocolMachine.event w (.coupon env call)
              = ⟨w, .coupon env call, some (.coupon reply), { w with engine }⟩ := by
            show Event.mk _ _ (w.step (.coupon env call)).2 (w.step (.coupon env call)).1 = _
            rw [hstep]
          rw [hevent, hstep]
          have hretired : retiredIn id holder
              ⟨w, .coupon env call, some (.coupon reply), { w with engine }⟩ = 0 := sub_self _
          rw [hretired]
          show BalanceChange _ (engine.escrowedCredits id holder)
            (reply.claimed (call.kind id holder)) 0 (call.kind id holder)
          unfold CouponEngine.escrowedCredits
          rcases (CouponEngine.exec_effect hexec id).record with ⟨hother, hsame⟩ | ⟨-, hstep⟩
          · rw [kind_of_target_ne hother, hsame]
            exact ⟨rfl, reply.claimed_none, rfl⟩
          · exact hstep.balanceChange hw holder
  | retirement env call =>
      cases hexec : w.retirement.exec env w.base.clock w.base.issuer w.engine call with
      | error e => simp only [step, hexec, Option.isSome_none, reduceCtorEq] at hout
      | ok r =>
          obtain ⟨engine, retirement, reply⟩ := r
          have hstep : w.step (.retirement env call)
              = ({ w with engine, retirement }, some (.retirement reply)) := by
            simp only [step, hexec]
          have hevent : protocolMachine.event w (.retirement env call)
              = ⟨w, .retirement env call, some (.retirement reply),
                { w with engine, retirement }⟩ := by
            show Event.mk _ _ (w.step (.retirement env call)).2 (w.step (.retirement env call)).1 = _
            rw [hstep]
          rw [hevent, hstep]
          show BalanceChange _ (engine.escrowedCredits id holder) 0
            (retirement.retiredPerBond id holder - w.retirement.retiredPerBond id holder)
            (ProtocolInput.kind (.retirement env call) id holder)
          cases call with
          | setAdmin currentAdmin newAdmin nonce =>
              obtain ⟨rfl, hsame⟩ := CreditRetirement.exec_setAdmin_ok hexec
              rw [hsame, sub_self]
              exact ⟨rfl, rfl, rfl⟩
          | retireCredits owner bondId amount creditType certificateHash nonce =>
              obtain ⟨hconsume, hretired⟩ := CreditRetirement.exec_retireCredits_ok hexec
              rw [hretired]
              exact CouponEngine.retire_balanceChange hconsume _ id holder

/-! ## Runs -/

section Totals

variable (d : Deployment) (l : List ProtocolInput) (id : Nat) (holder : Address)

/-- Everything credited to an account in a run. -/
def totalCredited : Int := ((protocolHistory d l).map (creditedIn id holder)).sum

/-- Everything `claim_credits` returned to the holder of an account in a run. -/
def totalClaimed : Int := ((protocolHistory d l).map (claimedIn id holder)).sum

end Totals

/-- A correction of the account is by an amount that is not negative. -/
def CorrectsDown (id : Nat) (holder : Address) (e : ProtocolEvent) : Prop :=
  ∀ amount, e.input.kind id holder = .correction amount → 0 ≤ amount

/-- The input distributes a coupon of the bond, or claims the holder's waterfall credits. -/
def Credits (id : Nat) (holder : Address) (i : ProtocolInput) : Prop :=
  (∃ p, i.kind id holder = .distribution p) ∨ i.kind id holder = .waterfall

/-- A step spends nothing twice: the balance rises only by a credit, it is not negative
afterwards, and what was claimed and retired came out of it. -/
structure SpendsOnce (id : Nat) (holder : Address) (e : ProtocolEvent) : Prop where
  rise : e.pre.engine.escrowedCredits id holder < e.post.engine.escrowedCredits id holder →
    Credits id holder e.input
  nonneg : 0 ≤ e.post.engine.escrowedCredits id holder
  covered : claimedIn id holder e + retiredIn id holder e
      + e.post.engine.escrowedCredits id holder
    ≤ creditedIn id holder e + e.pre.engine.escrowedCredits id holder

theorem BalanceChange.spendsOnce (h : BalanceChange (e.pre.engine.escrowedCredits id holder)
      (e.post.engine.escrowedCredits id holder) (claimedIn id holder e) (retiredIn id holder e)
      (e.input.kind id holder)) (hcorrect : CorrectsDown id holder e)
    (hnonneg : 0 ≤ e.pre.engine.escrowedCredits id holder) : SpendsOnce id holder e := by
  have hcredited : creditedIn id holder e = (e.input.kind id holder).credited
    (e.pre.engine.escrowedCredits id holder) (e.post.engine.escrowedCredits id holder) := rfl
  cases hkind : e.input.kind id holder with
  | distribution p =>
      rw [hkind] at h hcredited
      obtain ⟨hle, hclaimed, hretired⟩ := h
      simp only [CreditKind.credited] at hcredited
      exact ⟨fun _ => .inl ⟨p, hkind⟩, le_trans hnonneg hle, by omega⟩
  | waterfall =>
      rw [hkind] at h hcredited
      obtain ⟨hle, hclaimed, hretired⟩ := h
      simp only [CreditKind.credited] at hcredited
      exact ⟨fun _ => .inr hkind, le_trans hnonneg hle, by omega⟩
  | claim =>
      rw [hkind] at h hcredited
      obtain ⟨hnew, hclaimed, hretired⟩ := h
      simp only [CreditKind.credited] at hcredited
      exact ⟨fun hrise => by omega, by omega, by omega⟩
  | consumption amount =>
      rw [hkind] at h hcredited
      obtain ⟨hle, hnew, hclaimed, hpos, hretired⟩ := h
      simp only [CreditKind.credited] at hcredited
      exact ⟨fun hrise => by omega, by omega, by omega⟩
  | correction amount =>
      rw [hkind] at h hcredited
      obtain ⟨hle, hnew, hclaimed, hretired⟩ := h
      have hdown := hcorrect amount hkind
      simp only [CreditKind.credited] at hcredited
      exact ⟨fun hrise => by omega, by omega, by omega⟩
  | none =>
      rw [hkind] at h hcredited
      obtain ⟨hnew, hclaimed, hretired⟩ := h
      simp only [CreditKind.credited] at hcredited
      exact ⟨fun hrise => by omega, by omega, by omega⟩

/-- A failed call spends nothing. -/
theorem spendsOnce_of_failed (hout : (w.step i).2.isSome = false)
    (hnonneg : 0 ≤ w.engine.escrowedCredits id holder) :
    SpendsOnce id holder (protocolMachine.event w i) := by
  obtain ⟨hengine, hretirement⟩ := ProtocolWorld.step_failed hout
  have hnone : (w.step i).2 = none := by simpa using hout
  have hpost : (protocolMachine.event w i).post.engine = w.engine := hengine
  have hclaimed : claimedIn id holder (protocolMachine.event w i) = 0 := by
    show claimedIn id holder ⟨w, i, (w.step i).2, (w.step i).1⟩ = 0
    rw [hnone]
    rfl
  have hretired : retiredIn id holder (protocolMachine.event w i) = 0 := by
    show (w.step i).1.retirement.retiredPerBond id holder - _ = 0
    rw [hretirement]
    exact sub_self _
  have hcredited : creditedIn id holder (protocolMachine.event w i) = 0 := by
    unfold creditedIn
    rw [hpost]
    cases (protocolMachine.event w i).input.kind id holder with
    | distribution p => exact sub_self _
    | waterfall => exact sub_self _
    | _ => rfl
  refine ⟨fun hrise => ?_, ?_, ?_⟩
  · rw [hpost] at hrise
    exact absurd hrise (lt_irrefl _)
  · rw [hpost]
    exact hnonneg
  · rw [hclaimed, hretired, hcredited, hpost]
    exact le_refl _

/-- The books of an account after the events `es`. -/
structure Accounted (id : Nat) (holder : Address) (es : List ProtocolEvent) (w : ProtocolWorld) :
    Prop where
  rise : ∀ e ∈ es,
    e.pre.engine.escrowedCredits id holder < e.post.engine.escrowedCredits id holder →
      Credits id holder e.input
  nonneg : 0 ≤ w.engine.escrowedCredits id holder
  covered : (es.map (claimedIn id holder)).sum + w.retirement.retiredPerBond id holder
      + w.engine.escrowedCredits id holder ≤ (es.map (creditedIn id holder)).sum

theorem Accounted.snoc {es : List ProtocolEvent} (h : Accounted id holder es e.pre)
    (hspends : SpendsOnce id holder e) : Accounted id holder (es ++ [e]) e.post := by
  refine ⟨fun e' he' => ?_, hspends.nonneg, ?_⟩
  · rcases List.mem_append.mp he' with he' | he'
    · exact h.rise e' he'
    · rw [List.mem_singleton.mp he']
      exact hspends.rise
  · have hcovered := h.covered
    have hstep := hspends.covered
    unfold retiredIn at hstep
    rw [List.map_append, List.map_append, List.sum_append, List.sum_append, List.map_singleton,
      List.map_singleton, List.sum_singleton, List.sum_singleton]
    omega

/-- **Credits are spent at most once.** In every run whose corrections of the account are not
negative: its balance rises only in a distribution or a waterfall claim, it is never negative, and
everything credited covers what was claimed, what was retired and what is escrowed. -/
theorem credits_spent_once (d : Deployment) (l : List ProtocolInput) (id : Nat) (holder : Address)
    (hsteps : ∀ e ∈ protocolHistory d l, e.output.isSome = true → CorrectsDown id holder e) :
    (∀ e ∈ protocolHistory d l,
        e.pre.engine.escrowedCredits id holder < e.post.engine.escrowedCredits id holder →
        Credits id holder e.input) ∧
      0 ≤ (protocolRun d l).engine.escrowedCredits id holder ∧
      totalClaimed d l id holder + (protocolRun d l).retirement.retiredPerBond id holder
          + (protocolRun d l).engine.escrowedCredits id holder
        ≤ totalCredited d l id holder := by
  have haccounted : Accounted id holder (protocolHistory d l) (protocolRun d l) := by
    refine protocolHistory_guarded d (P := Accounted id holder) ?_ ?_ l (guarded_of_forall hsteps)
    · exact ⟨fun e he => absurd he List.not_mem_nil, le_refl _, le_refl _⟩
    · intro l i hbooks hguard
      refine Accounted.snoc hbooks ?_
      cases hout : ((protocolRun d l).step i).2.isSome with
      | false => exact spendsOnce_of_failed hout hbooks.nonneg
      | true =>
          exact (ProtocolWorld.step_balanceChange (protocolRun_settlementsNonneg d l id) hout
            holder).spendsOnce (hguard hout) hbooks.nonneg
  exact ⟨haccounted.rise, haccounted.nonneg, haccounted.covered⟩

/-- The first coupon, retired in part and claimed in part. -/
def sampleSpending : List ProtocolInput :=
  sampleCoupon ++ [.retirement sampleOracle (.retireCredits ⟨2⟩ 1 2000000 .carbon ⟨9⟩ 0),
    .coupon sampleOracle (.claimCredits ⟨2⟩ 1 0)]

/-- Two of the five credits are retired and three claimed, and none is left. -/
theorem credits_spent_once_sample :
    totalClaimed sampleDeployment sampleSpending 1 ⟨2⟩
        + (protocolRun sampleDeployment sampleSpending).retirement.retiredPerBond 1 ⟨2⟩
        + (protocolRun sampleDeployment sampleSpending).engine.escrowedCredits 1 ⟨2⟩
      ≤ totalCredited sampleDeployment sampleSpending 1 ⟨2⟩ ∧
      totalClaimed sampleDeployment sampleSpending 1 ⟨2⟩ = 3000000 ∧
      (protocolRun sampleDeployment sampleSpending).retirement.retiredPerBond 1 ⟨2⟩ = 2000000 := by
  refine ⟨(credits_spent_once sampleDeployment sampleSpending 1 ⟨2⟩ ?_).2.2, by decide, by decide⟩
  intro e he _
  have hsplit : protocolHistory sampleDeployment sampleSpending
      = protocolHistory sampleDeployment sampleCoupon
        ++ protocolMachine.history (protocolRun sampleDeployment sampleCoupon) _ :=
    protocolMachine.history_append _ _ _
  rw [hsplit] at he
  unfold CorrectsDown
  rcases List.mem_append.mp he with he | he
  · rcases sampleCoupon_event he with ⟨-, hkind⟩ | rfl
    · rw [hkind]
      exact fun _ h => by cases h
    · exact fun _ h => by cases h
  · simp only [Machine.history, List.mem_cons, List.not_mem_nil, or_false] at he
    rcases he with rfl | rfl
    · exact fun _ h => by cases h
    · exact fun _ h => by cases h

/-- A retirement confirmed for minus one credit gives the holder one credit more than was ever
credited. -/
theorem negative_correction_mints :
    (((protocolRun sampleDeployment sampleCoupon).step
        (.coupon sampleOracle (.confirmRetirement ⟨1⟩ 1 ⟨2⟩ (-1) 2))).1.engine.escrowedCredits 1 ⟨2⟩
      = 5000001) ∧
      totalCredited sampleDeployment (sampleCoupon ++
        [.coupon sampleOracle (.confirmRetirement ⟨1⟩ 1 ⟨2⟩ (-1) 2)]) 1 ⟨2⟩ = 5000000 := by
  decide

end VerdantBond
