import VerdantBond.Protocol.Periods

set_option autoImplicit false

/-! # The undistributed pool

The batch that completes a period books what the batches left of its pools: in the record of the
period, and, if it is positive, in the bond's undistributed total, which the admin sweeps out. The
record and the total are never compared by the contract. Over a whole run they agree: the total and
everything swept are what the completed periods left (`undistributed_conserved`).
-/

namespace VerdantBond

open Function Machine

/-- What a completed period adds to the total: the rest of its pools, if it is positive. -/
def CouponBond.leftOver (b : CouponBond) (period : Nat) : Int :=
  match b.periodInfo period with
  | some info => if info.distributed then max info.undistributed 0 else 0
  | none => 0

def CouponCall.sweeps : CouponCall → Bool
  | .sweepUndistributed .. => true
  | _ => false

/-- What an event sweeps out of a bond's total, as the call answers. -/
def sweptIn (id : Nat) (e : ProtocolEvent) : Int :=
  match e.output with
  | some (.coupon (.amount total)) => if (callOn id e).any fun c => c.2.sweeps then total else 0
  | _ => 0

def swept (id : Nat) (es : List ProtocolEvent) : Int := (es.map (sweptIn id)).sum

/-! ## One call -/

/-- The total and `x` are what the completed periods left. -/
structure CouponBond.PoolKept (b : CouponBond) (x : Int) : Prop where
  finite : b.leftOver.HasFiniteSupport
  nonneg : 0 ≤ b.undistributedTotal
  balance : b.undistributedTotal + x = ∑ᶠ period, b.leftOver period

variable {env : Env} {clock : Clock} {issuer : BondIssuer} {s : CouponEngine} {id : Nat}
  {call : CouponCall} {b b' : CouponBond} {x : Int}

theorem CouponBond.PoolKept.congr (h : b.PoolKept x) (hinfo : b'.periodInfo = b.periodInfo)
    (htotal : b'.undistributedTotal = b.undistributedTotal) : b'.PoolKept x := by
  have hsame : b'.leftOver = b.leftOver := by
    funext period
    unfold leftOver
    rw [hinfo]
  exact ⟨hsame ▸ h.finite, htotal ▸ h.nonneg, by rw [hsame, htotal, h.balance]⟩

/-- **Any call but a sweep** moves the total as the periods. -/
theorem RestStep.poolKept (h : RestStep env clock issuer s id call b b') (hcall : call.sweeps = false)
    (hb : b.PoolKept x) : b'.PoolKept x := by
  cases h with
  | plain _ hperiods hrest => exact hb.congr hperiods.periodInfo hrest.undistributedTotal
  | trueUp | migrate | configure => exact hb.congr rfl rfl
  | sweep => cases hcall
  | @distribute _ batch _ _ hid _ houtcome =>
      subst hid
      cases houtcome with
      | flagged flag hb' =>
          subst hb'
          exact hb.congr rfl rfl
      | @paid _ _ _ _ _ info b₁ _ _ hopen _ hprepared hpaid hrest =>
          have haside := hprepared.elim FirstBatch.aside LaterBatch.aside
          -- the period was not complete before the batch
          have hzero : (s.bond batch.bondId).leftOver batch.periodIndex = 0 := by
            unfold CouponBond.leftOver
            split
            · next old hold => rw [(hopen old hold).1, if_neg (by decide)]
            · rfl
          have hadded : b'.leftOver = update (s.bond batch.bondId).leftOver batch.periodIndex
              (if batch.Complete then max info.undistributed 0 else 0) := by
            funext period
            unfold CouponBond.leftOver
            rw [hpaid.periodInfo, haside.periodInfo]
            by_cases hp : period = batch.periodIndex
            · subst hp
              simp only [update_self, hpaid.distributed, decide_eq_true_eq]
            · simp only [update_of_ne hp]
          have htotal := hrest.undistributedTotal
          rw [haside.undistributedTotal] at htotal
          have hnonneg := hb.nonneg
          have hbalance := hb.balance
          refine ⟨hadded ▸ hasFiniteSupport_update hb.finite _ _, ?_, ?_⟩
          · rw [htotal]
            split <;> omega
          · rw [hadded, finsum_update hb.finite, hzero, htotal]
            omega

/-- A sweep answers with the total and empties it. -/
theorem CouponWrite.of_sweeps {reply : CouponReply}
    (h : CouponWrite env clock issuer s id call reply b b') (hcall : call.sweeps = true) :
    reply = .amount b.undistributedTotal ∧ b' = { b with undistributedTotal := 0 } := by
  cases h with
  | sweep => exact ⟨rfl, rfl⟩
  | distribute hbatch =>
      cases call with
      | sweepUndistributed => cases hbatch
      | _ => cases hcall
  | _ => cases hcall

/-- An event without a sweep of the bond sweeps nothing. -/
theorem sweptIn_eq_zero {e : ProtocolEvent} (h : ((callOn id e).any fun c => c.2.sweeps) = false) :
    sweptIn id e = 0 := by
  unfold sweptIn
  rw [h]
  split <;> rfl

/-! ## Runs -/

/-- What a sweep answers in an event is the total before it. -/
theorem sweptIn_of_sweeps {w : ProtocolWorld} {i : ProtocolInput}
    (hcall : callOn id (protocolMachine.event w i) = some (env, call))
    (hsweeps : call.sweeps = true) :
    sweptIn id (protocolMachine.event w i) = (w.engine.bond id).undistributedTotal := by
  have hmade := hcall
  unfold callOn at hmade
  split at hmade
  · next hok =>
      obtain ⟨hinput, htarget⟩ := Option.filter_eq_some_iff.mp hmade
      cases i with
      | coupon env' call' =>
          cases hinput
          cases hexec : w.engine.exec env w.base.clock w.base.issuer call with
          | error e =>
              simp only [Machine.event, protocolMachine, ProtocolWorld.step, hexec, Option.isSome_none,
                reduceCtorEq] at hok
          | ok r =>
              rcases ((CouponEngine.exec_move hexec).writes id).record with ⟨hother, -⟩ | ⟨-, hwrite⟩
              · exact absurd (of_decide_eq_true htarget) hother
              · unfold sweptIn
                rw [hcall]
                simp only [Machine.event, protocolMachine, ProtocolWorld.step, hexec,
                  (hwrite.of_sweeps hsweeps).1, Option.any_some, hsweeps, if_true]
      | issuer input => cases hinput
      | retirement env' call' =>
          cases call' <;> cases hinput
          cases hsweeps
  · cases hmade

theorem protocolRun_poolKept (d : Deployment) (l : List ProtocolInput) (id : Nat) :
    ((protocolRun d l).engine.bond id).PoolKept (swept id (protocolHistory d l)) := by
  refine protocolHistory_induct d (P := fun es w => (w.engine.bond id).PoolKept (swept id es)) ?_
    (fun l i ih => ?_) l
  · refine ⟨hasFiniteSupport_zero, le_rfl, ?_⟩
    show (0 : Int) + 0 = ∑ᶠ _ : Nat, (0 : Int)
    rw [finsum_zero, add_zero]
  · show (((protocolRun d l).step i).1.engine.bond id).PoolKept _
    have hsnoc : swept id (protocolHistory d l ++ [protocolMachine.event (protocolRun d l) i])
        = swept id (protocolHistory d l) + sweptIn id (protocolMachine.event (protocolRun d l) i) := by
      simp [swept]
    rw [hsnoc]
    rcases (protocolRun d l).event_write i id with ⟨hcall, hsame⟩ | ⟨env, call, reply, hcall, hwrite⟩
    · rw [hsame, sweptIn_eq_zero (by rw [hcall]; rfl), add_zero]
      exact ih
    · cases hsweeps : call.sweeps with
      | true =>
          rw [(hwrite.of_sweeps hsweeps).2, sweptIn_of_sweeps hcall hsweeps]
          refine ⟨ih.finite, le_rfl, ?_⟩
          show 0 + _ = ∑ᶠ period, ((protocolRun d l).engine.bond id).leftOver period
          rw [← ih.balance]
          ring
      | false =>
          rw [sweptIn_eq_zero (by rw [hcall]; exact hsweeps), add_zero]
          exact (hwrite.rest (protocolRun_couponSound d l id).pinned).poolKept hsweeps ih

/-- **The undistributed pool is conserved.** In every run the record of a completed period splits the
pools of its pinned calculation into what its batches credited and the rest; the bond's total is never
negative; and the total together with everything the sweeps answered is the sum, over all periods, of
what the completed ones, finitely many, left. -/
theorem undistributed_conserved (d : Deployment) (l : List ProtocolInput) (id : Nat) :
    let b := (protocolRun d l).engine.bond id
    (∀ period info, b.periodInfo period = some info → info.distributed = true →
      ∃ c, b.getCouponCalculation period = some c ∧
        info.totalCreditsEarned + info.undistributed = c.carbonPool + c.biodiversityPool) ∧
    0 ≤ b.undistributedTotal ∧ b.leftOver.HasFiniteSupport ∧
    b.undistributedTotal + swept id (protocolHistory d l) = ∑ᶠ period, b.leftOver period := by
  intro b
  have hpinned := (protocolRun_couponSound d l id).pinned
  have hkept := protocolRun_poolKept d l id
  refine ⟨fun period info hinfo hdone => ?_, hkept.nonneg, hkept.finite, hkept.balance⟩
  cases hc : b.couponCalculation period with
  | none =>
      rw [(hpinned.unstarted period hc).1] at hinfo
      cases hinfo
  | some c =>
      obtain ⟨info', hinfo', hrest, -⟩ := (protocolRun_books d l id period).started c hc
      obtain rfl : info' = info := Option.some.inj (hinfo'.symm.trans hinfo)
      rw [if_pos hdone] at hrest
      exact ⟨c, (hpinned.calculation period).trans hc, by omega⟩

end VerdantBond
