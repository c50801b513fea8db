import VerdantBond.Coupon.AccountLaws
import VerdantBond.Protocol.Calculations

set_option autoImplicit false

/-! # The books of a coupon period

A period is paid in batches, over many calls and in between any others. The books of a period are
kept over the history of the run: which holders were paid, in order (`slots`), and what was credited
to whom. `PeriodBooks` relates them to the engine's record of the period: the cursor counts the
slots, and, with pools that are not negative, every slot of a holder was credited the holder's
pro-rata share at the pinned snapshot, and the record's running total is the sum of these.
-/

namespace VerdantBond

open Function Machine ProtocolWorld List

/-! ## What an event paid -/

variable (id period : Nat)

/-- The batch an event paid for a period of a bond. A call that fails, or whose report is out of
bounds, pays none. -/
def paidBatch (e : ProtocolEvent) : Option CouponBatch :=
  match e.input.couponCall with
  | some (env, call) =>
      call.batch.filter fun batch => batch.bondId = id ∧ batch.periodIndex = period ∧
        e.output.isSome = true ∧ e.pre.engine.WithinBounds env e.pre.base.clock batch
  | none => none

/-- The holders an event visits for a period. -/
def slotsIn (e : ProtocolEvent) : List Address :=
  ((paidBatch id period e).map CouponBatch.slice).getD []

/-- What an event credits to a holder for a period, in one credit type. -/
def creditedForIn (holder : Address) (t : CreditType) (e : ProtocolEvent) : Int :=
  if e.input.kind id holder = .distribution period then
    (e.post.account id holder).periodHolder period t
      - (e.pre.account id holder).periodHolder period t
  else 0

/-- An event that pays for a period raises the balance of each type by what it credits to the
holder, and the combined balance by both. -/
def RaisesBalances (holder : Address) (e : ProtocolEvent) : Prop :=
  e.input.kind id holder = .distribution period →
    (∀ t, (e.post.account id holder).escrowedCreditsByType t
      = (e.pre.account id holder).escrowedCreditsByType t + creditedForIn id period holder t e) ∧
    (e.post.account id holder).escrowedCredits = (e.pre.account id holder).escrowedCredits
      + (creditedForIn id period holder .carbon e + creditedForIn id period holder .biodiversity e)

/-- The holders visited for a period, in order. -/
def slots (es : List ProtocolEvent) : List Address :=
  es.flatMap (slotsIn id period)

/-- What was credited to a holder for a period, in one credit type. -/
def creditedFor (holder : Address) (t : CreditType) (es : List ProtocolEvent) : Int :=
  (es.map (creditedForIn id period holder t)).sum

theorem slots_snoc (es : List ProtocolEvent) (e : ProtocolEvent) :
    slots id period (es ++ [e]) = slots id period es ++ slotsIn id period e := by
  unfold slots
  rw [flatMap_append, flatMap_singleton]

theorem creditedFor_snoc (holder : Address) (t : CreditType) (es : List ProtocolEvent)
    (e : ProtocolEvent) : creditedFor id period holder t (es ++ [e])
      = creditedFor id period holder t es + creditedForIn id period holder t e := by
  unfold creditedFor
  rw [map_append, sum_append, map_singleton, sum_singleton]

theorem protocolRun_raisesBalances (d : Deployment) (l : List ProtocolInput) (holder : Address) :
    ∀ e ∈ protocolHistory d l, RaisesBalances id period holder e := by
  intro e he hkind
  obtain ⟨_, hmoves⟩ : ∃ n, AccountMoves n (e.input.kind id holder) (e.pre.account id holder)
      (e.post.account id holder) := by
    obtain ⟨l₁, i, l₂, rfl, rfl⟩ := protocolMachine.exists_of_mem_history he
    exact ⟨_, protocolRun_moves d l₁ i id holder⟩
  rw [hkind] at hmoves
  obtain ⟨hbyType, hcombined⟩ := Account.moves_rise hmoves
  simp only [creditedForIn, if_pos hkind, ← hbyType]
  unfold Account.typedTotal at hcombined
  exact ⟨fun t => by omega, by omega⟩

variable {id period : Nat} {e : ProtocolEvent} {batch : CouponBatch} {c : CouponCalculation}
  {payout : Payout} {info : PeriodInfo} {w : ProtocolWorld} {es : List ProtocolEvent}

theorem paidBatch_eq_some :
    paidBatch id period e = some batch ↔ ∃ env call, e.input.couponCall = some (env, call) ∧
      call.batch = some batch ∧ batch.bondId = id ∧ batch.periodIndex = period ∧
      e.output.isSome = true ∧ e.pre.engine.WithinBounds env e.pre.base.clock batch := by
  unfold paidBatch
  cases hcall : e.input.couponCall with
  | none => simp
  | some c =>
      obtain ⟨env, call⟩ := c
      simp [Option.filter_eq_some_iff]

/-! ## One event -/

/-- The record of a period is untouched, and nothing is credited for it. -/
structure PeriodIdle (id period : Nat) (e : ProtocolEvent) : Prop where
  unpaid : paidBatch id period e = none
  credited : ∀ holder t, creditedForIn id period holder t e = 0
  couponCalculation : (e.post.engine.bond id).couponCalculation period
    = (e.pre.engine.bond id).couponCalculation period
  periodInfo : (e.post.engine.bond id).periodInfo period
    = (e.pre.engine.bond id).periodInfo period
  periodBatchCursor : (e.post.engine.bond id).periodBatchCursor period
    = (e.pre.engine.bond id).periodBatchCursor period

/-- The event pays a batch of the period. -/
structure PeriodPaid (id period : Nat) (e : ProtocolEvent) (batch : CouponBatch)
    (c : CouponCalculation) (payout : Payout) (info : PeriodInfo) : Prop where
  paid : paidBatch id period e = some batch
  bondId : batch.bondId = id
  periodIndex : batch.periodIndex = period
  base : e.post.base = e.pre.base
  credited : ∀ holder t, creditedForIn id period holder t e
    = (e.post.account id holder).periodHolder period t
      - (e.pre.account id holder).periodHolder period t
  distributed : ∃ env call, e.input.couponCall = some (env, call) ∧
    Distributed env e.pre.base.clock e.pre.base.issuer e.pre.engine (e.pre.engine.bond id) batch c
      payout info (e.post.engine.bond id)

theorem PeriodPaid.calculation (h : PeriodPaid id period e batch c payout info) :
    (e.post.engine.bond id).couponCalculation period = some c := by
  obtain ⟨_, _, -, hd⟩ := h.distributed
  rw [hd.couponCalculation, h.periodIndex, update_self]

theorem PeriodPaid.slots (h : PeriodPaid id period e batch c payout info) :
    slotsIn id period e = batch.slice := by
  unfold slotsIn
  rw [h.paid]
  rfl

/-- A paid batch found the calculation of its period, or was its first. -/
theorem PeriodPaid.source (h : PeriodPaid id period e batch c payout info) :
    (e.pre.engine.bond id).couponCalculation period = some c ∨
      (e.pre.engine.bond id).couponCalculation period = none := by
  obtain ⟨_, _, -, hd⟩ := h.distributed
  obtain ⟨_, _, _, -, -, hsource, -⟩ := hd.source
  rw [h.periodIndex] at hsource
  exact hsource.imp_right And.left

theorem PeriodIdle.slots (h : PeriodIdle id period e) : slotsIn id period e = [] := by
  unfold slotsIn
  rw [h.unpaid]
  rfl

theorem PeriodIdle.of_same (hunpaid : paidBatch id period e = none)
    (hsame : (e.pre.engine.bond id).SamePeriods (e.post.engine.bond id))
    (hcredited : ∀ holder t, creditedForIn id period holder t e = 0) : PeriodIdle id period e where
  unpaid := hunpaid
  credited := hcredited
  couponCalculation := by rw [hsame.couponCalculation]
  periodInfo := by rw [hsame.periodInfo]
  periodBatchCursor := by rw [hsame.periodBatchCursor]

theorem creditedForIn_of_account
    (h : (e.post.engine.bond id).account = (e.pre.engine.bond id).account) (period : Nat)
    (holder : Address) (t : CreditType) : creditedForIn id period holder t e = 0 := by
  unfold creditedForIn account
  rw [h, sub_self, ite_self]

theorem PeriodIdle.of_bond (hunpaid : paidBatch id period e = none)
    (hbond : e.post.engine.bond id = e.pre.engine.bond id) : PeriodIdle id period e := by
  refine .of_same hunpaid ?_ (creditedForIn_of_account (by rw [hbond]) period)
  rw [hbond]
  exact ⟨rfl, rfl, rfl, rfl, rfl, rfl, rfl⟩

/-- **An event pays a batch of the period, or does nothing to it.** -/
theorem period_event (hb : (w.engine.bond id).Pinned) (period : Nat) (i : ProtocolInput) :
    PeriodIdle id period (protocolMachine.event w i) ∨
      ∃ batch c payout info, PeriodPaid id period (protocolMachine.event w i) batch c payout info := by
  cases hpaid : paidBatch id period (protocolMachine.event w i) with
  | some batch =>
      obtain ⟨env, call, hcall, hbatch, hid, hperiod, hout, hbounds⟩ := paidBatch_eq_some.mp hpaid
      subst hid
      obtain ⟨hbase, ⟨result, hdist⟩, -⟩ := step_batch hcall hbatch hout
      obtain ⟨-, ⟨hflagged, -⟩ | ⟨-, c, payout, info, hdone⟩⟩ :=
        CouponEngine.distribute_pinned hb hdist
      · exact absurd hbounds hflagged
      · refine .inr ⟨batch, c, payout, info, hpaid, rfl, hperiod, hbase, fun holder t => ?_, env,
          call, hcall, hdone⟩
        have hkind : i.kind batch.bondId holder = .distribution period := by
          rw [i.kind_of_couponCall hcall, CouponCall.kind_of_batch hbatch, hperiod]
        exact if_pos hkind
  | none =>
      left
      rcases w.step_record i id with hbond | ⟨env, call, reply, hcall, -, hstep⟩
      · exact .of_bond hpaid hbond
      · cases hbatch : call.batch with
        | none =>
            refine .of_same hpaid (hstep.samePeriods hbatch) fun holder t => if_neg ?_
            show ¬ i.kind id holder = .distribution period
            rw [i.kind_of_couponCall hcall]
            exact CouponCall.kind_of_no_batch hbatch id holder period
        | some batch =>
            obtain ⟨hid, -, result, hdist⟩ := hstep.of_batch hbatch
            subst hid
            obtain ⟨-, ⟨-, hsame, haccount⟩ | ⟨hbounds, c, payout, info, hdone⟩⟩ :=
              CouponEngine.distribute_pinned hb hdist
            · exact .of_same hpaid hsame (creditedForIn_of_account haccount period)
            · cases hout : (w.step i).2.isSome with
              | false =>
                  refine .of_bond hpaid ?_
                  show (w.step i).1.engine.bond _ = _
                  rw [(step_failed hout).1]
                  rfl
              | true =>
                  -- paid, but for another period
                  have hne : period ≠ batch.periodIndex := by
                    intro heq
                    have hsome : paidBatch batch.bondId period (protocolMachine.event w i)
                        = some batch := paidBatch_eq_some.mpr
                      ⟨env, call, hcall, hbatch, rfl, heq.symm, hout, hbounds⟩
                    rw [hpaid] at hsome
                    cases hsome
                  refine ⟨hpaid, fun holder t => if_neg ?_, ?_, ?_, ?_⟩
                  · show ¬ i.kind batch.bondId holder = .distribution period
                    rw [i.kind_of_couponCall hcall, CouponCall.kind_of_batch hbatch]
                    exact fun h => hne (CreditKind.distribution.inj h).symm
                  · exact (congrFun hdone.couponCalculation period).trans (update_of_ne hne ..)
                  · exact (congrFun hdone.periodInfo period).trans (update_of_ne hne ..)
                  · exact (congrFun hdone.periodBatchCursor period).trans (update_of_ne hne ..)

/-! ## Books -/

/-- The balance of a holder at a version, in the issuer's books. -/
def ProtocolWorld.balanceAt (w : ProtocolWorld) (id version : Nat) (holder : Address) : Int :=
  (w.base.issuer.bond id).ledger.balanceAt holder version

/-- What the events `es` did for a period, against a calculation, the balances at its snapshot, the
total the record shows and its cursor. -/
structure Booked (id period : Nat) (es : List ProtocolEvent) (c : CouponCalculation)
    (balance : Address → Int) (earned : Int) (cursor : Nat) : Prop where
  cursor : cursor = (slots id period es).length
  credited : c.pools.Nonneg → ∀ holder t, creditedFor id period holder t es
    = (slots id period es).count holder * (c.due (balance holder)).of t
  earned : c.pools.Nonneg → earned
    = ((slots id period es).map fun holder => c.dueTotal (balance holder)).sum

/-- The books of a period, in a world. -/
structure PeriodBooks (id period : Nat) (es : List ProtocolEvent) (w : ProtocolWorld) : Prop where
  unstarted : (w.engine.bond id).couponCalculation period = none →
    slots id period es = [] ∧ ∀ holder t, creditedFor id period holder t es = 0
  started : ∀ c, (w.engine.bond id).couponCalculation period = some c →
    ∃ info, (w.engine.bond id).periodInfo period = some info ∧
      info.undistributed = (if info.distributed = true then
        c.carbonPool + c.biodiversityPool - info.totalCreditsEarned else 0) ∧
      Booked id period es c (w.balanceAt id c.balanceVersion) info.totalCreditsEarned
        ((w.engine.bond id).periodBatchCursor period)

/-- Nothing is booked before the first batch. -/
theorem Booked.start (c : CouponCalculation) (balance : Address → Int)
    (hslots : slots id period es = [])
    (hcredited : ∀ holder t, creditedFor id period holder t es = 0) :
    Booked id period es c balance 0 0 where
  cursor := by rw [hslots]; rfl
  credited := fun _ holder t => by rw [hcredited, hslots, count_nil, Nat.cast_zero, zero_mul]
  earned := fun _ => by rw [hslots]; rfl

/-- A paid batch adds its slice. -/
theorem Booked.pay {balance : Address → Int} {earned added : Int} {cursor n : Nat}
    (h : Booked id period es c balance earned cursor) (hlength : (slotsIn id period e).length = n)
    (hcredited : c.pools.Nonneg → ∀ holder t, creditedForIn id period holder t e
      = (slotsIn id period e).count holder * (c.due (balance holder)).of t)
    (hadded : c.pools.Nonneg →
      added = ((slotsIn id period e).map fun holder => c.dueTotal (balance holder)).sum) :
    Booked id period (es ++ [e]) c balance (earned + added) (cursor + n) where
  cursor := by rw [slots_snoc, length_append, h.cursor, hlength]
  credited := fun hnonneg holder t => by
    rw [creditedFor_snoc, slots_snoc, h.credited hnonneg, hcredited hnonneg, count_append]
    push_cast
    ring
  earned := fun hnonneg => by
    rw [slots_snoc, map_append, sum_append, ← h.earned hnonneg, ← hadded hnonneg]

/-- Another event keeps the books of the period. -/
theorem PeriodBooks.idle (h : PeriodBooks id period es e.pre) (hidle : PeriodIdle id period e)
    (hbalance : ∀ c, (e.pre.engine.bond id).couponCalculation period = some c →
      e.post.balanceAt id c.balanceVersion = e.pre.balanceAt id c.balanceVersion) :
    PeriodBooks id period (es ++ [e]) e.post where
  unstarted := fun hnone => by
    rw [hidle.couponCalculation] at hnone
    obtain ⟨hslots, hcredited⟩ := h.unstarted hnone
    refine ⟨by rw [slots_snoc, hslots, hidle.slots, append_nil], fun holder t => ?_⟩
    rw [creditedFor_snoc, hcredited, hidle.credited, add_zero]
  started := fun c hsome => by
    rw [hidle.couponCalculation] at hsome
    obtain ⟨info, hinfo, hundistributed, hbooked⟩ := h.started c hsome
    refine ⟨info, by rw [hidle.periodInfo, hinfo], hundistributed, ?_⟩
    rw [hbalance c hsome, hidle.periodBatchCursor]
    have hpay : Booked id period (es ++ [e]) c (e.pre.balanceAt id c.balanceVersion)
        (info.totalCreditsEarned + 0) ((e.pre.engine.bond id).periodBatchCursor period + 0) := by
      refine hbooked.pay ?_ (fun _ holder t => ?_) (fun _ => ?_)
      · rw [hidle.slots]
        rfl
      · rw [hidle.credited, hidle.slots, count_nil, Nat.cast_zero, zero_mul]
      · rw [hidle.slots]
        rfl
    rw [add_zero, add_zero] at hpay
    exact hpay

theorem CouponBatch.slice_length (h : batch.offset + batch.limit ≤ batch.holders.length) :
    batch.slice.length = batch.limit := by
  unfold CouponBatch.slice
  rw [length_take, length_drop]
  omega

/-- What the period's record showed before a paid batch is what is booked. -/
theorem PeriodBooks.before (h : PeriodBooks id period es w) (hb : (w.engine.bond id).Pinned)
    (hsource : (w.engine.bond id).couponCalculation period = some c ∨
      (w.engine.bond id).couponCalculation period = none) :
    Booked id period es c (w.balanceAt id c.balanceVersion)
      ((((w.engine.bond id).periodInfo period).map PeriodInfo.totalCreditsEarned).getD 0)
      ((w.engine.bond id).periodBatchCursor period) := by
  rcases hsource with hsome | hnone
  · obtain ⟨info, hinfo, -, hbooked⟩ := h.started c hsome
    rw [hinfo]
    exact hbooked
  · obtain ⟨hslots, hcredited⟩ := h.unstarted hnone
    obtain ⟨hinfo, hcursor, -⟩ := hb.unstarted period hnone
    rw [hinfo, hcursor]
    exact .start c _ hslots hcredited

/-- A paid batch extends the books by its slice. -/
theorem PeriodBooks.pay (h : PeriodBooks id period es e.pre)
    (hpaid : PeriodPaid id period e batch c payout info)
    (hsound : (e.pre.engine.bond id).Sound (e.pre.base.issuer.bond id))
    (hissuer : (e.pre.base.issuer.bond id).Sound) (hof : c.OfBond (e.pre.base.issuer.bond id))
    (hbalance : ∀ holder, 0 ≤ e.pre.balanceAt id c.balanceVersion holder) :
    PeriodBooks id period (es ++ [e]) e.post := by
  have hstored := hpaid.calculation
  have hslice := hpaid.slots
  have hbefore := h.before hsound.pinned hpaid.source
  obtain ⟨_, _, -, hd⟩ := hpaid.distributed
  obtain ⟨-, hid, hperiod, hbase, hcredits, -⟩ := hpaid
  subst hid
  subst hperiod
  obtain ⟨creditType, staleness, report, htype, -, -, hfold⟩ := hd.source
  -- with non-negative pools the loop credits the shares due
  have hadds : c.pools.Nonneg → Payout.Adds c (e.pre.balanceAt batch.bondId c.balanceVersion)
      batch.periodIndex batch.slice ⟨(e.pre.engine.bond batch.bondId).account, 0, 0⟩ payout := by
    intro hnonneg
    obtain ⟨config, hconfig, hfits⟩ := hof.fits
    obtain ⟨config', hconfig', rfl⟩ := hsound.creditType creditType htype
    rw [hconfig] at hconfig'
    cases hconfig'
    obtain ⟨state, hstate⟩ := Option.isSome_iff_exists.mp hof.issued
    refine Payout.foldlM_payHolder_adds hfits hnonneg (fun holder => ?_) hbalance hfold
    exact BondIssuer.getHolderBalanceAtVersion_eq hissuer.ledger hstate hof.version holder
  refine ⟨fun hnone => ?_, fun c' hc' => ?_⟩
  · rw [hstored] at hnone
    cases hnone
  · rw [hstored] at hc'
    cases hc'
    refine ⟨info, by rw [hd.periodInfo, update_self], ?_, ?_⟩
    · rw [hd.undistributed, hd.distributed]
      simp only [decide_eq_true_eq]
    · have hpost : e.post.balanceAt batch.bondId c.balanceVersion
          = e.pre.balanceAt batch.bondId c.balanceVersion := by
        unfold balanceAt
        rw [hbase]
      rw [hpost, hd.earned, hd.periodBatchCursor, update_self, hd.offset]
      refine hbefore.pay ?_ (fun hnonneg holder t => ?_) (fun hnonneg => ?_)
      · rw [hslice, CouponBatch.slice_length hd.bound]
      · rw [hcredits, hslice]
        unfold account
        rw [hd.account, (hadds hnonneg).credited]
        ring
      · rw [hslice, (hadds hnonneg).total, zero_add]

/-! ## Runs -/

/-- The answers about one version of a bond, in every run. -/
theorem protocolRun_snapshot (d : Deployment) (l : List ProtocolInput) (id : Nat) {v : Nat}
    (hv : v ≤ ((protocolRun d l).base.issuer.bond id).balanceVersion) :
    (∀ holder, 0 ≤ (protocolRun d l).balanceAt id v holder) ∧
      0 ≤ ((protocolRun d l).base.issuer.bond id).ledger.totalAt v ∧
      ∀ holders : List Address, holders.Nodup →
        (holders.map fun holder => (protocolRun d l).balanceAt id v holder).sum
          ≤ ((protocolRun d l).base.issuer.bond id).ledger.totalAt v := by
  unfold balanceAt
  rw [protocolRun_base] at hv ⊢
  exact snapshot_sums _ _ _ _ id hv

/-- **The books of every period are kept**, in every run. -/
theorem protocolRun_books (d : Deployment) (l : List ProtocolInput) (id period : Nat) :
    PeriodBooks id period (protocolHistory d l) (protocolRun d l) := by
  refine protocolHistory_induct d (P := PeriodBooks id period) ?_ (fun l i h => ?_) l
  · exact ⟨fun _ => ⟨rfl, fun _ _ => rfl⟩, (fun c hc => by cases hc)⟩
  · have hsound := protocolRun_couponSound d l id
    rcases period_event hsound.pinned period i with hidle | ⟨batch, c, payout, info, hpaid⟩
    · refine PeriodBooks.idle h hidle fun c hc => ?_
      obtain ⟨-, -, hpast⟩ := protocolRun_issuer_later d l i id
      have hsame := (hpast _ (hsound.calculation period c hc).version).1
      rw [protocolRun_snoc] at hsame
      exact funext hsame
    · -- the calculation is pinned after the event, and the issuer is the same
      have hof : c.OfBond ((protocolRun d l).base.issuer.bond id) := by
        have hafter := protocolRun_couponSound d (l ++ [i]) id
        rw [protocolRun_snoc] at hafter
        have hbase : ((protocolRun d l).step i).1.base = (protocolRun d l).base := hpaid.base
        rw [hbase] at hafter
        exact hafter.calculation period c hpaid.calculation
      exact PeriodBooks.pay h hpaid hsound (protocolRun_issuer_sound d l id) hof
        (protocolRun_snapshot d l id hof.version).1

end VerdantBond
