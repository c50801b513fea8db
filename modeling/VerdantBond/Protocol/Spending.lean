import VerdantBond.Coupon.Payments
import VerdantBond.Protocol.TypeLedgers

set_option autoImplicit false

/-! # Spending accrued credits

`consume_credits` walks the periods below the period count. Credits of a period still being paid in
batches, or paid under an index at or above the count, are in the balance but not in its reach.
What a holder can spend is therefore what the entries in reach hold, and it is the whole balance in
every run that pays the holder only for periods the loops reach once the call is over.
-/

namespace VerdantBond

open Function Relation Machine ProtocolWorld List CouponEngine

namespace Account

/-! ## Entries in reach -/

/-- What the loops of `consume_credits` can find. -/
def reachable (a : Account) (periodCount : Nat) : Int := ((entries periodCount).map a.itemized).sum

theorem sum_periodEntries (a : Account) (n : Nat) :
    (((range n).flatMap periodEntries).map a.itemized).sum
      = ∑ p ∈ Finset.range n, (a.periodHolder p .carbon + a.periodHolder p .biodiversity) := by
  induction n with
  | zero => rfl
  | succ n ih =>
      rw [range_succ, flatMap_append, map_append, sum_append, ih,
        Finset.sum_range_succ]
      simp only [flatMap_singleton, periodEntries, paidTypes, map_cons, map_nil,
        sum_cons, sum_nil, add_zero]
      rfl

variable {a : Account} {periodCount : Nat}

theorem sum_period_eq (h : a.NothingBeyond periodCount) (t : CreditType) :
    ∑ᶠ p, a.periodHolder p t = ∑ p ∈ Finset.range periodCount,
      a.periodHolder p t := by
  refine finsum_eq_sum_of_support_subset _ fun p hp => ?_
  rw [Finset.coe_range, Set.mem_Iio]
  by_contra hle
  exact hp (h p t (not_lt.mp hle))

/-- With nothing beyond the count, the loops reach everything. -/
theorem reachable_eq (h : a.NothingBeyond periodCount) :
    a.reachable periodCount = a.itemizedOf .carbon + a.itemizedOf .biodiversity := by
  have hsplit : ∑ p ∈ Finset.range periodCount,
      (a.periodHolder p .carbon + a.periodHolder p .biodiversity)
        = ∑ᶠ p, a.periodHolder p .carbon + ∑ᶠ p, a.periodHolder p .biodiversity := by
    rw [Finset.sum_add_distrib, sum_period_eq h, sum_period_eq h]
  have hwaterfall : ((paidTypes.map Entry.waterfall).map a.itemized).sum
      = a.waterfallAccrued .carbon + a.waterfallAccrued .biodiversity := by
    simp only [paidTypes, map_cons, map_nil, sum_cons, sum_nil, add_zero]
    rfl
  unfold reachable entries itemizedOf
  rw [map_append, sum_append, sum_periodEntries, hsplit, hwaterfall]
  ring

end Account

/-! ## Runs -/

/-- The input corrects no combined balance of the account. -/
def NoCorrection (id : Nat) (holder : Address) (e : ProtocolEvent) : Prop :=
  ∀ amount, e.input.kind id holder ≠ .correction amount

/-- A distribution that pays the holder is for a period below the count, or for the next one and
completes it. -/
def PaysInReach (id : Nat) (holder : Address) (e : ProtocolEvent) : Prop :=
  ∀ batch, e.input.batch = some batch → batch.bondId = id → holder ∈ batch.slice →
    batch.periodIndex < (e.pre.engine.bond id).periodCount ∨
      (batch.periodIndex = (e.pre.engine.bond id).periodCount ∧ batch.Complete)

/-- Every account stays regular in a run without corrections. -/
theorem protocolRun_regular (d : Deployment) (l : List ProtocolInput) (id : Nat) (holder : Address)
    (hsteps : ∀ e ∈ protocolHistory d l, e.output.isSome = true → NoCorrection id holder e) :
    ((protocolRun d l).account id holder).Regular := by
  refine protocolMachine.run_guarded (P := fun w => (w.account id holder).Regular)
    (s := deploy d) Account.regular_empty ?_ l hsteps
  intro l i hregular hkind
  cases hout : ((protocolRun d l).step i).2.isSome with
  | false =>
      show (((protocolRun d l).step i).1.account id holder).Regular
      unfold account
      rw [(step_failed hout).1]
      exact hregular
  | true =>
      refine hregular.moves (fun amount h => ?_) (protocolRun_moves d l i id holder)
      exact absurd h (hkind hout amount)

variable {env : Env} {s : CouponEngine} {holder : Address}

/-- What a distribution does to the period count. -/
theorem CouponEngine.distribute_periodCount {clock : Clock} {issuer : BondIssuer}
    {batch : CouponBatch} {b' : CouponBond} {result : CouponResult}
    (h : s.distribute env clock issuer batch = .ok (b', result)) :
    (b'.account = (s.bond batch.bondId).account ∧
        b'.periodCount = (s.bond batch.bondId).periodCount) ∨
      b'.periodCount = (s.bond batch.bondId).periodCount + if batch.Complete then 1 else 0 := by
  rcases distribute_ok h with ⟨-, flag, rfl⟩ | ⟨-, _, _, b₁, _, _, payout, info, -, hprepare, hpaid⟩
  · exact .inl ⟨rfl, rfl⟩
  · right
    rw [hpaid.periodCount, (prepareBatch_same hprepare).periodCount]

/-- Paying within reach keeps the periods at and above the count empty. -/
theorem ProtocolWorld.step_nothingBeyond {w : ProtocolWorld} {i : ProtocolInput} {id : Nat}
    (hw : (w.engine.bond id).SettlementsNonneg) (hregular : (w.account id holder).Regular)
    (hcorrect : ∀ amount, i.kind id holder ≠ .correction amount)
    (hreach : PaysInReach id holder (protocolMachine.event w i))
    (ha : (w.account id holder).NothingBeyond (w.engine.bond id).periodCount) :
    ((w.step i).1.account id holder).NothingBeyond ((w.step i).1.engine.bond id).periodCount := by
  rcases w.step_record i id with heq | ⟨env, call, reply, hcall, -, hstep⟩
  · unfold account
    rw [heq]
    exact ha
  · have hzero : ∀ p t, i.kind id holder ≠ .distribution p →
        (w.account id holder).periodHolder p t = 0 →
        ((w.step i).1.account id holder).periodHolder p t = 0 := fun p t hkind h0 =>
      hregular.itemized_stays_zero (e := .period p t) hcorrect hkind (step_moves hw i holder) h0
    rw [i.kind_of_couponCall hcall] at hzero
    cases hbatch : call.batch with
    | none =>
        intro p t hp
        rw [(hstep.samePeriods hbatch).periodCount] at hp
        exact hzero p t (CouponCall.kind_of_no_batch hbatch id holder p) (ha p t hp)
    | some batch =>
        obtain ⟨hid, -, result, hdist⟩ := hstep.of_batch hbatch
        subst hid
        rw [CouponCall.kind_of_batch hbatch] at hzero
        have hnext : holder ∈ batch.slice →
            batch.periodIndex < (w.engine.bond batch.bondId).periodCount ∨
              (batch.periodIndex = (w.engine.bond batch.bondId).periodCount ∧ batch.Complete) :=
          hreach batch (i.batch_of_couponCall hcall hbatch) rfl
        intro p t hp
        rcases distribute_periodCount hdist with ⟨haccount, hcount⟩ | hcount
        · unfold account
          rw [haccount]
          exact ha p t (hcount ▸ hp)
        · rw [hcount] at hp
          by_cases hslice : holder ∈ batch.slice
          · have hne : batch.periodIndex ≠ p := by
              rcases hnext hslice with hlt | ⟨heq, hcomplete⟩
              · omega
              · rw [if_pos hcomplete] at hp
                omega
            exact hzero p t (fun h => hne (CreditKind.distribution.inj h)) (ha p t (by omega))
          · unfold account
            rw [distribute_other hdist hslice]
            exact ha p t (by omega)

/-- In a run that pays the account within reach and corrects nothing, the ledgers agree and every
itemized credit is below the count. -/
theorem protocolRun_inReach (d : Deployment) (l : List ProtocolInput) (id : Nat) (holder : Address)
    (hsteps : ∀ e ∈ protocolHistory d l, e.output.isSome = true →
      NoCorrection id holder e ∧ PaysInReach id holder e) :
    ((protocolRun d l).account id holder).Consistent ∧
      ((protocolRun d l).account id holder).NothingBeyond
        ((protocolRun d l).engine.bond id).periodCount := by
  refine protocolMachine.run_guarded (P := fun w => (w.account id holder).Consistent ∧
    (w.account id holder).NothingBeyond (w.engine.bond id).periodCount)
    (s := deploy d) ⟨Account.consistent_empty, fun _ _ _ => rfl⟩ ?_ l hsteps
  rintro l i ⟨hconsistent, hbeyond⟩ hguard
  cases hout : ((protocolRun d l).step i).2.isSome with
  | false =>
      show (((protocolRun d l).step i).1.account id holder).Consistent ∧
        (((protocolRun d l).step i).1.account id holder).NothingBeyond
          (((protocolRun d l).step i).1.engine.bond id).periodCount
      unfold account
      rw [(step_failed hout).1]
      exact ⟨hconsistent, hbeyond⟩
  | true =>
      obtain ⟨hcorrect, hreach⟩ := hguard hout
      have hkeeps : ((protocolRun d l).account id holder).Keeps
          ((protocolRun d l).engine.bond id).periodCount (i.kind id holder) := by
        cases hkind : i.kind id holder with
        | correction amount => exact absurd hkind (hcorrect amount)
        | claim => exact hbeyond
        | distribution | waterfall | consumption | none => trivial
      exact ⟨hconsistent.moves hkeeps (protocolRun_moves d l i id holder),
        step_nothingBeyond (protocolRun_settlementsNonneg d l id) hconsistent.1
          hcorrect hreach hbeyond⟩

/-! ## Consuming -/

/-- `consume_credits` succeeds and takes exactly `amount`, from the combined balance and from the
itemized entries in total. -/
def ConsumesExactly (s : CouponEngine) (env : Env) (id : Nat) (holder : Address) (amount : Int) :
    Prop :=
  ∃ s', s.consumeCredits env holder id amount = .ok s' ∧
    s'.escrowedCredits id holder = s.escrowedCredits id holder - amount ∧
    ((s.bond id).account holder).itemized.HasFiniteSupport ∧
    ((s'.bond id).account holder).itemized.HasFiniteSupport ∧
    ∑ᶠ e, ((s'.bond id).account holder).itemized e
      = ∑ᶠ e, ((s.bond id).account holder).itemized e - amount

/-- On a regular account, consuming works exactly for what is in reach. -/
theorem consumesExactly_iff {id : Nat} {amount : Int}
    (hregular : ((s.bond id).account holder).Regular) (hauth : env.authorized holder = true)
    (hwindow : (s.bond id).migrationWindow = none) (hpos : 0 < amount)
    (hle : amount ≤ s.escrowedCredits id holder) :
    ConsumesExactly s env id holder amount ↔
      amount ≤ ((s.bond id).account holder).reachable (s.bond id).periodCount := by
  have hiff : (∃ a, ((s.bond id).account holder).consume (s.bond id).periodCount amount = .ok a) ↔
      amount ≤ ((s.bond id).account holder).reachable (s.bond id).periodCount :=
    hregular.consume_succeeds_iff hpos hle
  rw [← hiff]
  constructor
  · rintro ⟨s', hok, -⟩
    simp only [consumeCredits, bind_ok_iff, pure_ok_iff, exists_unit_iff] at hok
    obtain ⟨-, b, hb, -⟩ := hok
    obtain ⟨-, a, ha, -⟩ := CouponBond.consume_ok hb
    exact ⟨a, ha⟩
  · rintro ⟨a, ha⟩
    obtain ⟨-, hd⟩ := Account.consume_drained hpos ha
    set b : CouponBond := { s.bond id with account := update (s.bond id).account holder a } with hb
    have haccount : ((s.setBond id b).bond id).account holder = a := by
      rw [setBond_bond_same, hb]
      exact update_self ..
    refine ⟨s.setBond id b, ?_, ?_, hregular.support, ?_, ?_⟩
    · have hopen : ¬ (s.bond id).migrationWindow.isSome = true := by
        rw [hwindow]
        exact fun h => by cases h
      simp only [consumeCredits, requireAuth, hostRequire_of hauth, CouponBond.consume,
        CouponBond.requireNoMigrationWindow, reject_of_not (not_le.mpr hpos), reject_of_not hopen,
        ha, ok_bind, pure_eq_ok, hb]
    · unfold escrowedCredits
      rw [haccount]
      exact hd.escrowedCredits
    · rw [haccount]
      exact hd.support hregular.support
    · have htotal : ∑ᶠ e, a.itemized e
          = ∑ᶠ e, ((s.bond id).account holder).itemized e - (amount - 0) := hd.total hregular.support
      rw [haccount, htotal, sub_zero]

/-- **What can be spent.** In every state reached without corrections, an authorized holder of a
bond without an open migration window can consume an amount the balance covers exactly when the
entries below the period count and of the waterfall hold it. If every distribution that paid the
holder was for a period below the count, or completed the next one, that is every such amount. -/
theorem accrued_credits_spendable (d : Deployment) (l : List ProtocolInput) (id : Nat)
    (holder : Address)
    (hsteps : ∀ e ∈ protocolHistory d l, e.output.isSome = true → NoCorrection id holder e)
    (env : Env) (hauth : env.authorized holder = true)
    (hwindow : ((protocolRun d l).engine.bond id).migrationWindow = none) (amount : Int)
    (hpos : 0 < amount) (hle : amount ≤ (protocolRun d l).engine.escrowedCredits id holder) :
    (ConsumesExactly (protocolRun d l).engine env id holder amount ↔
      amount ≤ ((protocolRun d l).account id holder).reachable
        ((protocolRun d l).engine.bond id).periodCount) ∧
      ((∀ e ∈ protocolHistory d l, e.output.isSome = true → PaysInReach id holder e) →
        ConsumesExactly (protocolRun d l).engine env id holder amount) := by
  have hiff := consumesExactly_iff (protocolRun_regular d l id holder hsteps) hauth hwindow hpos hle
  refine ⟨hiff, fun hreach => hiff.mpr ?_⟩
  obtain ⟨hconsistent, hbeyond⟩ := protocolRun_inReach d l id holder
    (fun e he hout => ⟨hsteps e he hout, hreach e he hout⟩)
  -- everything is in reach, and everything is the balance
  have hcarbon := hconsistent.2 .carbon (by decide)
  have hbio := hconsistent.2 .biodiversity (by decide)
  have hcombined : (protocolRun d l).engine.escrowedCredits id holder
      = ((protocolRun d l).account id holder).typedTotal := hconsistent.1.combined
  unfold Account.typedTotal at hcombined
  have hreach : ((protocolRun d l).account id holder).reachable
      ((protocolRun d l).engine.bond id).periodCount
        = ((protocolRun d l).account id holder).itemizedOf .carbon
          + ((protocolRun d l).account id holder).itemizedOf .biodiversity :=
    Account.reachable_eq hbeyond
  show amount ≤ ((protocolRun d l).account id holder).reachable
    ((protocolRun d l).engine.bond id).periodCount
  omega

/-- The whole first coupon can be consumed. -/
theorem accrued_credits_spendable_sample :
    ConsumesExactly (protocolRun sampleDeployment sampleCoupon).engine sampleOracle 1 ⟨2⟩ 5000000 := by
  have hevents : ∀ e ∈ protocolHistory sampleDeployment sampleCoupon,
      NoCorrection 1 ⟨2⟩ e ∧ PaysInReach 1 ⟨2⟩ e := by
    intro e he
    unfold NoCorrection PaysInReach
    rcases sampleCoupon_event he with ⟨hbatch, hkind⟩ | rfl
    · rw [hkind, hbatch]
      exact ⟨(fun _ h => by cases h), fun _ h => by cases h⟩
    · refine ⟨(fun _ h => by cases h), fun batch h _ _ => ?_⟩
      cases h
      exact .inr ⟨rfl, rfl⟩
  exact (accrued_credits_spendable sampleDeployment sampleCoupon 1 ⟨2⟩
    (fun e he _ => (hevents e he).1) sampleOracle rfl (by decide) 5000000 (by decide)
    (by decide)).2 (fun e he _ => (hevents e he).2)

/-- The only coupon so far is paid under period index five. -/
def sampleSkip : List ProtocolInput :=
  sampleIssue ++ [.coupon sampleOracle (.distributeCoupon ⟨1⟩ 1 5 [⟨2⟩] 1 1)]

/-- Credits paid under a skipped period index are in the balance, and none of them can be
consumed. -/
theorem skipped_period_unspendable :
    (protocolRun sampleDeployment sampleSkip).engine.escrowedCredits 1 ⟨2⟩ = 5000000 ∧
      ((protocolRun sampleDeployment sampleSkip).engine.bond 1).migrationWindow = none ∧
      ¬ ConsumesExactly (protocolRun sampleDeployment sampleSkip).engine sampleOracle 1 ⟨2⟩ 1 := by
  refine ⟨by decide, by decide, ?_⟩
  rintro ⟨s', hok, -⟩
  have hfails : ((protocolRun sampleDeployment sampleSkip).engine.consumeCredits sampleOracle ⟨2⟩ 1
      1).toOption.isSome = false := by decide
  rw [hok] at hfails
  cases hfails

end VerdantBond
