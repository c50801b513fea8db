import VerdantBond.Coupon.AccountLaws
import VerdantBond.Protocol.System
import VerdantBond.Retirement.Certificates

set_option autoImplicit false

/-! # What retirement certificates attest

A retirement record names a credit type and a certificate, both as the holder states them. The
engine decides on its own which credits a retirement takes: oldest period first, carbon before
biodiversity. So a record says more of a type than was retired, unless the credits that come first
are of the type it names; and two records carry one certificate, unless every retirement comes with
a fresh one.
-/

namespace VerdantBond

open Function Relation Machine CreditRetirement List

/-! ## One input -/

variable {env : Env} {bondId id : Nat} {amount : Int} {w : ProtocolWorld} {holder : Address}
  {es : List ProtocolEvent}

/-- A consumption changes one account. -/
theorem CouponEngine.consumeCredits_account {s s' : CouponEngine} {owner : Address}
    (h : s.consumeCredits env owner bondId amount = .ok s') :
    0 < amount ∧
      ((s.bond bondId).account owner).consume (s.bond bondId).periodCount amount
        = .ok ((s'.bond bondId).account owner) ∧
      ∀ id holder, ¬ (id = bondId ∧ holder = owner) →
        (s'.bond id).account holder = (s.bond id).account holder := by
  simp only [consumeCredits, bind_ok_iff, pure_ok_iff, exists_unit_iff] at h
  obtain ⟨-, b, hb, rfl⟩ := h
  obtain ⟨hpos, a, ha, rfl⟩ := CouponBond.consume_ok hb
  refine ⟨hpos, ?_, fun id holder hother => ?_⟩
  · rw [setBond_bond_same]
    show _ = Except.ok (update (s.bond bondId).account owner a owner)
    rw [update_self]
    exact ha
  · by_cases hid : id = bondId
    · subst hid
      have hne : holder ≠ owner := fun hthis => hother ⟨rfl, hthis⟩
      rw [setBond_bond_same]
      exact update_of_ne hne ..
    · rw [setBond_bond_other _ _ hid]

/-- The input is a retirement. -/
def ProtocolInput.retires : ProtocolInput → Bool
  | .retirement _ (.retireCredits ..) => true
  | _ => false

/-- **What an input does to the records**: nothing, with every account as it was if it is a
retirement, or it is a retirement that consumed what it recorded. -/
theorem ProtocolWorld.step_records (w : ProtocolWorld) (i : ProtocolInput) :
    ((w.step i).1.retirement.retirementCount = w.retirement.retirementCount ∧
        (w.step i).1.retirement.retirement = w.retirement.retirement ∧
        (i.retires = true → (w.step i).2.isSome = false ∧ (w.step i).1 = w)) ∨
      ∃ env holder bondId amount creditType certificateHash nonce,
        i = .retirement env (.retireCredits holder bondId amount creditType certificateHash nonce) ∧
        (w.step i).2.isSome = true ∧
        w.retirement.Appends (w.step i).1.retirement ⟨w.retirement.retirementCount + 1, holder,
          bondId, amount, creditType, w.base.clock.timestamp, certificateHash⟩ ∧
        w.engine.consumeCredits env holder bondId amount = .ok (w.step i).1.engine := by
  cases i with
  | issuer input => exact .inl ⟨rfl, rfl, fun h => by cases h⟩
  | coupon env call =>
      refine .inl ?_
      have hsame : (w.step (.coupon env call)).1.retirement = w.retirement := by
        simp only [step]
        split <;> rfl
      rw [hsame]
      exact ⟨rfl, rfl, fun h => by cases h⟩
  | retirement env call =>
      cases h : w.retirement.exec env w.base.clock w.base.issuer w.engine call with
      | error e =>
          have hstep : w.step (.retirement env call) = (w, none) := by simp only [step, h]
          rw [hstep]
          exact .inl ⟨rfl, rfl, fun _ => ⟨rfl, rfl⟩⟩
      | ok r =>
          obtain ⟨engine, retirement, reply⟩ := r
          simp only [step, h]
          cases call with
          | setAdmin currentAdmin newAdmin nonce =>
              rcases exec_records h with ⟨-, hcount, hsame⟩ | ⟨r, hr, -⟩
              · exact .inl ⟨hcount, hsame, fun h => by cases h⟩
              · cases hr
          | retireCredits holder bondId amount creditType certificateHash nonce =>
              rcases exec_records h with ⟨hnone, -⟩ | ⟨r, hr, happends⟩
              · cases hnone
              · cases hr
                exact .inr ⟨env, holder, bondId, amount, creditType, certificateHash, nonce, rfl, rfl,
                  happends, (exec_retireCredits_ok h).1⟩

/-! ## Credit types -/

/-- What the records of a holder say was retired of a bond and a type. -/
def CreditRetirement.recordedCredits (s : CreditRetirement) (id : Nat) (holder : Address)
    (t : CreditType) : Int :=
  ((s.records.filter fun r => r.bondId = id ∧ r.holder = holder ∧ r.creditType = t).map
    RetirementRecord.amount).sum

/-- What a retirement takes from a typed balance. -/
def retirementDebit (id : Nat) (holder : Address) (t : CreditType) (e : ProtocolEvent) : Int :=
  if e.input.retires = true then
    (e.pre.account id holder).escrowedCreditsByType t
      - (e.post.account id holder).escrowedCreditsByType t
  else 0

/-- What the retirements of a run took from a typed balance. -/
def retirementDebits (id : Nat) (holder : Address) (t : CreditType) (es : List ProtocolEvent) : Int :=
  (es.map (retirementDebit id holder t)).sum

/-- A retirement that records nothing has failed. -/
theorem ProtocolWorld.fails_of_silent {i : ProtocolInput}
    (hretires : i.retires = true → (w.step i).2.isSome = false ∧ (w.step i).1 = w)
    {creditType : CreditType} {certificateHash : Bytes32} {nonce : Nat} (hi : i = .retirement env
      (.retireCredits holder bondId amount creditType certificateHash nonce)) :
    ¬ (w.step i).2.isSome = true := by
  have hret : i.retires = true := by
    rw [hi]
    rfl
  rw [(hretires hret).1]
  decide

/-- A retirement of the holder that succeeds is of the type that comes first: the credits the loops
reach first, up to the amount, are all of the type it names. -/
def RetiresTypeInFront (id : Nat) (holder : Address) (e : ProtocolEvent) : Prop :=
  ∀ env amount creditType certificateHash nonce,
    e.input = .retirement env (.retireCredits holder id amount creditType certificateHash nonce) →
    e.output.isSome = true → ∀ t, t ≠ creditType →
      (e.pre.account id holder).Spared (Account.entries (e.pre.engine.bond id).periodCount) amount t

/-- The sum over the credit types. -/
def typeTotal (f : CreditType → Int) : Int :=
  f .carbon + f .biodiversity + f .basket + f .blueCarbon

theorem CreditRetirement.Appends.recordedCredits {s s' : CreditRetirement} {r : RetirementRecord}
    (h : s.Appends s' r) (id : Nat) (holder : Address) (t : CreditType) :
    s'.recordedCredits id holder t = s.recordedCredits id holder t
      + if r.bondId = id ∧ r.holder = holder ∧ r.creditType = t then r.amount else 0 := by
  unfold CreditRetirement.recordedCredits
  rw [h.records, filter_append, map_append, sum_append]
  congr 1
  by_cases hr : r.bondId = id ∧ r.holder = holder ∧ r.creditType = t
  · rw [filter_cons_of_pos (by simpa using hr), if_pos hr]
    exact sum_singleton
  · rw [filter_cons_of_neg (by simpa using hr), if_neg hr]
    rfl

theorem retirementDebits_snoc (id : Nat) (holder : Address) (t : CreditType)
    (es : List ProtocolEvent) (e : ProtocolEvent) :
    retirementDebits id holder t (es ++ [e])
      = retirementDebits id holder t es + retirementDebit id holder t e := by
  unfold retirementDebits
  rw [map_append, sum_append, map_singleton, sum_singleton]

/-- A consumption takes its amount from the typed balances, and from one of them only what comes
first of its type. -/
theorem Account.consume_debits {a a' : Account} {periodCount : Nat} (hpos : 0 < amount)
    (h : a.consume periodCount amount = .ok a') :
    (∀ t, 0 ≤ a.escrowedCreditsByType t - a'.escrowedCreditsByType t) ∧
      typeTotal (fun t => a.escrowedCreditsByType t - a'.escrowedCreditsByType t) = amount ∧
      ∀ t, a.escrowedCreditsByType t - a'.escrowedCreditsByType t = 0 ↔
        a.Spared (entries periodCount) amount t := by
  obtain ⟨-, hd⟩ := consume_drained hpos h
  have hunpaid : ∀ {t}, t ∉ paidTypes → a'.escrowedCreditsByType t = a.escrowedCreditsByType t :=
    fun ht => (consume_byType_eq_iff hpos h _).mpr (a.spared_of_unpaid periodCount amount ht)
  refine ⟨fun t => ?_, ?_, fun t => ?_⟩
  · have hle : a'.escrowedCreditsByType t ≤ a.escrowedCreditsByType t := hd.byType_le t
    omega
  · have htotal : a'.typedTotal = a.typedTotal - (amount - 0) := hd.typedTotal
    have hbasket := hunpaid (t := .basket) (by decide)
    have hblue := hunpaid (t := .blueCarbon) (by decide)
    simp only [Account.typedTotal] at htotal
    simp only [typeTotal]
    omega
  · rw [← consume_byType_eq_iff hpos h, sub_eq_zero, eq_comm]

/-- What an input records of a holder's bond and what it takes. -/
inductive RetirementOf (id : Nat) (holder : Address) (e : ProtocolEvent) : Prop where
  | none
      (records : ∀ t, e.post.retirement.recordedCredits id holder t
        = e.pre.retirement.recordedCredits id holder t)
      (debits : ∀ t, retirementDebit id holder t e = 0)
      (inFront : RetiresTypeInFront id holder e)
  | some {amount : Int} {creditType : CreditType} (positive : 0 < amount)
      (records : ∀ t, e.post.retirement.recordedCredits id holder t
        = e.pre.retirement.recordedCredits id holder t + if creditType = t then amount else 0)
      (nonneg : ∀ t, 0 ≤ retirementDebit id holder t e)
      (total : typeTotal (fun t => retirementDebit id holder t e) = amount)
      (inFront : RetiresTypeInFront id holder e ↔
        ∀ t, t ≠ creditType → retirementDebit id holder t e = 0)

theorem ProtocolWorld.step_retirementOf (w : ProtocolWorld) (i : ProtocolInput) (id : Nat)
    (holder : Address) : RetirementOf id holder (protocolMachine.event w i) := by
  rcases w.step_records i with ⟨hcount, hsame, hretires⟩ |
      ⟨env, owner, bondId, amount, creditType, certificateHash, nonce, rfl, hout, happends, hconsume⟩
  · refine .none (fun t => ?_) (fun t => ?_) ?_
    · have hrecords : (w.step i).1.retirement.records = w.retirement.records :=
        records_congr hcount hsame
      show (w.step i).1.retirement.recordedCredits id holder t = _
      unfold recordedCredits
      rw [hrecords]
      rfl
    · unfold retirementDebit
      split
      · next hret =>
          have hpost : (protocolMachine.event w i).post = w := (hretires hret).2
          rw [hpost]
          exact sub_self _
      · rfl
    · intro env amount creditType certificateHash nonce hi hsome
      exact absurd hsome (ProtocolWorld.fails_of_silent hretires hi)
  · obtain ⟨hpos, hthis, hothers⟩ := CouponEngine.consumeCredits_account hconsume
    have hrecords := happends.recordedCredits id holder
    by_cases howner : bondId = id ∧ owner = holder
    · obtain ⟨rfl, rfl⟩ := howner
      obtain ⟨hnonneg, htotal, hspared⟩ := Account.consume_debits hpos hthis
      refine @RetirementOf.some bondId owner _ amount creditType hpos (fun t => ?_) hnonneg htotal ?_
      · refine (hrecords t).trans ?_
        simp only [true_and]
        rfl
      · constructor
        · intro hfront t ht
          exact (hspared t).mpr (hfront env amount creditType certificateHash nonce rfl hout t ht)
        · intro hzero env' amount' creditType' certificateHash' nonce' hi _ t ht
          cases hi
          exact (hspared t).mp (hzero t ht)
    · have haccount : ((protocolMachine.event w _).post).account id holder = w.account id holder :=
        hothers id holder (fun h => howner ⟨h.1.symm, h.2.symm⟩)
      refine .none (fun t => ?_) (fun t => ?_) ?_
      · refine (hrecords t).trans ?_
        rw [if_neg (fun h => howner ⟨h.1, h.2.1⟩), add_zero]
        rfl
      · have hretires : (protocolMachine.event w (.retirement env (.retireCredits owner bondId amount
            creditType certificateHash nonce))).input.retires = true := rfl
        rw [retirementDebit, if_pos hretires, haccount]
        exact sub_self _
      · intro env' amount' creditType' certificateHash' nonce' hi
        cases hi
        exact absurd ⟨rfl, rfl⟩ howner

/-- Every retirement records what it takes, of whatever types. -/
theorem recordedCredits_total (d : Deployment) (l : List ProtocolInput) (id : Nat)
    (holder : Address) :
    typeTotal ((protocolRun d l).retirement.recordedCredits id holder)
      = typeTotal fun t => retirementDebits id holder t (protocolHistory d l) := by
  refine protocolHistory_induct (P := fun es w =>
    typeTotal (w.retirement.recordedCredits id holder)
      = typeTotal fun t => retirementDebits id holder t es) d rfl ?_ l
  intro l i ih
  simp only [retirementDebits_snoc]
  cases (protocolRun d l).step_retirementOf i id holder with
  | none hrecords hdebits =>
      simp only [typeTotal, hrecords, hdebits, add_zero]
      exact ih
  | @some amount creditType _ hrecords _ htotal =>
      have hpre : typeTotal ((protocolMachine.event (protocolRun d l) i).pre.retirement.recordedCredits
          id holder) = typeTotal fun t => retirementDebits id holder t (protocolHistory d l) := ih
      simp only [typeTotal] at hpre htotal ⊢
      rw [hrecords, hrecords, hrecords, hrecords]
      cases creditType <;> simp only [reduceCtorEq, if_true, if_false] <;> omega

/-- The certificates of a holder's bond state at most what was retired, of every type. -/
def StatesRetired (id : Nat) (holder : Address) (es : List ProtocolEvent) (w : ProtocolWorld) :
    Prop :=
  ∀ t, w.retirement.recordedCredits id holder t ≤ retirementDebits id holder t es

/-- Nothing is overstated only where everything is stated exactly: the totals agree. -/
theorem StatesRetired.eq (h : StatesRetired id holder es w)
    (htotal : typeTotal (w.retirement.recordedCredits id holder)
      = typeTotal fun t => retirementDebits id holder t es) (t : CreditType) :
    w.retirement.recordedCredits id holder t = retirementDebits id holder t es := by
  have hcarbon := h .carbon
  have hbiodiversity := h .biodiversity
  have hbasket := h .basket
  have hblue := h .blueCarbon
  simp only [typeTotal] at htotal
  cases t <;> omega

/-- Amounts that add up to `amount` cover it under one type exactly when no other type has any. -/
theorem le_single_iff {f : CreditType → Int} {c : CreditType} (hnonneg : ∀ t, 0 ≤ f t)
    (htotal : typeTotal f = amount) :
    (∀ t, (if c = t then amount else 0) ≤ f t) ↔ ∀ t, t ≠ c → f t = 0 := by
  have hcarbon := hnonneg .carbon
  have hbiodiversity := hnonneg .biodiversity
  have hbasket := hnonneg .basket
  have hblue := hnonneg .blueCarbon
  rw [typeTotal] at htotal
  constructor
  · intro h t ht
    have hnamed := h c
    rw [if_pos rfl] at hnamed
    cases c <;> cases t <;> first | exact absurd rfl ht | omega
  · intro hzero t
    by_cases ht : c = t
    · subst ht
      rw [if_pos rfl, ← htotal]
      cases c <;> simp only [hzero, ne_eq, reduceCtorEq, not_false_eq_true, add_zero, zero_add, le_refl]
    · rw [if_neg ht]
      exact hnonneg t

/-- A step keeps the certificates honest exactly when it retires what is in front. -/
theorem StatesRetired.step_iff (h : StatesRetired id holder es w)
    (htotal : typeTotal (w.retirement.recordedCredits id holder)
      = typeTotal fun t => retirementDebits id holder t es) (i : ProtocolInput) :
    StatesRetired id holder (es ++ [protocolMachine.event w i]) (w.step i).1 ↔
      RetiresTypeInFront id holder (protocolMachine.event w i) := by
  have heq := h.eq htotal
  unfold StatesRetired
  simp only [retirementDebits_snoc]
  cases w.step_retirementOf i id holder with
  | none hrecords hdebits hfront =>
      refine iff_of_true (fun t => ?_) hfront
      rw [hdebits, add_zero]
      exact (hrecords t).trans_le (h t)
  | @some amount creditType hpos hrecords hnonneg hamount hfront =>
      rw [hfront, ← le_single_iff hnonneg hamount]
      refine forall_congr' fun t => ?_
      rw [show (w.step i).1.retirement.recordedCredits id holder t = _ from hrecords t, ← heq t]
      exact add_le_add_iff_left _

/-- **Certificates overstate no credit type exactly in the runs whose retirements name the type that
comes first.** -/
theorem certificates_state_retired_iff (d : Deployment) (l : List ProtocolInput) (id : Nat)
    (holder : Address) :
    (∀ l₁, l₁ <+: l → ∀ t, (protocolRun d l₁).retirement.recordedCredits id holder t
        ≤ retirementDebits id holder t (protocolHistory d l₁)) ↔
      ∀ e ∈ protocolHistory d l, RetiresTypeInFront id holder e :=
  protocolMachine.always_history_iff (P := StatesRetired id holder) (s := ProtocolWorld.deploy d)
    (fun _ => le_refl _) (fun l i h => h.step_iff (recordedCredits_total d l id holder) i) l

/-- The first coupon, five credits of carbon, is retired as biodiversity. -/
def sampleMislabelled : List ProtocolInput :=
  sampleCoupon ++ [.retirement sampleOracle (.retireCredits ⟨2⟩ 1 5000000 .biodiversity ⟨9⟩ 0)]

/-- The certificate states five credits of biodiversity, and all that was taken was carbon. -/
theorem carbon_retired_as_biodiversity :
    (protocolRun sampleDeployment sampleMislabelled).retirement.recordedCredits 1 ⟨2⟩ .biodiversity
        = 5000000 ∧
      retirementDebits 1 ⟨2⟩ .biodiversity (protocolHistory sampleDeployment sampleMislabelled) = 0 ∧
      retirementDebits 1 ⟨2⟩ .carbon (protocolHistory sampleDeployment sampleMislabelled)
        = 5000000 := by
  decide

/-! ## Certificates -/

/-- A retirement that succeeds comes with a certificate that no stored record carries. -/
def RetiresFresh (e : ProtocolEvent) : Prop :=
  ∀ env holder bondId amount creditType certificateHash nonce,
    e.input = .retirement env
      (.retireCredits holder bondId amount creditType certificateHash nonce) →
    e.output.isSome = true → e.pre.retirement.Fresh certificateHash

theorem protocolRun_numbered (d : Deployment) (l : List ProtocolInput) :
    (protocolRun d l).retirement.Numbered := by
  refine protocolMachine.run_invariant (P := fun w => w.retirement.Numbered)
    (numbered_deploy _) (fun w i hw => ?_) l
  rcases w.step_records i with ⟨hcount, hsame, -⟩ | ⟨_, _, _, _, _, _, _, -, -, happends, -⟩
  · intro id
    show ((w.step i).1.retirement.retirement id).isSome = true
      ↔ 1 ≤ id ∧ id ≤ (w.step i).1.retirement.retirementCount
    rw [hcount, hsame]
    exact hw id
  · exact hw.appends happends

/-- A step keeps the certificates unique exactly when it retires with a fresh one. -/
theorem ProtocolWorld.certificatesUnique_step_iff (hw : w.retirement.Numbered)
    (hunique : w.retirement.CertificatesUnique) (i : ProtocolInput) :
    (w.step i).1.retirement.CertificatesUnique ↔ RetiresFresh (protocolMachine.event w i) := by
  rcases w.step_records i with ⟨-, hsame, hretires⟩ |
      ⟨env, holder, bondId, amount, creditType, certificateHash, nonce, rfl, hout, happends, -⟩
  · refine iff_of_true ?_ ?_
    · unfold CreditRetirement.CertificatesUnique
      rw [hsame]
      exact hunique
    · intro env holder bondId amount creditType certificateHash nonce hi hsome
      exact absurd hsome (ProtocolWorld.fails_of_silent hretires hi)
  · refine (certificatesUnique_appends hw hunique happends).trans ?_
    constructor
    · intro hfresh env' holder' bondId' amount' creditType' certificateHash' nonce' hi _
      cases hi
      exact hfresh
    · intro hfresh
      exact hfresh env holder bondId amount creditType certificateHash nonce rfl hout

/-- **A certificate backs at most one retirement exactly in the runs whose retirements all come with
a fresh one.** -/
theorem certificate_used_once_iff (d : Deployment) (l : List ProtocolInput) :
    (∀ l₁, l₁ <+: l → (protocolRun d l₁).retirement.CertificatesUnique) ↔
      ∀ e ∈ protocolHistory d l, RetiresFresh e := by
  refine protocolMachine.always_iff (P := fun w => w.retirement.CertificatesUnique)
    (s := ProtocolWorld.deploy d) ?_ (fun l i hunique => ?_) l
  · intro i j ri rj hi
    cases hi
  · exact ProtocolWorld.certificatesUnique_step_iff (protocolRun_numbered d l) hunique i

/-- Two credits are retired, one at a time, with one certificate. -/
def sampleReused : List ProtocolInput :=
  sampleCoupon ++ [.retirement sampleOracle (.retireCredits ⟨2⟩ 1 1000000 .carbon ⟨9⟩ 0),
    .retirement sampleOracle (.retireCredits ⟨2⟩ 1 1000000 .carbon ⟨9⟩ 1)]

/-- Both records carry the certificate. -/
theorem certificate_used_twice :
    ((protocolRun sampleDeployment sampleReused).retirement.retirement 1).map
        RetirementRecord.certificateIpfsHash = some ⟨9⟩ ∧
      ((protocolRun sampleDeployment sampleReused).retirement.retirement 2).map
        RetirementRecord.certificateIpfsHash = some ⟨9⟩ := by
  decide

/-! ## Totals -/

namespace CreditRetirement

/-- The totals and the lists of the contract are those of its records. -/
structure Books (s : CreditRetirement) : Prop where
  ids : s.records.map RetirementRecord.id = List.range' 1 s.retirementCount
  credits : ∀ holder, s.retiredCredits holder
    = ((s.records.filter fun r => r.holder = holder).map RetirementRecord.amount).sum
  listed : ∀ holder, s.holderRetirements holder
    = (s.records.filter fun r => r.holder = holder).map RetirementRecord.id
  perBond : ∀ id holder, s.retiredPerBond id holder = typeTotal (s.recordedCredits id holder)

variable {clock : Clock} {issuer : BondIssuer} {engine engine' : CouponEngine}
  {s s' : CreditRetirement} {call : RetirementCall} {reply : Option Nat}

theorem Books.exec (hs : s.Books)
    (h : s.exec env clock issuer engine call = .ok (engine', s', reply)) : s'.Books := by
  have hrecords := exec_records h
  simp only [CreditRetirement.exec, bind_ok_iff, hostRequire_ok_iff, exists_unit_iff] at h
  obtain ⟨-, h⟩ := h
  cases call with
  | setAdmin =>
      simp only [dispatch, setAdmin, consumeNonce, bind_ok_iff, pure_ok_iff, exists_unit_iff,
        Prod.mk.injEq] at h
      obtain ⟨_, ⟨-, _, ⟨-, _, -, rfl⟩, -, rfl⟩, -, rfl, -⟩ := h
      exact ⟨hs.ids, hs.credits, hs.listed, hs.perBond⟩
  | retireCredits owner bondId amount creditType =>
      simp only [dispatch, retireCredits, consumeNonce, bind_ok_iff, orTrap_ok_iff, okOr_ok_iff,
        i128_eq_some, u64_eq_some, pure_ok_iff, exists_unit_iff, Prod.mk.injEq, Prod.exists] at h
      obtain ⟨_, _, _, ⟨-, _, ⟨-, _, -, rfl⟩, -, -, -, -, _, -, _, ⟨-, rfl⟩, _, ⟨-, rfl⟩, _, ⟨-, rfl⟩,
        rfl, rfl, rfl⟩, rfl, rfl, rfl⟩ := h
      rcases hrecords with ⟨hnone, -⟩ | ⟨r, hr, happends⟩
      · cases hnone
      obtain rfl := Option.some.inj hr
      refine ⟨?_, fun holder => ?_, fun holder => ?_, fun id holder => ?_⟩
      · rw [happends.records, map_append, hs.ids, happends.count, range'_1_concat,
          add_comm 1]
        rfl
      · show update s.retiredCredits owner (s.retiredCredits owner + amount) holder = _
        rw [happends.records, filter_append, map_append, sum_append, ← hs.credits]
        by_cases howner : holder = owner
        · simp [howner]
        · simp [howner, Ne.symm howner]
      · show update s.holderRetirements owner (s.holderRetirements owner ++ [_]) holder = _
        rw [happends.records, filter_append, map_append, ← hs.listed]
        by_cases howner : holder = owner
        · simp [howner]
        · simp [howner, Ne.symm howner]
      · show update s.retiredPerBond bondId (update (s.retiredPerBond bondId) owner
          (s.retiredPerBond bondId owner + amount)) id holder = _
        have hold := hs.perBond id holder
        simp only [typeTotal, happends.recordedCredits] at hold ⊢
        by_cases hthis : bondId = id ∧ owner = holder
        · obtain ⟨rfl, rfl⟩ := hthis
          cases creditType <;> simp <;> omega
        · have hnot : ∀ t, ¬ (bondId = id ∧ owner = holder ∧ creditType = t) :=
            fun t h => hthis ⟨h.1, h.2.1⟩
          simp only [hnot, if_false, add_zero]
          refine Eq.trans ?_ hold
          by_cases hid : id = bondId
          · subst hid
            rw [update_self, update_of_ne fun h => hthis ⟨rfl, h.symm⟩]
          · rw [update_of_ne hid]

end CreditRetirement

/-- **The retirement contract's books.** After every run the records are numbered from one on, a
holder's total and list are those of the records, and what is kept as retired of a bond is what the
retirements took from the holder's balances in the engine. -/
theorem retirement_books (d : Deployment) (l : List ProtocolInput) :
    let s := (protocolRun d l).retirement
    s.records.map RetirementRecord.id = range' 1 s.retirementCount ∧ ∀ holder,
      s.retiredCredits holder
        = ((s.records.filter fun r => r.holder = holder).map RetirementRecord.amount).sum ∧
      s.holderRetirements holder
        = (s.records.filter fun r => r.holder = holder).map RetirementRecord.id ∧
      ∀ id, s.retiredPerBond id holder
        = typeTotal fun t => retirementDebits id holder t (protocolHistory d l) := by
  have hbooks : (protocolRun d l).retirement.Books := by
    refine protocolMachine.run_invariant (P := fun w => w.retirement.Books)
      ⟨rfl, fun _ => rfl, fun _ => rfl, fun _ _ => rfl⟩ (fun w i hw => ?_) l
    show (w.step i).1.retirement.Books
    cases i with
    | issuer => exact hw
    | coupon =>
        simp only [ProtocolWorld.step]
        split <;> exact hw
    | retirement =>
        simp only [ProtocolWorld.step]
        split
        · next h => exact hw.exec h
        · exact hw
  exact ⟨hbooks.ids, fun holder => ⟨hbooks.credits holder, hbooks.listed holder, fun id =>
    (hbooks.perBond id holder).trans (recordedCredits_total d l id holder)⟩⟩

end VerdantBond
