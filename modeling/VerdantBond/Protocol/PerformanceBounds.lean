import VerdantBond.Protocol.System

set_option autoImplicit false

/-! # Performance bounds over the whole history of a bond

A coupon is paid only if its report changed by at most +100% or -90% against the last accepted
record. The bounds are checked in whole basis points, cut off by the division
(`validatePerformanceUpdate`), on every batch; a record is accepted when a batch completes its
period, in the call that checked it. So in every run the accepted records satisfy the bounds up to
one basis point (`Admitted`), and the exact bounds fail at a record exactly when the division cut
off the excess (`TruncatedChange`).
-/

namespace VerdantBond

open Machine CouponBond

/-! ## One change -/

/-- What the check lets pass: less than 10001 basis points up, less than 9001 down. -/
def Admitted (p q : Int) : Prop :=
  0 < p → 10000 * (q - p) < 10001 * p ∧ 10000 * (p - q) < 9001 * p

/-- The documented bounds: at most +100% and at most -90%. -/
def WithinDocumentedBounds (p q : Int) : Prop := 0 < p → q ≤ 2 * p ∧ p ≤ 10 * q

/-- The change passes the limit by less than one basis point, which the division cuts off. -/
def TruncatedChange (p q : Int) : Prop :=
  0 < p ∧ (2 * p < q ∧ 10000 * (q - p) < 10001 * p ∨ 10 * q < p ∧ 10000 * (p - q) < 9001 * p)

theorem Admitted.bounds_iff {p q : Int} (h : Admitted p q) :
    WithinDocumentedBounds p q ↔ ¬ TruncatedChange p q := by
  unfold Admitted at h
  unfold WithinDocumentedBounds TruncatedChange
  by_cases hp : 0 < p
  · obtain ⟨h1, h2⟩ := h hp
    simp only [hp, true_imp_iff, true_and, h1, h2, and_true]
    omega
  · simp [hp]

theorem changeBps_ok {delta previous bps : Int} (hdelta : 0 ≤ delta) (hp : 0 < previous)
    (h : changeBps delta previous = .ok bps) {limit : Int} (hle : bps ≤ limit) :
    10000 * delta < (limit + 1) * previous := by
  simp only [changeBps, bind_ok_iff, okOr_ok_iff, i128_eq_some, checkedDiv_eq_some] at h
  obtain ⟨_, ⟨-, rfl⟩, -, -, hdiv⟩ := h
  rw [Int.tdiv_eq_ediv_of_nonneg (by omega)] at hdiv
  have hlt : delta * 10000 / previous < limit + 1 := by omega
  rw [Int.ediv_lt_iff_lt_mul hp] at hlt
  omega

variable {clock : Clock} {b b' : CouponBond} {s : CouponEngine} {issuer : BondIssuer}
  {batch : CouponBatch} {report : Report} {creditType : CreditType}
  {calculation : CouponCalculation} {result : CouponResult} {env : Env}

/-- A report that raises no flag changed by an admitted amount. -/
theorem CouponBond.validatePerformanceUpdate_admitted {reportId : Nat} {q : Int}
    (h : b.validatePerformanceUpdate clock reportId q = .ok none) :
    ∀ p ∈ b.performanceHistory.getLast?.map PerformanceRecord.carbonSequestered, Admitted p q := by
  intro p hp
  unfold validatePerformanceUpdate at h
  cases hlast : b.performanceHistory.getLast? with
  | none => simp [hlast] at hp
  | some previous =>
      obtain rfl : previous.carbonSequestered = p := by simpa [hlast] using hp
      intro hpos
      simp only [hlast] at h
      rw [if_neg (not_le.mpr hpos)] at h
      by_cases hup : previous.carbonSequestered < q
      · rw [if_pos hup] at h
        simp only [bind_ok_iff, orTrap_ok_iff, i128_eq_some, pure_ok_iff, ite_eq_left_iff,
          reduceCtorEq, imp_false, not_not] at h
        obtain ⟨_, ⟨-, rfl⟩, bps, hbps, hle⟩ := h
        exact ⟨changeBps_ok (by omega) hpos hbps hle, by omega⟩
      rw [if_neg hup] at h
      by_cases hdown : q < previous.carbonSequestered
      · rw [if_pos hdown] at h
        simp only [bind_ok_iff, orTrap_ok_iff, i128_eq_some, pure_ok_iff, ite_eq_left_iff,
          reduceCtorEq, imp_false, not_not] at h
        obtain ⟨_, ⟨-, rfl⟩, bps, hbps, hle⟩ := h
        exact ⟨by omega, changeBps_ok (by omega) hpos hbps hle⟩
      · omega

/-! ## One event -/

/-- The observation an event accepts for the bond `id`: the record of the period it completes. -/
def acceptedIn (id : Nat) (e : ProtocolEvent) : Option Int :=
  if (e.post.engine.bond id).periodCount = (e.pre.engine.bond id).periodCount + 1 then
    (e.post.engine.bond id).performanceHistory.getLast?.map PerformanceRecord.carbonSequestered
  else none

/-- The accepted observations of a bond, in order. -/
def acceptedReports (id : Nat) (es : List ProtocolEvent) : List Int := es.filterMap (acceptedIn id)

/-- What a call does to the trailing records: nothing, or it completes a period and appends the
report it checked. -/
def RecordStep (b b' : CouponBond) : Prop :=
  (b'.periodCount = b.periodCount ∧ b'.performanceHistory = b.performanceHistory) ∨
    b'.periodCount = b.periodCount + 1 ∧ ∃ record : PerformanceRecord,
      b'.performanceHistory = appendPerformanceRecord b.performanceHistory record ∧
      ∀ p ∈ b.performanceHistory.getLast?.map PerformanceRecord.carbonSequestered,
        Admitted p record.carbonSequestered

theorem getLast?_appendPerformanceRecord (history : List PerformanceRecord)
    (record : PerformanceRecord) :
    (appendPerformanceRecord history record).getLast? = some record := by
  rw [appendPerformanceRecord, List.getLast?_drop]
  simp [trailingHistoryPeriods]

theorem CouponEngine.prepareBatch_history {staleness : StalenessState}
    (h : s.prepareBatch issuer b batch staleness report = .ok (b', creditType, calculation)) :
    b'.performanceHistory = b.performanceHistory := by
  obtain ⟨-, -, _, _, _, b₂, _, _, -, -, hterms, hpin⟩ := prepareBatch_ok h
  have hpinned : b'.performanceHistory = b₂.performanceHistory := by
    rcases pinCalculation_ok hpin with ⟨-, rfl⟩ | ⟨-, -, -, -, -, rfl⟩ <;> rfl
  rw [hpinned]
  rcases applyTerms_ok hterms with
    ⟨-, rfl, -⟩ | ⟨_, -, rfl, -⟩ | ⟨_, -, -, -, rfl, -⟩ <;> rfl

theorem CouponBond.payBatch_history
    (h : b.payBatch issuer batch creditType report calculation = .ok (b', result)) :
    (b'.periodCount = b.periodCount ∧ b'.performanceHistory = b.performanceHistory) ∨
      b'.periodCount = b.periodCount + 1 ∧ b'.performanceHistory = appendPerformanceRecord
        b.performanceHistory ⟨batch.periodIndex, batch.reportId, report.carbonSequestered⟩ := by
  simp only [payBatch, bind_ok_iff, okOr_ok_iff, reject_ok_iff, pure_ok_iff, exists_unit_iff,
    Prod.mk.injEq] at h
  obtain ⟨_, -, -, _, -, -, _, -, -, -, _, -, _, -, _, -, b₁, hclose, rfl, -⟩ := h
  unfold closeBatch at hclose
  by_cases hc : batch.Complete
  · rw [if_pos hc] at hclose
    simp only [completePeriod, bind_ok_iff, orTrap_ok_iff, u32_eq_some, pure_ok_iff] at hclose
    obtain ⟨_, -, _, ⟨-, rfl⟩, rfl⟩ := hclose
    exact .inr ⟨rfl, rfl⟩
  · rw [if_neg hc, Except.ok.injEq] at hclose
    subst hclose
    exact .inl ⟨rfl, rfl⟩

theorem CouponEngine.distribute_recordStep
    (h : s.distribute env clock issuer batch = .ok (b', result)) :
    RecordStep (s.bond batch.bondId) b' := by
  simp only [distribute, bind_ok_iff, exists_unit_iff, Prod.exists] at h
  obtain ⟨-, staleness, report, -, flagged, hflagged, h⟩ := h
  cases flagged with
  | some flag =>
      simp only [pure_ok_iff, Prod.mk.injEq] at h
      rw [← h.1]
      exact .inl ⟨rfl, rfl⟩
  | none =>
      simp only [bind_ok_iff, Prod.exists] at h
      obtain ⟨b₁, creditType, calculation, hprepare, hpay⟩ := h
      have hadmitted := validatePerformanceUpdate_admitted hflagged
      rw [← prepareBatch_history hprepare] at hadmitted
      rw [RecordStep, ← prepareBatch_history hprepare, ← (prepareBatch_same hprepare).periodCount]
      exact (payBatch_history hpay).imp_right fun hdone =>
        ⟨hdone.1, _, hdone.2, hadmitted⟩

/-- Only a distribution touches the trailing records. -/
theorem CouponWrite.recordStep {id : Nat} {call : CouponCall} {reply : CouponReply}
    (h : CouponWrite env clock issuer s id call reply b b') : RecordStep b b' := by
  cases h with
  | distribute hcall hid h =>
      subst hid
      exact CouponEngine.distribute_recordStep h
  | register => exact .inl ⟨rfl, rfl⟩
  | trueUp h =>
      rw [addTrueUp_ok h]
      exact .inl ⟨rfl, rfl⟩
  | settle h =>
      obtain ⟨_, _, -, rfl⟩ := settleWaterfall_ok h
      exact .inl ⟨rfl, rfl⟩
  | claimWaterfall h =>
      obtain ⟨-, _, _, rfl⟩ := claimWaterfall_record h
      exact .inl ⟨rfl, rfl⟩
  | confirm h | revert h =>
      obtain ⟨_, -, rfl⟩ := debit_ok h
      exact .inl ⟨rfl, rfl⟩
  | claim h =>
      obtain ⟨-, rfl⟩ := claim_ok h
      exact .inl ⟨rfl, rfl⟩
  | consume h =>
      obtain ⟨-, _, -, rfl⟩ := consume_ok h
      exact .inl ⟨rfl, rfl⟩
  | sweep => exact .inl ⟨rfl, rfl⟩
  | clearFlag h =>
      rw [clearFlag_ok h]
      exact .inl ⟨rfl, rfl⟩
  | beginMigration h =>
      rw [(beginMigration_ok h).2.2]
      exact .inl ⟨rfl, rfl⟩
  | finalizeMigration h =>
      rw [finalizeMigration_ok h]
      exact .inl ⟨rfl, rfl⟩
  | rollbackMigration h =>
      rw [rollbackMigration_ok h]
      exact .inl ⟨rfl, rfl⟩
  | configure h =>
      rw [configureCovenant_ok h]
      exact .inl ⟨rfl, rfl⟩

/-! ## Runs -/

/-- The accepted observations form a chain of admitted changes, and the engine still knows the
last of them. -/
structure History (id : Nat) (es : List ProtocolEvent) (w : ProtocolWorld) : Prop where
  chain : (acceptedReports id es).IsChain Admitted
  last : (w.engine.bond id).performanceHistory.getLast?.map PerformanceRecord.carbonSequestered =
    (acceptedReports id es).getLast?

theorem protocolRun_history (d : Deployment) (l : List ProtocolInput) (id : Nat) :
    History id (protocolHistory d l) (protocolRun d l) := by
  refine protocolHistory_induct d (P := History id) ⟨List.IsChain.nil, rfl⟩ ?_ l
  intro l i ih
  set w := protocolRun d l
  have hsnoc : acceptedReports id (protocolHistory d l ++ [protocolMachine.event w i]) =
      acceptedReports id (protocolHistory d l) ++
        (acceptedIn id (protocolMachine.event w i)).toList := by
    rw [acceptedReports, List.filterMap_append]
    congr 1
  have hstep : RecordStep (w.engine.bond id) ((w.step i).1.engine.bond id) := by
    rcases w.event_write i id with ⟨-, hsame⟩ | ⟨_, _, _, -, hwrite⟩
    · rw [hsame]
      exact .inl ⟨rfl, rfl⟩
    · exact hwrite.recordStep
  have hin : acceptedIn id (protocolMachine.event w i) =
      if ((w.step i).1.engine.bond id).periodCount = (w.engine.bond id).periodCount + 1 then
        ((w.step i).1.engine.bond id).performanceHistory.getLast?.map
          PerformanceRecord.carbonSequestered
      else none := rfl
  show History id _ (w.step i).1
  rcases hstep with ⟨hcount, hsame⟩ | ⟨hcount, record, hrecord, hadmitted⟩
  · have hnone : acceptedIn id (protocolMachine.event w i) = none := by
      rw [hin, if_neg (by omega)]
    rw [hnone, Option.toList_none, List.append_nil] at hsnoc
    exact ⟨hsnoc ▸ ih.chain, by rw [hsnoc, hsame, ih.last]⟩
  · have hsome : acceptedIn id (protocolMachine.event w i) = some record.carbonSequestered := by
      rw [hin, if_pos hcount, hrecord, getLast?_appendPerformanceRecord, Option.map_some]
    rw [hsome, Option.toList_some] at hsnoc
    refine ⟨?_, ?_⟩
    · rw [hsnoc, List.isChain_append]
      refine ⟨ih.chain, List.isChain_singleton _, ?_⟩
      intro p hp q hq
      obtain rfl : record.carbonSequestered = q := by simpa using hq
      exact hadmitted p (ih.last ▸ hp)
    · rw [hsnoc, hrecord, getLast?_appendPerformanceRecord]
      simp

/-- **Performance bounds over the whole history.** In every run the accepted observations of a bond
keep the documented bounds exactly when no change was cut off by the division. -/
theorem performance_bounds_iff (d : Deployment) (l : List ProtocolInput) (id : Nat) :
    (acceptedReports id (protocolHistory d l)).IsChain WithinDocumentedBounds ↔
      (acceptedReports id (protocolHistory d l)).IsChain (fun p q => ¬ TruncatedChange p q) := by
  have hchain := (protocolRun_history d l id).chain
  rw [List.isChain_iff_forall_rel_of_append_cons_cons] at hchain
  simp only [List.isChain_iff_forall_rel_of_append_cons_cons]
  constructor
  · intro h p q before after hsplit
    exact (hchain hsplit).bounds_iff.mp (h hsplit)
  · intro h p q before after hsplit
    exact (hchain hsplit).bounds_iff.mpr (h hsplit)

/-- An oracle whose second report is one unit above twice the first. -/
def doublingOracle : Env :=
  { sampleOracle with
    getReport := fun id =>
      some ⟨id, ⟨7⟩, 10, 20, if id = 1 then 10001 else 20003, .absent, "verra_vcs", .verified⟩ }

/-- Two coupons on its reports are both paid: the second change is 10000.99 basis points. -/
theorem accepted_above_twice :
    acceptedReports 1 (protocolHistory sampleDeployment (sampleIssue ++
      [.coupon doublingOracle (.distributeCoupon ⟨1⟩ 1 0 [⟨2⟩] 1 1),
        .coupon doublingOracle (.distributeCoupon ⟨1⟩ 1 1 [⟨2⟩] 2 2)])) = [10001, 20003] ∧
      ¬ WithinDocumentedBounds 10001 20003 := by
  constructor
  · rfl
  · unfold WithinDocumentedBounds
    omega

end VerdantBond
