import VerdantBond.Protocol.Calculations

set_option autoImplicit false

/-! # Equivalence tables and the conversions pinned from them

Governance publishes tables one version after the other, and nothing ever rewrites one. A pinned
calculation records the version it was converted with, so its factor can be looked up for as long as
the engine lives: the table is still there, it names the methodology of the report once, and the
entry is the recorded factor.
-/

namespace VerdantBond

open Function Machine CouponEngine

/-! ## Tables -/

/-- What a table may be. -/
structure EquivalenceTable.WellFormed (table : EquivalenceTable) : Prop where
  nonempty : table.factors ≠ []
  distinct : (table.factors.map EquivalenceFactor.methodology).Nodup
  positive : ∀ factor ∈ table.factors, 0 < factor.numerator ∧ 0 < factor.denominator

namespace CouponEngine

/-- The tables are those of the versions from one to the current one. -/
structure TablesNumbered (s : CouponEngine) : Prop where
  versions : ∀ v, (s.equivalenceTable v).isSome = true ↔ 1 ≤ v ∧ v ≤ s.equivalenceVersion
  table : ∀ v table, s.equivalenceTable v = some table → table.version = v ∧ table.WellFormed

/-- A published table stays as it is. -/
def TablesKept (s s' : CouponEngine) : Prop :=
  ∀ v table, s.equivalenceTable v = some table → s'.equivalenceTable v = some table

variable {env : Env} {clock : Clock} {issuer : BondIssuer} {s s' : CouponEngine}

variable {caller : Address} {expectedVersion nonce : Nat} {factors : List EquivalenceFactor}
  {rationaleHash : Bytes32}

variable {version : Nat}

/-- The table a publication adds. -/
theorem publishEquivalence_table
    (h : s.publishEquivalence env clock caller expectedVersion factors rationaleHash nonce
      = .ok (s', version)) :
    expectedVersion = s.equivalenceVersion ∧ s'.equivalenceVersion = s.equivalenceVersion + 1 ∧
      ∃ table, table.version = s.equivalenceVersion + 1 ∧ table.WellFormed ∧
        s'.equivalenceTable = update s.equivalenceTable (s.equivalenceVersion + 1) (some table) := by
  simp only [publishEquivalence, bind_ok_iff, reject_ok_iff, okOr_ok_iff, u32_eq_some, pure_ok_iff,
    exists_unit_iff, not_not, not_or, Prod.mk.injEq] at h
  obtain ⟨-, governance, -, -, -, ⟨hcurrent, hne, -, -⟩, hbounds, hdistinct, _, ⟨-, rfl⟩, s₁, -, rfl,
    -⟩ := h
  exact ⟨hcurrent.symm, rfl, _, rfl,
    ⟨hne, hdistinct, fun factor hf => ⟨(hbounds factor hf).1, (hbounds factor hf).2.1⟩⟩, rfl⟩

/-- **Publications are append-only**, and keep the numbering. -/
theorem publishEquivalence_numbered (hs : s.TablesNumbered)
    (h : s.publishEquivalence env clock caller expectedVersion factors rationaleHash nonce
      = .ok (s', version)) : s'.TablesNumbered ∧ s.TablesKept s' := by
  obtain ⟨-, hversion, table, hnumber, hwell, htable⟩ := publishEquivalence_table h
  refine ⟨⟨fun v => ?_, fun v t ht => ?_⟩, fun v t ht => ?_⟩
  · rw [htable, hversion]
    by_cases hv : v = s.equivalenceVersion + 1
    · subst hv
      simp
    · rw [update_of_ne hv, hs.versions]
      omega
  · rw [htable] at ht
    by_cases hv : v = s.equivalenceVersion + 1
    · subst hv
      rw [update_self] at ht
      cases ht
      exact ⟨hnumber, hwell⟩
    · rw [update_of_ne hv] at ht
      exact hs.table v t ht
  · -- a published version is at most the current one
    have hle := (hs.versions v).mp (by rw [ht]; rfl)
    have hv : v ≠ s.equivalenceVersion + 1 := by omega
    rw [htable, update_of_ne hv]
    exact ht

end CouponEngine

variable {s s' : CouponEngine}

/-- **A call keeps the tables and their numbering.** -/
theorem EngineMove.numbered {env : Env} {clock : Clock} {issuer : BondIssuer} {call : CouponCall}
    {reply : CouponReply} (h : EngineMove env clock issuer s call reply s') (hs : s.TablesNumbered) :
    s'.TablesNumbered ∧ s.TablesKept s' := by
  -- all but a publication leave tables and version
  have hsame : ∀ {t : CouponEngine}, t.equivalenceTable = s.equivalenceTable →
      t.equivalenceVersion = s.equivalenceVersion → t.TablesNumbered ∧ s.TablesKept t := by
    intro t htable hversion
    refine ⟨⟨fun v => ?_, fun v table hv => ?_⟩, fun v table hv => ?_⟩
    · rw [htable, hversion]
      exact hs.versions v
    · rw [htable] at hv
      exact hs.table v table hv
    · rw [htable]
      exact hv
  cases h with
  | write _ hkeeps _ => exact hsame hkeeps.data.2 hkeeps.version
  | setting _ hkeeps => exact hsame hkeeps.data.2 hkeeps.version
  | publish h => exact publishEquivalence_numbered hs h

/-! ## Conversions -/

/-- How a fresh calculation was converted: the factor the engine has for the report. -/
structure CouponCalculation.Converted (c : CouponCalculation) (s : CouponEngine) (report : Report)
    (creditType : CreditType) : Prop where
  version : c.tableVersion = s.equivalenceVersion
  reportId : c.reportId = report.id
  methodology : c.methodology = report.methodology
  applied : c.carbonConversionApplied = converts creditType
  factor : ∃ factor, s.factorFor report creditType = .ok factor ∧
    c.factorNumerator = factor.numerator ∧ c.factorDenominator = factor.denominator

/-- The factor of the calculation is the one its table holds for its methodology. -/
def CouponCalculation.Traced (c : CouponCalculation) (s : CouponEngine) : Prop :=
  c.carbonConversionApplied = true → 1 ≤ c.tableVersion →
    ∃ table, s.equivalenceTable c.tableVersion = some table ∧
      ⟨c.methodology, c.factorNumerator, c.factorDenominator⟩ ∈ table.factors ∧
      ∀ factor ∈ table.factors, factor.methodology = c.methodology →
        factor = ⟨c.methodology, c.factorNumerator, c.factorDenominator⟩

namespace CouponEngine

variable {s : CouponEngine} {issuer : BondIssuer} {b b' : CouponBond} {report : Report}
  {creditType : CreditType} {c : CouponCalculation}

theorem conversion_converted {period : Nat} (hnone : b.getCouponCalculation period = none)
    (h : s.conversion b period report creditType = .ok c) : c.Converted s report creditType := by
  simp only [conversion, hnone, bind_ok_iff, reject_ok_iff, pure_ok_iff, exists_unit_iff] at h
  obtain ⟨-, -, factor, hfactor, normalized, -, rfl⟩ := h
  exact ⟨rfl, rfl, rfl, rfl, factor, hfactor, rfl, rfl⟩

variable {batch : CouponBatch}

/-- What a first batch pins is its conversion. -/
theorem prepareBatch_converted {staleness : StalenessState} (hb : b.Pinned)
    (hnone : b.couponCalculation batch.periodIndex = none)
    (h : s.prepareBatch issuer b batch staleness report = .ok (b', creditType, c)) :
    c.Converted s report creditType := by
  have hget : b.getCouponCalculation batch.periodIndex = none := by rw [hb.calculation, hnone]
  obtain ⟨-, -, conversion, adjustment, pools, b₂, terms, trueUp, hconversion, -, hterms,
    hpin⟩ := prepareBatch_ok h
  have hget₂ : b₂.getCouponCalculation batch.periodIndex = none := by
    obtain ⟨-, hstored, hlive⟩ := CouponBond.applyTerms_same hterms
    rw [CouponBond.getCouponCalculation_congr hstored hlive]
    exact hget
  obtain ⟨hversion, hid, hmethodology, happlied, hfactor⟩ := conversion_converted hget hconversion
  -- pinning adds the pools and the snapshot, and keeps the conversion
  simp only [CouponBond.pinCalculation, hget₂, bind_ok_iff, invoke_ok_iff, pure_ok_iff,
    Prod.mk.injEq] at hpin
  obtain ⟨_, -, _, -, -, rfl⟩ := hpin
  exact ⟨hversion, hid, hmethodology, happlied, hfactor⟩

/-- A conversion with a table is traced to it. -/
theorem converted_traced (hs : s.TablesNumbered) (h : c.Converted s report creditType) :
    c.Traced s := by
  intro happlied hversion
  obtain ⟨factor, hfactor, hnumerator, hdenominator⟩ := h.factor
  have hconverts : converts creditType = true := h.applied.symm.trans happlied
  rw [h.version] at hversion
  unfold factorFor at hfactor
  rw [if_neg (by simp [hconverts]; omega)] at hfactor
  simp only [bind_ok_iff, okOr_ok_iff] at hfactor
  obtain ⟨table, htable, hfind⟩ := hfactor
  have hmethodology : factor.methodology = c.methodology := by
    rw [h.methodology]
    simpa using List.find?_some hfind
  have hentry : factor = ⟨c.methodology, c.factorNumerator, c.factorDenominator⟩ := by
    rw [hnumerator, hdenominator, ← hmethodology]
  refine ⟨table, by rw [h.version]; exact htable, ?_, fun other hother hsame => ?_⟩
  · rw [← hentry]
    exact List.mem_of_find?_eq_some hfind
  · -- the table names the methodology once
    rw [← hentry]
    refine List.inj_on_of_nodup_map (hs.table _ table htable).2.distinct hother
      (List.mem_of_find?_eq_some hfind) ?_
    rw [hsame, hmethodology]

/-- **A distribution pins a conversion of the report it reads, or nothing.** -/
theorem distribute_pins {env : Env} {clock : Clock} {result : CouponResult}
    (hb : (s.bond batch.bondId).Pinned) (h : s.distribute env clock issuer batch = .ok (b', result))
    {p : Nat} (hc : b'.couponCalculation p = some c) :
    (s.bond batch.bondId).couponCalculation p = some c ∨
      (p = batch.periodIndex ∧ ∃ report creditType, env.getReport batch.reportId = some report ∧
        c.Converted s report creditType) := by
  rcases distribute_ok h with ⟨-, flag, rfl⟩ |
    ⟨-, staleness, report, b₁, creditType, c', payout, info, horacle, hprepare, hpaid⟩
  · exact .inl hc
  obtain ⟨-, -, hstored, -⟩ := prepareBatch_pinned hb hprepare
  rw [hpaid.couponCalculation, hstored] at hc
  by_cases hp : p = batch.periodIndex
  · subst hp
    rw [update_self] at hc
    cases hc
    cases hbefore : (s.bond batch.bondId).couponCalculation batch.periodIndex with
    | none =>
        obtain ⟨_, -, -, hreport⟩ := readOracle_ok horacle
        exact .inr ⟨rfl, report, creditType, hreport, prepareBatch_converted hb hbefore hprepare⟩
    | some c₀ =>
        -- a later batch pays from what is pinned
        rcases prepareBatch_calculation hb hprepare with hold | ⟨hnone, -⟩
        · exact .inl (hbefore ▸ hold)
        · rw [hbefore] at hnone
          cases hnone
  · rw [update_of_ne hp] at hc
    exact .inl hc

end CouponEngine

/-! ## Runs -/

/-- The event is the batch that read the report of the calculation. -/
def Reads (id p : Nat) (c : CouponCalculation) (e : ProtocolEvent) : Prop :=
  ∃ env call batch report, callOn id e = some (env, call) ∧ call.batch = some batch ∧
    batch.periodIndex = p ∧ env.getReport batch.reportId = some report ∧
    c.reportId = report.id ∧ c.methodology = report.methodology

/-- The tables of the engine and everything pinned from them, after the events `es`. -/
structure Traceable (es : List ProtocolEvent) (w : ProtocolWorld) : Prop where
  tables : w.engine.TablesNumbered
  traced : ∀ id p c, (w.engine.bond id).couponCalculation p = some c →
    c.Traced w.engine ∧ ∃ e ∈ es, Reads id p c e

theorem CouponCalculation.Traced.mono {c : CouponCalculation} (h : c.Traced s)
    (hkept : s.TablesKept s') : c.Traced s' := by
  intro happlied hversion
  obtain ⟨table, htable, hentry⟩ := h happlied hversion
  exact ⟨table, hkept _ table htable, hentry⟩

namespace ProtocolWorld

variable {w : ProtocolWorld}

theorem step_numbered (hw : w.engine.TablesNumbered) (i : ProtocolInput) :
    (w.step i).1.engine.TablesNumbered ∧ w.engine.TablesKept (w.step i).1.engine := by
  rcases w.step_move i with ⟨hsame, -⟩ | ⟨env, call, reply, -, -, hmove⟩
  · rw [hsame]
    exact ⟨hw, fun _ _ h => h⟩
  · exact hmove.numbered hw

/-- What is pinned after an input was pinned before, or is the conversion of a report it reads. -/
theorem step_pins (hb : ∀ id, (w.engine.bond id).Pinned) (i : ProtocolInput) {id p : Nat}
    {c : CouponCalculation} (hc : ((w.step i).1.engine.bond id).couponCalculation p = some c) :
    (w.engine.bond id).couponCalculation p = some c ∨
      (Reads id p c (protocolMachine.event w i) ∧
        ∃ report creditType, c.Converted w.engine report creditType) := by
  rcases w.event_write i id with ⟨-, hsame⟩ | ⟨env, call, reply, hcall, hwrite⟩
  · rw [hsame] at hc
    exact .inl hc
  cases hbatch : call.batch with
  | none =>
      rw [(hwrite.step.samePeriods hbatch).couponCalculation] at hc
      exact .inl hc
  | some batch =>
      obtain ⟨hid, -, result, hdist⟩ := hwrite.step.of_batch hbatch
      subst hid
      rcases distribute_pins (hb batch.bondId) hdist hc with
        hold | ⟨rfl, report, creditType, hreport, hconverted⟩
      · exact .inl hold
      · exact .inr ⟨⟨env, call, batch, report, hcall, hbatch, rfl, hreport, hconverted.reportId,
          hconverted.methodology⟩, report, creditType, hconverted⟩

end ProtocolWorld

theorem Traceable.step {es : List ProtocolEvent} {w : ProtocolWorld} (h : Traceable es w)
    (hb : ∀ id, (w.engine.bond id).Pinned) (i : ProtocolInput) :
    Traceable (es ++ [protocolMachine.event w i]) (w.step i).1 := by
  obtain ⟨hnumbered, hkept⟩ := ProtocolWorld.step_numbered h.tables i
  refine ⟨hnumbered, fun id p c hc => ?_⟩
  rcases ProtocolWorld.step_pins hb i hc with hold | ⟨hreads, report, creditType, hconverted⟩
  · obtain ⟨htraced, e, he, hreads⟩ := h.traced id p c hold
    exact ⟨htraced.mono hkept, e, List.mem_append_left _ he, hreads⟩
  · exact ⟨(converted_traced h.tables hconverted).mono hkept, _,
      List.mem_append_right _ List.mem_cons_self, hreads⟩

section Runs

variable (d : Deployment)

theorem protocolRun_traceable (l : List ProtocolInput) :
    Traceable (protocolHistory d l) (protocolRun d l) := by
  have hdeployed : Traceable [] (ProtocolWorld.deploy d) := by
    refine ⟨⟨fun v => ?_, fun _ _ h => (by cases h)⟩, fun _ _ _ h => (by cases h)⟩
    -- no table, and the version is zero
    show (none : Option EquivalenceTable).isSome = true ↔ 1 ≤ v ∧ v ≤ 0
    simp only [Option.isSome_none, Bool.false_eq_true, false_iff]
    omega
  refine protocolHistory_induct d hdeployed (fun l i h => ?_) l
  exact h.step (fun id => (protocolRun_couponSound d l id).pinned) i

theorem protocolRun_tablesKept (l l' : List ProtocolInput) :
    (protocolRun d l).engine.TablesKept (protocolRun d (l ++ l')).engine := by
  induction l' using List.reverseRecOn with
  | nil =>
      rw [List.append_nil]
      exact fun _ _ h => h
  | append_singleton l' i ih =>
      rw [← List.append_assoc, protocolRun_snoc]
      intro v table hv
      have htables := (protocolRun_traceable d (l ++ l')).tables
      exact (ProtocolWorld.step_numbered htables i).2 v table (ih v table hv)

end Runs

/-- A publication prepared for another version fails. -/
theorem ProtocolWorld.step_stale (w : ProtocolWorld) (env : Env) (caller : Address)
    (expectedVersion : Nat) (factors : List EquivalenceFactor) (rationaleHash : Bytes32) (nonce : Nat)
    (h : expectedVersion ≠ w.engine.equivalenceVersion) :
    w.step (.coupon env (.publishEquivalence caller expectedVersion factors rationaleHash nonce))
      = (w, none) := by
  cases hexec : w.engine.exec env w.base.clock w.base.issuer
      (.publishEquivalence caller expectedVersion factors rationaleHash nonce) with
  | error fault => simp only [step, hexec]
  | ok r =>
      simp only [exec, dispatch, CouponReply.ofResult, bind_ok_iff,
        Prod.exists] at hexec
      obtain ⟨_, -, _, _, hpublish, -⟩ := hexec
      exact absurd (publishEquivalence_table hpublish).1 h

/-- **Tables are append-only and every pinned conversion can be traced to one of them**, in every
run. -/
theorem equivalence_traceable (d : Deployment) (l : List ProtocolInput) :
    (protocolRun d l).engine.TablesNumbered ∧
      (∀ l', (protocolRun d l).engine.TablesKept (protocolRun d (l ++ l')).engine) ∧
      (∀ id p c, ((protocolRun d l).engine.bond id).getCouponCalculation p = some c →
        c.Traced (protocolRun d l).engine ∧ ∃ e ∈ protocolHistory d l, Reads id p c e) ∧
      ∀ env caller expectedVersion factors rationaleHash nonce,
        expectedVersion < (protocolRun d l).engine.equivalenceVersion →
        (protocolRun d l).step
            (.coupon env (.publishEquivalence caller expectedVersion factors rationaleHash nonce))
          = (protocolRun d l, none) := by
  have htraceable := protocolRun_traceable d l
  refine ⟨htraceable.tables, protocolRun_tablesKept d l, fun id p c hc => ?_, ?_⟩
  · rw [(protocolRun_couponSound d l id).pinned.calculation] at hc
    exact htraceable.traced id p c hc
  · intro env caller expectedVersion factors rationaleHash nonce hold
    exact ProtocolWorld.step_stale _ env caller expectedVersion factors rationaleHash nonce
      (by omega)

end VerdantBond
