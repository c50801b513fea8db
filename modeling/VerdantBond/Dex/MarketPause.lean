import VerdantBond.Dex.MarketGuard

set_option autoImplicit false

/-! # DEXRouter: what an update makes of a pause

A stable update of a market's reference keeps the pause. A divergent one restarts it: the pause then
ends one grace period after the update, with the grace configured at that time. So the pause can come
to end earlier than before, and only after the grace was configured shorter while it was stored.
-/

namespace VerdantBond

open Function

/-! ## Events -/

/-- The configuration an event gives a market, if any. -/
def configuredIn (bond : Nat) (asset : Symbol) (e : DexEvent) : Option MarketConfig :=
  match e.input, e.output with
  | .dex _ (.configureMarket _ bond' asset' config _), some _ =>
      if bond' = bond ∧ asset' = asset then some config else none
  | _, _ => none

/-- The price an event makes the reference of a market, if any. -/
def referredIn (bond : Nat) (asset : Symbol) (e : DexEvent) : Option Int :=
  match e.input, e.output with
  | .dex _ (.updateOracleReference _ bond' asset' twapPrice _ _ _), some _ =>
      if bond' = bond ∧ asset' = asset then some twapPrice else none
  | _, _ => none

theorem referredIn_failed (bond : Nat) (asset : Symbol) (i : DexInput) (w w' : DexWorld) :
    referredIn bond asset ⟨w, i, none, w'⟩ = none := by
  cases i with
  | issuer input => rfl
  | dex env call => cases call <;> rfl

variable {call : DexCall}

/-- A call that is neither a configuration nor an update. -/
theorem referredIn_of_trade {p : Purchase} (h : call.purchase = some p) (bond : Nat)
    (asset : Symbol) (env : DexEnv) (w w' : DexWorld) (reply : DexReply) :
    referredIn bond asset ⟨w, .dex env call, some reply, w'⟩ = none := by
  cases call with
  | executePurchase | revealPurchase => rfl
  | _ => cases h

theorem referredIn_of_aside (h : call.onMarket = false) (bond : Nat) (asset : Symbol) (env : DexEnv)
    (w w' : DexWorld) (reply : DexReply) :
    referredIn bond asset ⟨w, .dex env call, some reply, w'⟩ = none := by
  cases call with
  | updateOracleReference => cases h
  | _ => rfl

/-- What an event does to the configuration and the reference of a market. -/
inductive PauseStep (w w' : DexWorld) (e : DexEvent) (bond : Nat) (asset : Symbol) : Prop where
  | configured {config : MarketConfig} (call : configuredIn bond asset e = some config)
      (idle : referredIn bond asset e = none)
      (given : w'.dex.marketConfig bond asset = some config)
      (reference : w'.dex.oracleReference bond asset = w.dex.oracleReference bond asset)
  | referred {price : Int} {config : MarketConfig} {r' : OracleReference}
      (call : referredIn bond asset e = some price)
      (inForce : w.dex.marketConfig bond asset = some config)
      (kept : w'.dex.marketConfig bond asset = w.dex.marketConfig bond asset)
      (reference : w'.dex.oracleReference bond asset = some r')
      (pause : DEXRouter.pauseAfter w.base.clock config (w.dex.oracleReference bond asset) price
        r'.observedAt = .ok r'.pauseUntil)
  | quiet (idle : referredIn bond asset e = none)
      (kept : w'.dex.marketConfig bond asset = w.dex.marketConfig bond asset)
      (reference : w'.dex.oracleReference bond asset = w.dex.oracleReference bond asset)

theorem MarketMove.pauseStep {w w' : DexWorld} {env : DexEnv} {reply : DexReply}
    (h : MarketMove w.base.clock w.dex.order w.dex.markets call w'.dex.markets) (bond : Nat)
    (asset : Symbol) : PauseStep w w' ⟨w, .dex env call, some reply, w'⟩ bond asset := by
  have hconfig : w'.dex.marketConfig = w'.dex.markets.config := rfl
  have hreference : w'.dex.oracleReference = w'.dex.markets.reference := rfl
  generalize w'.dex.markets = m at h hconfig hreference
  cases h with
  | @configure caller bond' asset' config nonce =>
      by_cases hmarket : bond' = bond ∧ asset' = asset
      · obtain ⟨rfl, rfl⟩ := hmarket
        have hcall : configuredIn bond' asset'
            ⟨w, .dex env (.configureMarket caller bond' asset' config nonce), some reply, w'⟩
            = some config := if_pos ⟨rfl, rfl⟩
        refine .configured hcall rfl ?_ ?_
        · rw [hconfig]
          simp only [MarketBook.configure, update_pair_apply, and_self, if_true]
        · rw [hreference]
          rfl
      · refine .quiet rfl ?_ ?_
        · rw [hconfig]
          simp only [MarketBook.configure, update_pair_apply]
          exact if_neg fun heq => hmarket ⟨heq.1.symm, heq.2.symm⟩
        · rw [hreference]
          rfl
  | @refer caller bond' asset' twapPrice sampleVolume observedAt nonce pauseUntil config hconfigured _
      hpause =>
      by_cases hmarket : bond' = bond ∧ asset' = asset
      · obtain ⟨rfl, rfl⟩ := hmarket
        have hnew : w'.dex.oracleReference bond' asset'
            = some ⟨twapPrice, observedAt, sampleVolume, pauseUntil⟩ := by
          rw [hreference]
          simp only [MarketBook.refer, update_pair_apply, and_self, if_true]
        refine .referred ?_ hconfigured ?_ hnew hpause
        · exact if_pos ⟨rfl, rfl⟩
        · rw [hconfig]
          rfl
      · refine .quiet ?_ ?_ ?_
        · exact if_neg hmarket
        · rw [hconfig]
          rfl
        · rw [hreference]
          simp only [MarketBook.refer, update_pair_apply]
          exact if_neg fun heq => hmarket ⟨heq.1.symm, heq.2.symm⟩
  | trade hpurchase _ htrade =>
      refine .quiet (referredIn_of_trade hpurchase ..) ?_ ?_
      · rw [hconfig, htrade.book]
        rfl
      · rw [hreference, htrade.book]
        rfl
  | aside haside =>
      refine .quiet (referredIn_of_aside haside ..) ?_ ?_
      · rw [hconfig]
        rfl
      · rw [hreference]
        rfl

theorem DexWorld.pauseStep (w : DexWorld) (i : DexInput) (bond : Nat) (asset : Symbol) :
    PauseStep w (w.step i).1 (dexMachine.event w i) bond asset := by
  show PauseStep w (w.step i).1 ⟨w, i, (w.step i).2, (w.step i).1⟩ bond asset
  have hcases := w.market_cases i
  generalize (w.step i).1 = w' at hcases
  generalize (w.step i).2 = reply at hcases
  cases hcases with
  | aside hdex =>
      refine .quiet (referredIn_failed ..) ?_ ?_
      · rw [hdex]
      · rw [hdex]
  | moved h hmove =>
      subst h
      exact hmove.pauseStep bond asset

/-! ## The rule -/

/-- A price within the circuit breaker's band of a reference. -/
def OracleReference.Stable (r : OracleReference) (config : MarketConfig) (price : Int) : Prop :=
  WithinBps price r.twapPrice config.circuitBreakerDeviationBps

/-- The pause an update leaves. -/
theorem pauseAfter_ok {clock : Clock} {config : MarketConfig} {r : OracleReference} {price : Int}
    {observedAt pauseUntil : Nat} (hpos : 0 < r.twapPrice)
    (h : DEXRouter.pauseAfter clock config (some r) price observedAt = .ok pauseUntil) :
    (r.Stable config price → pauseUntil = r.pauseUntil) ∧
      (¬ r.Stable config price → pauseUntil = clock.timestamp + config.divergenceGraceSeconds) := by
  simp only [DEXRouter.pauseAfter, bind_ok_iff, reject_ok_iff, exists_unit_iff] at h
  obtain ⟨-, far, hfar, h⟩ := h
  have hstable := exceedsDeviation_ok hfar (le_of_lt hpos)
  cases far with
  | false =>
      have hpause : pauseUntil = r.pauseUntil := by
        rw [if_neg (by decide), pure_ok_iff] at h
        exact h.symm
      exact ⟨fun _ => hpause, fun hnot => absurd (hstable.mp rfl) hnot⟩
  | true =>
      have hpause : pauseUntil = clock.timestamp + config.divergenceGraceSeconds := by
        rw [if_pos rfl, okOr_ok_iff, u64_eq_some] at h
        exact h.2.symm
      refine ⟨fun hwithin => ?_, fun _ => hpause⟩
      cases hstable.mpr hwithin

/-- While the pause was stored, the market was given a grace that would have ended before it. -/
def GraceShortened (es : List DexEvent) (bond : Nat) (asset : Symbol) (pause : Nat) : Prop :=
  ∃ c ∈ es, ∃ config r, configuredIn bond asset c = some config ∧
    c.pre.dex.oracleReference bond asset = some r ∧ r.pauseUntil = pause ∧
    c.pre.base.clock.timestamp + config.divergenceGraceSeconds < pause

theorem GraceShortened.snoc {es : List DexEvent} {bond : Nat} {asset : Symbol} {pause : Nat}
    (h : GraceShortened es bond asset pause) (e : DexEvent) :
    GraceShortened (es ++ [e]) bond asset pause := by
  obtain ⟨c, hc, hrest⟩ := h
  exact ⟨c, List.mem_append_left _ hc, hrest⟩

/-- **The pause is within the grace in force**, or the grace was shortened under it. -/
def PauseBound (es : List DexEvent) (w : DexWorld) (bond : Nat) (asset : Symbol) : Prop :=
  ∀ config r, w.dex.marketConfig bond asset = some config →
    w.dex.oracleReference bond asset = some r →
    r.pauseUntil ≤ w.base.clock.timestamp + config.divergenceGraceSeconds ∨
      GraceShortened es bond asset r.pauseUntil

section Bound

variable {es : List DexEvent} {w w' : DexWorld} {e : DexEvent} {bond : Nat} {asset : Symbol}

/-- The pause a reference leaves, from the one before. -/
theorem PauseBound.snoc (h : PauseBound es w bond asset) (hpre : e.pre = w)
    (hpositive : ∀ r, w.dex.oracleReference bond asset = some r → 0 < r.twapPrice)
    (hclock : w.base.clock.timestamp ≤ w'.base.clock.timestamp)
    (hstep : PauseStep w w' e bond asset) : PauseBound (es ++ [e]) w' bond asset := by
  intro config r hconfig hr
  cases hstep with
  | configured hcall _ hnew hkept =>
      obtain rfl := Option.some.inj (hconfig.symm.trans hnew)
      rw [hkept] at hr
      by_cases hle : r.pauseUntil ≤ w.base.clock.timestamp + config.divergenceGraceSeconds
      · exact .inl (by omega)
      · refine .inr ⟨e, List.mem_append_right _ (List.mem_singleton.mpr rfl), config, r, hcall, ?_,
          rfl, ?_⟩
        · rw [hpre]
          exact hr
        · rw [hpre]
          exact not_le.mp hle
  | @referred price config' r' hcall hinforce hkept hreference hpause =>
      obtain rfl := Option.some.inj (hreference.symm.trans hr)
      rw [hkept] at hconfig
      obtain rfl := Option.some.inj (hconfig.symm.trans hinforce)
      cases hold : w.dex.oracleReference bond asset with
      | none =>
          rw [hold] at hpause
          have hzero : r'.pauseUntil = 0 := (pure_ok_iff.mp hpause).symm
          exact .inl (by omega)
      | some r =>
          rw [hold] at hpause
          obtain ⟨hstable, hdivergent⟩ := pauseAfter_ok (hpositive r hold) hpause
          by_cases hwithin : r.Stable config price
          · -- the same pause, under the same grace
            rw [hstable hwithin]
            rcases h config r hinforce hold with hle | hshort
            · exact .inl (by omega)
            · exact .inr (hshort.snoc e)
          · have hnew := hdivergent hwithin
            exact .inl (by omega)
  | quiet _ hkept hsame =>
      rw [hkept] at hconfig
      rw [hsame] at hr
      rcases h config r hconfig hr with hle | hshort
      · exact .inl (by omega)
      · exact .inr (hshort.snoc e)

end Bound

theorem dexRun_pauseBound (base : IssuerWorld) (admin : Address) (l : List DexInput) (bond : Nat)
    (asset : Symbol) : PauseBound (dexHistory base admin l) (dexRun base admin l) bond asset := by
  refine dexHistory_induct base admin (P := fun es w => PauseBound es w bond asset) ?_
    (fun l i h => ?_) l
  · intro config r hconfig
    cases hconfig
  · exact h.snoc rfl (dexRun_market_sound base admin l bond asset).referred
      ((dexRun base admin l).clock_le i).2 (DexWorld.pauseStep _ i bond asset)

/-- What an update makes of a pause `r` of its market: a stable one keeps it, a divergent one
restarts it under the grace in force, and it ends earlier only where the grace was shortened. -/
structure PauseRestarts (before : List DexEvent) (now : Nat) (bond : Nat) (asset : Symbol)
    (config : MarketConfig) (price : Int) (r r' : OracleReference) : Prop where
  stable : r.Stable config price → r'.pauseUntil = r.pauseUntil
  divergent : ¬ r.Stable config price → r'.pauseUntil = now + config.divergenceGraceSeconds
  cause : r'.pauseUntil < r.pauseUntil → GraceShortened before bond asset r.pauseUntil

/-- **What the updates of a run make of the pauses.** -/
theorem pauses_restart (base : IssuerWorld) (admin : Address) (l : List DexInput) :
    Machine.Guarded
      (fun before e => ∀ bond asset price r, referredIn bond asset e = some price →
        e.pre.dex.oracleReference bond asset = some r →
        ∃ config r', e.pre.dex.marketConfig bond asset = some config ∧
          e.post.dex.oracleReference bond asset = some r' ∧
          PauseRestarts before e.pre.base.clock.timestamp bond asset config price r r')
      (dexHistory base admin l) := by
  refine dexMachine.guarded_intro (fun l i bond asset price r hcall hr => ?_) l
  have hr' : (dexRun base admin l).dex.oracleReference bond asset = some r := hr
  have hpositive := (dexRun_market_sound base admin l bond asset).referred r hr'
  have hbound := dexRun_pauseBound base admin l bond asset
  cases DexWorld.pauseStep (dexRun base admin l) i bond asset with
  | @referred price' config r' hcall' hinforce hkept hreference hpause =>
      obtain rfl := Option.some.inj (hcall'.symm.trans hcall)
      rw [hr'] at hpause
      obtain ⟨hstable, hdivergent⟩ := pauseAfter_ok hpositive hpause
      refine ⟨config, r', hinforce, hreference, hstable, hdivergent, fun hlt => ?_⟩
      rcases hbound config r hinforce hr' with hle | hshort
      · -- neither kind of update would end the pause earlier
        by_cases hwithin : r.Stable config price'
        · have hsame := hstable hwithin
          omega
        · have hnew := hdivergent hwithin
          omega
      · exact hshort
  | configured _ hidle _ _ | quiet hidle _ _ =>
      have hcall' := hidle.symm.trans hcall
      cases hcall'

/-! ## A pause that is cut short -/

/-- A market with a long grace, paused by a divergent update; the grace is then configured
shorter. -/
def samplePauses : List DexInput :=
  [.dex sampleDexEnv (.configureMarket ⟨1⟩ 1 "USDC" ⟨1, 100, 100, 100, 1000, 1000, 5000⟩ 0),
    .dex sampleDexEnv (.updateOracleReference ⟨1⟩ 1 "USDC" 100 10 1 1),
    .dex sampleDexEnv (.updateOracleReference ⟨1⟩ 1 "USDC" 200 20 1 2),
    .dex sampleDexEnv (.configureMarket ⟨1⟩ 1 "USDC" ⟨1, 100, 100, 100, 1000, 1000, 5⟩ 3)]

/-- The next divergent update. -/
def sampleRestart : DexInput :=
  .dex sampleDexEnv (.updateOracleReference ⟨1⟩ 1 "USDC" 300 30 1 4)

/-- It is made while the pause runs, and ends it earlier. -/
theorem pause_cut_short :
    ((dexRun sampleMarket ⟨1⟩ samplePauses).dex.oracleReference 1 "USDC").map
        OracleReference.pauseUntil = some 5100 ∧
      (dexRun sampleMarket ⟨1⟩ samplePauses).base.clock.timestamp = 100 ∧
      ((dexRun sampleMarket ⟨1⟩ samplePauses).step sampleRestart).2 = some .unit ∧
      ((dexRun sampleMarket ⟨1⟩ (samplePauses ++ [sampleRestart])).dex.oracleReference 1 "USDC").map
        OracleReference.pauseUntil = some 105 := by
  decide +kernel

end VerdantBond
