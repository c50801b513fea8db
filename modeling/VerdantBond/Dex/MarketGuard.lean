import VerdantBond.Dex.Settlement
import VerdantBond.Lib.EpochTally

set_option autoImplicit false

/-! # DEXRouter: the market guard bounds every ledger

A third book of the router: the configuration, the oracle reference and the ledger of every market.
`MarketMove` says what a successful call does to it. The ledger is a tally that starts afresh with
the first fill of a ledger sequence, so what it holds is what the fills of the sequence add up to,
and the checks of `record_market_trade` are checks on those fills.
-/

namespace VerdantBond

open Function List

/-! ## The book of the markets -/

structure MarketBook where
  config : Nat → Symbol → Option MarketConfig
  reference : Nat → Symbol → Option OracleReference
  ledger : Nat → Symbol → Option MarketLedger

def DEXRouter.markets (s : DEXRouter) : MarketBook :=
  ⟨s.marketConfig, s.oracleReference, s.marketLedger⟩

/-- Writing under a pair of keys. -/
theorem update_pair_apply {α β γ : Type} [DecidableEq α] [DecidableEq β] (f : α → β → γ) (a : α)
    (b : β) (c : γ) (a' : α) (b' : β) :
    update f a (update (f a) b c) a' b' = if a' = a ∧ b' = b then c else f a' b' := by
  by_cases ha : a' = a
  · subst ha
    rw [update_self, update_apply]
    simp only [true_and]
  · rw [update_of_ne ha, if_neg (fun h => ha h.1)]

namespace MarketBook

/-- Write a configuration. -/
def configure (m : MarketBook) (bond : Nat) (asset : Symbol) (config : MarketConfig) : MarketBook :=
  { m with config := update m.config bond (update (m.config bond) asset (some config)) }

/-- Write a reference. -/
def refer (m : MarketBook) (bond : Nat) (asset : Symbol) (reference : OracleReference) :
    MarketBook :=
  { m with reference := update m.reference bond (update (m.reference bond) asset (some reference)) }

/-- Write a ledger. -/
def tally (m : MarketBook) (bond : Nat) (asset : Symbol) (ledger : MarketLedger) : MarketBook :=
  { m with ledger := update m.ledger bond (update (m.ledger bond) asset (some ledger)) }

end MarketBook

/-- A market's ledger is a tally of its fills: the prices and what they cost. -/
def MarketLedger.toTally (ledger : MarketLedger) : EpochTally Int :=
  ⟨ledger.sequence, ledger.firstPrice, ledger.quoteVolume⟩

/-- The market ledger as a trade finds it is the tally of its sequence. -/
theorem DEXRouter.marketLedgerAt_toTally (clock : Clock) (s : DEXRouter) (bond : Nat)
    (asset : Symbol) (price proceeds : Int) :
    (s.marketLedgerAt clock bond asset price).toTally
      = EpochTally.current ((s.marketLedger bond asset).map MarketLedger.toTally)
          ⟨clock.sequence, price, proceeds⟩ := by
  unfold marketLedgerAt
  cases s.marketLedger bond asset with
  | none => rfl
  | some ledger =>
      show (if ledger.sequence = clock.sequence then ledger
          else ⟨clock.sequence, price, 0⟩).toTally
        = if ledger.sequence = clock.sequence then ledger.toTally else ⟨clock.sequence, price, 0⟩
      split
      · rfl
      · rfl

/-! ## One fill -/

/-- A price is within so many basis points of a reference. -/
def WithinBps (price reference : Int) (bps : Nat) : Prop :=
  |price - reference| * basisPoints ≤ reference * bps

/-- `exceeds_deviation` decides it: the rounding of the allowance loses nothing. -/
theorem exceedsDeviation_ok {actual reference : Int} {bps : Nat} {far : Bool}
    (h : exceedsDeviation actual reference bps = .ok far) (hpos : 0 ≤ reference) :
    far = false ↔ WithinBps actual reference bps := by
  simp only [exceedsDeviation, bind_ok_iff, okOr_ok_iff, i128_eq_some, pure_ok_iff] at h
  obtain ⟨_, ⟨-, rfl⟩, _, ⟨-, rfl⟩, _, ⟨-, rfl⟩, rfl⟩ := h
  have hscaled : 0 ≤ reference * bps := mul_nonneg hpos (Int.natCast_nonneg bps)
  rw [decide_eq_false_iff_not, not_lt, Int.tdiv_eq_ediv_of_nonneg hscaled,
    Int.le_ediv_iff_mul_le (by decide)]
  rfl

/-- **What the guard lets through**: the market runs, its reference is fresh, the price is near the
reference and near the first of the ledger, and the volume of the ledger is within its limit. -/
structure GuardPassed (clock : Clock) (config : MarketConfig) (reference : OracleReference)
    (first price volume : Int) : Prop where
  running : reference.pauseUntil ≤ clock.timestamp
  observed : reference.observedAt ≤ clock.timestamp
  fresh : clock.timestamp - reference.observedAt ≤ config.maximumOracleAgeSeconds
  near_reference : WithinBps price reference.twapPrice config.maximumTradeDeviationBps
  near_first : WithinBps price first config.maximumBlockDeviationBps
  volume_le : volume ≤ config.maximumLedgerQuoteVolume

/-- What a trade of a market did to the book, with the checks it passed. The bands are those of
positive prices. -/
structure Trade (clock : Clock) (m : MarketBook) (bond : Nat) (asset : Symbol)
    (price proceeds : Int) (m' : MarketBook) (config : MarketConfig) (reference : OracleReference)
    (ledger : MarketLedger) : Prop where
  configured : m.config bond asset = some config
  referred : m.reference bond asset = some reference
  recorded : ledger.toTally = EpochTally.record ((m.ledger bond asset).map MarketLedger.toTally)
    ⟨clock.sequence, price, proceeds⟩
  passed : 0 ≤ reference.twapPrice → 0 ≤ ledger.firstPrice →
    GuardPassed clock config reference ledger.firstPrice price ledger.quoteVolume
  book : m' = m.tally bond asset ledger

namespace DEXRouter

variable {clock : Clock}

theorem recordMarketTrade_trade {s s' : DEXRouter} {bond : Nat} {asset : Symbol}
    {price proceeds : Int} (h : s.recordMarketTrade clock bond asset price proceeds = .ok s') :
    ∃ config reference ledger,
      Trade clock s.markets bond asset price proceeds s'.markets config reference ledger := by
  simp only [recordMarketTrade, bind_ok_iff, okOr_ok_iff, reject_ok_iff, i128_eq_some, pure_ok_iff,
    exists_unit_iff, not_lt, not_or, Bool.not_eq_true] at h
  obtain ⟨config, hconfig, reference, hreference, hrunning, ⟨hobserved, hfresh⟩, far, hfar, hnear,
    far', hfar', hnear', _, ⟨-, rfl⟩, hvolume, rfl⟩ := h
  refine ⟨config, reference,
    { s.marketLedgerAt clock bond asset price with
      quoteVolume := (s.marketLedgerAt clock bond asset price).quoteVolume + proceeds },
    hconfig, hreference, ?_, fun hpos hfirst => ?_, rfl⟩
  · have hfound := s.marketLedgerAt_toTally clock bond asset price proceeds
    show _ = EpochTally.record ((s.marketLedger bond asset).map MarketLedger.toTally) _
    unfold EpochTally.record
    rw [← hfound]
    rfl
  · exact ⟨hrunning, hobserved, hfresh, (exceedsDeviation_ok hfar hpos).mp hnear,
      (exceedsDeviation_ok hfar' hfirst).mp hnear', hvolume⟩

theorem settled_markets (clock : Clock) (s s₁ : DEXRouter) (buyer : Address) (orderId : Nat)
    (amount : Int) (order : Order) :
    (settled clock s s₁ buyer orderId amount order).markets = s₁.markets := by
  simp only [markets, settled, recordPriceObservation, setOrder, setBondEscrow, setBalance, setNonce]

/-- A settled purchase is a trade of the market of its order. -/
theorem settlePurchase_trade {env : DexEnv} {issuer issuer' : BondIssuer} {s s' : DEXRouter}
    {buyer : Address} {orderId : Nat} {maxPrice amount : Int} {nonce : Nat}
    (h : s.settlePurchase env clock issuer buyer orderId maxPrice amount nonce
      = .ok (s', issuer')) :
    ∃ order config reference ledger, s.order orderId = some order ∧
      Trade clock s.markets order.bondId order.quoteAsset order.pricePerToken
        (amount * order.pricePerToken) s'.markets config reference ledger := by
  obtain ⟨order, s₁, hpurchase, hmarket, rfl⟩ := settlePurchase_inv h
  obtain ⟨config, reference, ledger, htrade⟩ := recordMarketTrade_trade hmarket
  refine ⟨order, config, reference, ledger, hpurchase.found, ?_⟩
  rw [settled_markets]
  exact htrade

end DEXRouter

/-! ## Calls -/

/-- The calls that write a configuration or a reference, or trade. -/
def DexCall.onMarket : DexCall → Bool
  | .configureMarket .. | .updateOracleReference .. | .executePurchase .. | .revealPurchase .. => true
  | _ => false

/-- **What a successful call does to the book of the markets.** -/
inductive MarketMove (clock : Clock) (order : Nat → Option Order) (m : MarketBook) :
    DexCall → MarketBook → Prop where
  | configure {caller : Address} {bond : Nat} {asset : Symbol} {config : MarketConfig} {nonce : Nat} :
      MarketMove clock order m (.configureMarket caller bond asset config nonce)
        (m.configure bond asset config)
  | refer {caller : Address} {bond : Nat} {asset : Symbol} {twapPrice sampleVolume : Int}
      {observedAt nonce pauseUntil : Nat} {config : MarketConfig}
      (configured : m.config bond asset = some config) (positive : 0 < twapPrice)
      (pause : DEXRouter.pauseAfter clock config (m.reference bond asset) twapPrice observedAt
        = .ok pauseUntil) :
      MarketMove clock order m
        (.updateOracleReference caller bond asset twapPrice observedAt sampleVolume nonce)
        (m.refer bond asset ⟨twapPrice, observedAt, sampleVolume, pauseUntil⟩)
  | trade {call : DexCall} {p : Purchase} {o : Order} {m' : MarketBook} {config : MarketConfig}
      {reference : OracleReference} {ledger : MarketLedger} (purchase : call.purchase = some p)
      (found : order p.orderId = some o)
      (trade : Trade clock m o.bondId o.quoteAsset o.pricePerToken (p.amount * o.pricePerToken) m'
        config reference ledger) :
      MarketMove clock order m call m'
  | aside {call : DexCall} (h : call.onMarket = false) : MarketMove clock order m call m

namespace DEXRouter

variable {env : DexEnv} {clock : Clock} {issuer issuer' : BondIssuer} {call : DexCall}
  {reply : DexReply}

/-- A call that does not concern the markets leaves them and their price histories. -/
theorem exec_aside {s s' : DEXRouter} (h : s.exec env clock issuer call = .ok (s', issuer', reply))
    (haside : call.onMarket = false) : s'.markets = s.markets ∧ s'.priceObs = s.priceObs := by
  obtain ⟨-, h⟩ := exec_ok_iff.mp h
  cases call with
  | configureMarket | updateOracleReference | revealPurchase | executePurchase => cases haside
  | setAdmin currentAdmin newAdmin =>
      obtain ⟨hok, rfl, rfl⟩ := ofUnit_ok h
      rw [setAdmin_ok hok]
      exact ⟨rfl, rfl⟩
  | commitPurchase buyer commitment quoteAsset nonce =>
      obtain ⟨id, hok, rfl, rfl⟩ := ofRouter_ok h
      obtain ⟨-, -, -, rfl⟩ := commitPurchase_ok hok
      exact ⟨rfl, rfl⟩
  | forfeitPurchaseCommit commitId =>
      obtain ⟨hok, rfl, rfl⟩ := ofUnit_ok h
      obtain ⟨c, -, -, -, rfl⟩ := forfeitPurchaseCommit_ok hok
      exact ⟨rfl, rfl⟩
  | listBondTokens seller bondId amount pricePerToken quoteAsset expiresAfterSeconds nonce =>
      obtain ⟨id, hok, rfl, rfl⟩ := ofRouter_ok h
      obtain ⟨-, -, -, -, -, rfl⟩ := listBondTokens_ok hok
      exact ⟨rfl, rfl⟩
  | cancelListing caller orderId nonce =>
      obtain ⟨hok, rfl, rfl⟩ := ofUnit_ok h
      obtain ⟨order, -, -, -, rfl⟩ := cancelListing_ok hok
      exact ⟨rfl, rfl⟩
  | depositQuote caller quoteAsset amount nonce =>
      obtain ⟨hok, rfl, rfl⟩ := ofUnit_ok h
      obtain ⟨-, rfl⟩ := depositQuote_ok hok
      exact ⟨rfl, rfl⟩
  | withdrawQuote caller quoteAsset amount nonce =>
      obtain ⟨hok, rfl, rfl⟩ := ofUnit_ok h
      obtain ⟨-, -, rfl⟩ := withdrawQuote_ok hok
      exact ⟨rfl, rfl⟩
  | cleanExpiredOrders caller startId limit nonce =>
      obtain ⟨result, hok, rfl, rfl⟩ := ofRouter_ok h
      rw [cleanExpiredOrders_ok hok]
      exact ⟨rfl, rfl⟩

/-- **Every successful call is a move of the markets.** -/
theorem exec_market {s s' : DEXRouter} (h : s.exec env clock issuer call = .ok (s', issuer', reply)) :
    MarketMove clock s.order s.markets call s'.markets := by
  have hexec := h
  obtain ⟨-, h⟩ := exec_ok_iff.mp h
  cases call with
  | configureMarket caller bondId quoteAsset config nonce =>
      obtain ⟨hok, rfl, rfl⟩ := ofUnit_ok h
      rw [configureMarket_ok hok]
      exact .configure
  | updateOracleReference caller bondId quoteAsset twapPrice observedAt sampleVolume nonce =>
      obtain ⟨hok, rfl, rfl⟩ := ofUnit_ok h
      obtain ⟨config, pauseUntil, hconfig, hpositive, hpause, rfl⟩ := updateOracleReference_ok hok
      exact .refer hconfig hpositive hpause
  | revealPurchase buyer commitId orderId maxPrice amount salt nonce =>
      obtain ⟨hok, rfl⟩ := ofPurchase_ok h
      obtain ⟨c, _, -, hsettle⟩ := revealPurchase_ok hok
      obtain ⟨order, _, _, _, hfound, htrade⟩ := settlePurchase_trade hsettle
      exact .trade rfl hfound htrade
  | executePurchase buyer orderId maxPrice amount nonce =>
      obtain ⟨hok, rfl⟩ := ofPurchase_ok h
      obtain ⟨order, _, _, _, hfound, htrade⟩ := settlePurchase_trade (executePurchase_ok hok)
      exact .trade rfl hfound htrade
  | _ =>
      rw [(exec_aside hexec rfl).1]
      exact .aside rfl

end DEXRouter

/-- The markets after an input. -/
inductive MarketCase (w : DexWorld) (i : DexInput) (w' : DexWorld) : Option DexReply → Prop where
  | aside (dex : w'.dex = w.dex) : MarketCase w i w' none
  | moved {env : DexEnv} {call : DexCall} {reply : DexReply} (h : i = .dex env call)
      (move : MarketMove w.base.clock w.dex.order w.dex.markets call w'.dex.markets) :
      MarketCase w i w' (some reply)

theorem DexWorld.market_cases (w : DexWorld) (i : DexInput) :
    MarketCase w i (w.step i).1 (w.step i).2 := by
  cases i with
  | issuer input => exact .aside rfl
  | dex env call =>
      rcases w.step_dex env call with hstep | ⟨dex, issuer, reply, hexec, hstep⟩
      · rw [hstep]
        exact .aside rfl
      · rw [hstep]
        exact .moved rfl (DEXRouter.exec_market hexec)

/-! ## The fills of a market -/

/-- The fill of a market an event makes, if any: in which ledger, at what price, for how much. -/
def fillIn (bond : Nat) (asset : Symbol) (e : DexEvent) : Option (EpochEntry Int) :=
  match e.input, e.output with
  | .dex _ call, some _ =>
      match call.purchase with
      | some p =>
          match e.pre.dex.order p.orderId with
          | some o =>
              if o.bondId = bond ∧ o.quoteAsset = asset then
                some ⟨e.pre.base.clock.sequence, o.pricePerToken, p.amount * o.pricePerToken⟩
              else none
          | none => none
      | none => none
  | _, _ => none

/-- The fills of a market, oldest first. -/
def fills (bond : Nat) (asset : Symbol) (es : List DexEvent) : List (EpochEntry Int) :=
  es.filterMap (fillIn bond asset)

variable {bond : Nat} {asset : Symbol} {e : DexEvent} {call : DexCall} {env : DexEnv}

theorem fills_snoc_some {x : EpochEntry Int} (h : fillIn bond asset e = some x) (es : List DexEvent) :
    fills bond asset (es ++ [e]) = fills bond asset es ++ [x] := by
  unfold fills
  rw [filterMap_append, filterMap_cons_some h, filterMap_nil]

theorem fills_snoc_none (h : fillIn bond asset e = none) (es : List DexEvent) :
    fills bond asset (es ++ [e]) = fills bond asset es := by
  unfold fills
  rw [filterMap_append, filterMap_cons_none h, filterMap_nil, append_nil]

/-- What an event does to one market. -/
inductive MarketStep (w w' : DexWorld) (e : DexEvent) (bond : Nat) (asset : Symbol) : Prop where
  | filled {price proceeds : Int} {config : MarketConfig} {reference : OracleReference}
      {ledger : MarketLedger}
      (fill : fillIn bond asset e = some ⟨w.base.clock.sequence, price, proceeds⟩)
      (priced : 0 < price)
      (trade : Trade w.base.clock w.dex.markets bond asset price proceeds w'.dex.markets config
        reference ledger)
  | quiet (fill : fillIn bond asset e = none)
      (ledger : w'.dex.marketLedger bond asset = w.dex.marketLedger bond asset)
      (referred : ∀ r, w'.dex.oracleReference bond asset = some r →
        w.dex.oracleReference bond asset = some r ∨ 0 < r.twapPrice)

theorem DexCall.purchase_of_not_onMarket (h : call.onMarket = false) : call.purchase = none := by
  cases call with
  | executePurchase | revealPurchase => cases h
  | _ => rfl

/-- A call that does not purchase makes no fill. -/
theorem fillIn_of_purchase_none (h : call.purchase = none) (bond : Nat) (asset : Symbol)
    (w w' : DexWorld) (reply : Option DexReply) :
    fillIn bond asset ⟨w, .dex env call, reply, w'⟩ = none := by
  cases reply with
  | none => rfl
  | some reply => simp only [fillIn, h]

theorem MarketMove.marketStep {w w' : DexWorld} {reply : DexReply} (hw : w.dex.listings.Sound)
    (h : MarketMove w.base.clock w.dex.order w.dex.markets call w'.dex.markets) (bond : Nat)
    (asset : Symbol) : MarketStep w w' ⟨w, .dex env call, some reply, w'⟩ bond asset := by
  have hledger : w'.dex.marketLedger = w'.dex.markets.ledger := rfl
  have hreference : w'.dex.oracleReference = w'.dex.markets.reference := rfl
  generalize hm : w'.dex.markets = m at h hledger hreference
  cases h with
  | configure =>
      refine .quiet rfl ?_ fun r hr => ?_
      · rw [hledger]
        rfl
      · rw [hreference] at hr
        exact .inl hr
  | @refer caller bond' asset' twapPrice sampleVolume observedAt nonce pauseUntil config _ hpositive _ =>
      refine .quiet rfl ?_ fun r hr => ?_
      · rw [hledger]
        rfl
      · rw [hreference] at hr
        simp only [MarketBook.refer, update_pair_apply] at hr
        split at hr
        · cases hr
          exact .inr hpositive
        · exact .inl hr
  | @trade _ p o _ config reference ledger hpurchase hfound htrade =>
      by_cases hmarket : o.bondId = bond ∧ o.quoteAsset = asset
      · obtain ⟨rfl, rfl⟩ := hmarket
        refine .filled ?_ (hw.priced _ o hfound) (hm ▸ htrade)
        simp only [fillIn, hpurchase, hfound, and_self, if_true]
      · refine .quiet ?_ ?_ fun r hr => ?_
        · simp only [fillIn, hpurchase, hfound]
          exact if_neg hmarket
        · rw [hledger, htrade.book]
          simp only [MarketBook.tally, update_pair_apply]
          exact if_neg fun heq => hmarket ⟨heq.1.symm, heq.2.symm⟩
        · rw [hreference, htrade.book] at hr
          exact .inl hr
  | aside haside =>
      refine .quiet (fillIn_of_purchase_none (DexCall.purchase_of_not_onMarket haside) ..) ?_
        fun r hr => ?_
      · rw [hledger]
        rfl
      · rw [hreference] at hr
        exact .inl hr

theorem DexWorld.marketStep {w : DexWorld} (hw : w.dex.listings.Sound) (i : DexInput) (bond : Nat)
    (asset : Symbol) : MarketStep w (w.step i).1 (dexMachine.event w i) bond asset := by
  show MarketStep w (w.step i).1 ⟨w, i, (w.step i).2, (w.step i).1⟩ bond asset
  have hcases := w.market_cases i
  generalize (w.step i).1 = w' at hcases
  generalize (w.step i).2 = reply at hcases
  cases hcases with
  | aside hdex =>
      refine .quiet ?_ ?_ fun r hr => .inl ?_
      · cases i with
        | issuer input => rfl
        | dex env call => rfl
      · rw [hdex]
      · rw [← hdex]
        exact hr
  | moved h hmove =>
      subst h
      exact hmove.marketStep hw bond asset

/-- Time does not go back. -/
theorem IssuerWorld.clock_le (w : IssuerWorld) (input : IssuerInput) :
    w.clock.sequence ≤ (w.step input).1.clock.sequence ∧
      w.clock.timestamp ≤ (w.step input).1.clock.timestamp := by
  cases input with
  | close ledgers seconds => exact ⟨Nat.le_add_right .., Nat.le_add_right ..⟩
  | tokens balances => exact ⟨le_refl _, le_refl _⟩
  | call env call =>
      simp only [step]
      split
      · exact ⟨le_refl _, le_refl _⟩
      · exact ⟨le_refl _, le_refl _⟩

theorem DexWorld.clock_le (w : DexWorld) (i : DexInput) :
    w.base.clock.sequence ≤ (w.step i).1.base.clock.sequence ∧
      w.base.clock.timestamp ≤ (w.step i).1.base.clock.timestamp := by
  have hcases := w.step_cases i
  generalize (w.step i).1 = w' at hcases
  generalize (w.step i).2 = reply at hcases
  cases hcases with
  | @outside input _ => exact w.base.clock_le input
  | failed _ | moved _ _ => exact ⟨le_refl _, le_refl _⟩

/-! ## Runs -/

/-- **The ledger of a market is the tally of its fills.** -/
structure MarketSound (es : List DexEvent) (w : DexWorld) (bond : Nat) (asset : Symbol) : Prop where
  tally : EpochTally.Holds (fills bond asset es)
    ((w.dex.marketLedger bond asset).map MarketLedger.toTally)
  past : ∀ x ∈ fills bond asset es, x.epoch ≤ w.base.clock.sequence
  priced : ∀ x ∈ fills bond asset es, 0 < x.mark
  referred : ∀ r, w.dex.oracleReference bond asset = some r → 0 < r.twapPrice

section Sound

variable {es : List DexEvent} {w w' : DexWorld} {e : DexEvent} {bond : Nat} {asset : Symbol}

theorem MarketSound.snoc (h : MarketSound es w bond asset)
    (hclock : w.base.clock.sequence ≤ w'.base.clock.sequence)
    (hstep : MarketStep w w' e bond asset) : MarketSound (es ++ [e]) w' bond asset := by
  cases hstep with
  | @filled price proceeds config reference ledger hfill hpriced htrade =>
      have hledger : w'.dex.marketLedger bond asset = some ledger := by
        show w'.dex.markets.ledger bond asset = some ledger
        rw [htrade.book]
        simp only [MarketBook.tally, update_pair_apply, and_self, if_true]
      have hreference : w'.dex.oracleReference = w.dex.oracleReference := by
        show w'.dex.markets.reference = _
        rw [htrade.book]
        rfl
      refine ⟨?_, fun x hx => ?_, fun x hx => ?_, ?_⟩
      · rw [fills_snoc_some hfill, hledger, Option.map_some, htrade.recorded]
        exact h.tally.record h.past
      · rw [fills_snoc_some hfill] at hx
        rcases mem_append.mp hx with hx | hx
        · exact le_trans (h.past x hx) hclock
        · rw [mem_singleton.mp hx]
          exact hclock
      · rw [fills_snoc_some hfill] at hx
        rcases mem_append.mp hx with hx | hx
        · exact h.priced x hx
        · rw [mem_singleton.mp hx]
          exact hpriced
      · rw [hreference]
        exact h.referred
  | quiet hfill hledger hreferred =>
      refine ⟨?_, fun x hx => ?_, fun x hx => ?_, fun r hr => ?_⟩
      · rw [fills_snoc_none hfill, hledger]
        exact h.tally
      · rw [fills_snoc_none hfill] at hx
        exact le_trans (h.past x hx) hclock
      · rw [fills_snoc_none hfill] at hx
        exact h.priced x hx
      · rcases hreferred r hr with hold | hnew
        · exact h.referred r hold
        · exact hnew

/-- What the guard promises of a fill: it passed under the configuration and the reference in
force, with the first price and the volume of the fills of its ledger up to and with it. -/
def FillGuarded (w : DexWorld) (bond : Nat) (asset : Symbol) (xs : List (EpochEntry Int))
    (x : EpochEntry Int) : Prop :=
  ∃ config reference first, w.dex.marketConfig bond asset = some config ∧
    w.dex.oracleReference bond asset = some reference ∧
    EpochTally.firstMark x.epoch xs = some first ∧
    GuardPassed w.base.clock config reference first x.mark (EpochTally.epochTotal x.epoch xs)

theorem MarketSound.guarded (h : MarketSound es w bond asset)
    (hstep : MarketStep w w' e bond asset) {x : EpochEntry Int} (hx : fillIn bond asset e = some x) :
    x.epoch = w.base.clock.sequence ∧ FillGuarded w bond asset (fills bond asset (es ++ [e])) x := by
  cases hstep with
  | @filled price proceeds config reference ledger hfill hpriced htrade =>
      obtain rfl := Option.some.inj (hfill.symm.trans hx)
      refine ⟨rfl, config, reference, ledger.firstPrice, htrade.configured, htrade.referred, ?_⟩
      rw [fills_snoc_some hfill]
      -- the tally the fill leaves is the one of its ledger
      have htally := h.tally.record (x := ⟨w.base.clock.sequence, price, proceeds⟩) h.past
      have hrecorded : EpochTally.record ((w.dex.marketLedger bond asset).map MarketLedger.toTally)
          ⟨w.base.clock.sequence, price, proceeds⟩ = ledger.toTally := htrade.recorded.symm
      rw [hrecorded] at htally
      have hepoch : ledger.toTally.epoch = w.base.clock.sequence := by
        have hcurrent := (h.tally.current (x := ⟨w.base.clock.sequence, price, proceeds⟩) h.past).1
        exact (congrArg EpochTally.epoch hrecorded).symm.trans hcurrent
      obtain ⟨-, hfirst, htotal⟩ := htally
      rw [hepoch] at hfirst htotal
      have hpositive : 0 < ledger.firstPrice := by
        obtain ⟨y, hy, -, hmark⟩ := EpochTally.mem_of_firstMark hfirst
        have hmark' : y.mark = ledger.firstPrice := hmark
        rw [← hmark']
        rcases mem_append.mp hy with hy | hy
        · exact h.priced y hy
        · rw [mem_singleton.mp hy]
          exact hpriced
      have hpassed := htrade.passed (le_of_lt (h.referred _ htrade.referred)) (le_of_lt hpositive)
      refine ⟨hfirst, ?_⟩
      rw [htotal]
      exact hpassed
  | quiet hfill _ _ =>
      rw [hfill] at hx
      cases hx

end Sound

theorem dexRun_market_sound (base : IssuerWorld) (admin : Address) (l : List DexInput) (bond : Nat)
    (asset : Symbol) :
    MarketSound (dexHistory base admin l) (dexRun base admin l) bond asset := by
  refine dexHistory_induct base admin (P := fun es w => MarketSound es w bond asset) ?_
    (fun l i h => ?_) l
  · refine ⟨rfl, fun x hx => ?_, fun x hx => ?_, fun r hr => ?_⟩
    · cases hx
    · cases hx
    · cases hr
  · exact h.snoc ((dexRun base admin l).clock_le i).1
      (DexWorld.marketStep (dexRun_listings_sound base admin l) i bond asset)

/-- **The market guard bounds every ledger.** In every run, every fill of a market, direct or
revealed, executed while the market was running and its reference fresh, within the bands of the
reference and of the first fill of its ledger; and what the fills of the ledger cost up to then is
within the limit in force. -/
theorem fills_guarded (base : IssuerWorld) (admin : Address) (l : List DexInput) :
    Machine.Guarded
      (fun before e => ∀ bond asset x, fillIn bond asset e = some x →
        x.epoch = e.pre.base.clock.sequence ∧
          FillGuarded e.pre bond asset (fills bond asset (before ++ [e])) x)
      (dexHistory base admin l) := by
  refine dexMachine.guarded_intro (fun l i bond asset x hx => ?_) l
  have hsound := dexRun_market_sound base admin l bond asset
  exact hsound.guarded (DexWorld.marketStep (dexRun_listings_sound base admin l) i bond asset) hx

end VerdantBond
