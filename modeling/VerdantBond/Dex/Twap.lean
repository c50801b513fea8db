import VerdantBond.Dex.MarketGuard

set_option autoImplicit false

/-! # DEXRouter: the time-weighted average price

`compute_twap` weighs each observed price by the part of the window it was in force for. The latest
observation is in force until now, so an observation made now has no weight: what counts is the
history before now (`earlier`). A burst of fills in one timestamp leaves that history alone, with
one exception: the first of them takes a place in the bounded history, and where the history is full
the oldest observation leaves it.
-/

namespace VerdantBond

open Function List

namespace DEXRouter

/-! ## The average -/

/-- The price of an observation is in force until the next observation, or until now. -/
def segmentEnd (now : Nat) (later : List PriceObservation) : Nat :=
  min (match later with
    | next :: _ => next.timestamp
    | [] => now) now

/-- The loop of `compute_twap`: the weighted sum of the prices and the total weight. -/
def weigh (now cutoff : Nat) :
    List PriceObservation → Int → Int → Outcome DEXError (Int × Int)
  | [], weightedSum, totalWeight => pure (weightedSum, totalWeight)
  | cur :: later, weightedSum, totalWeight =>
      let segEnd := segmentEnd now later
      -- an observation older than the window carries its price forward from the cutoff
      let segStart := max cur.timestamp cutoff
      if segEnd ≤ segStart then weigh now cutoff later weightedSum totalWeight
      else do
        let weight : Int := (segEnd - segStart : Nat)
        let contribution ← okOr (i128 (cur.price * weight)) .overflow
        let weightedSum' ← okOr (i128 (weightedSum + contribution)) .overflow
        let totalWeight' ← orTrap (i128 (totalWeight + weight))
        weigh now cutoff later weightedSum' totalWeight'

/-- The average over a history. -/
def twap (clock : Clock) (obs : List PriceObservation) (windowSeconds : Nat) :
    Outcome DEXError Int := do
  reject (windowSeconds = 0) .zeroAmount
  reject (obs.length = 0) .noPriceData
  let now := clock.timestamp
  let cutoff := now - windowSeconds
  let (weightedSum, totalWeight) ← weigh now cutoff obs 0 0
  reject (totalWeight = 0) .noPriceData
  pure (weightedSum.tdiv totalWeight)

/-- `compute_twap`, which `get_twap` returns. -/
def computeTwap (clock : Clock) (s : DEXRouter) (bondId : Nat) (quoteAsset : Symbol)
    (windowSeconds : Nat) : Outcome DEXError Int :=
  twap clock (s.priceObs bondId quoteAsset) windowSeconds

end DEXRouter

open DEXRouter (segmentEnd weigh twap observe)

/-! ## The history before now -/

variable (t : Nat) (obs : List PriceObservation)

/-- The observations made before a time: all of them, or all but the latest. -/
def earlier : List PriceObservation :=
  match obs.getLast? with
  | some last => if last.timestamp = t then obs.dropLast else obs
  | none => obs

theorem earlier_snoc (price : Int) (obs : List PriceObservation) :
    earlier t (obs ++ [⟨t, price⟩]) = obs := by
  simp [earlier]

/-- The two cases of `earlier`: only an observation made at that time is left out. -/
theorem earlier_cases : (∃ price, obs = earlier t obs ++ [⟨t, price⟩]) ∨
      earlier t obs = obs ∧ ∀ last ∈ obs.getLast?, last.timestamp ≠ t := by
  rcases eq_nil_or_concat obs with rfl | ⟨init, last, rfl⟩
  · exact .inr ⟨rfl, by simp⟩
  · by_cases ht : last.timestamp = t
    · subst ht
      exact .inl ⟨last.price, by simp [earlier]⟩
    · exact .inr ⟨by simp [earlier, ht], by simpa using ht⟩

/-- An observation goes after the history before it. -/
theorem observe_eq (price : Int) (obs : List PriceObservation) :
    observe t price obs = earlier t obs ++ [⟨t, price⟩] := by
  unfold observe earlier
  cases obs.getLast? with
  | none => rfl
  | some last =>
      by_cases ht : last.timestamp = t
      · simp only [if_pos ht]
      · simp only [if_neg ht]

/-- **An observation made now weighs nothing**, and leaves the weights before it. -/
theorem weigh_snoc (now cutoff : Nat) (price : Int) (obs : List PriceObservation)
    (weightedSum totalWeight : Int) :
    weigh now cutoff (obs ++ [⟨now, price⟩]) weightedSum totalWeight
      = weigh now cutoff obs weightedSum totalWeight := by
  induction obs generalizing weightedSum totalWeight with
  | nil => simp [weigh, segmentEnd]
  | cons cur later ih =>
      -- the latest price was in force until now, and is in force until an observation made now
      have hend : segmentEnd now (later ++ [⟨now, price⟩]) = segmentEnd now later := by
        cases later with
        | nil => rfl
        | cons next rest => rfl
      simp only [cons_append, weigh, hend, ih]

/-- The average depends on the history before now only. -/
theorem twap_earlier (clock : Clock) (obs : List PriceObservation) (windowSeconds : Nat) :
    twap clock (earlier clock.timestamp obs) windowSeconds = twap clock obs windowSeconds := by
  rcases earlier_cases clock.timestamp obs with ⟨price, hobs⟩ | ⟨hall, -⟩
  · generalize earlier clock.timestamp obs = before at hobs
    subst hobs
    simp only [twap, weigh_snoc]
    cases before with
    | nil =>
        -- nothing was observed, or nothing had weight: there is no price either way
        exact bind_congr fun _ => rfl
    | cons first rest =>
        simp only [length_append, length_cons, Nat.add_eq_zero_iff, one_ne_zero, and_false]
  · rw [hall]

variable {clock : Clock} {w' : DexWorld}

/-- An oldest observation that was replaced before the window began weighs nothing. -/
theorem twap_tail {first next : PriceObservation} {rest : List PriceObservation}
    {windowSeconds : Nat} (h : next.timestamp ≤ clock.timestamp - windowSeconds) :
    twap clock (next :: rest) windowSeconds = twap clock (first :: next :: rest) windowSeconds := by
  have hend : segmentEnd clock.timestamp (next :: rest)
      ≤ max first.timestamp (clock.timestamp - windowSeconds) :=
    le_trans (min_le_left ..) (le_max_of_le_right h)
  simp only [twap, weigh, if_pos hend, length_cons, Nat.add_eq_zero_iff, one_ne_zero, and_false]

/-! ## A fill -/

/-- The history a fill leaves. -/
def record (price : Int) (obs : List PriceObservation) : List PriceObservation :=
  (observe t price obs).drop ((observe t price obs).length - maxPriceObs)

/-- What is left of the history before now when a fill has taken its place in it. -/
def displaced : List PriceObservation :=
  if obs.length = maxPriceObs then obs.tail else obs

variable {obs : List PriceObservation} {w : DexWorld} {bond : Nat} {asset : Symbol}
  {es : List DexEvent}

theorem displaced_length (h : obs.length ≤ maxPriceObs) : (displaced obs).length < maxPriceObs := by
  unfold displaced
  split
  · next hfull =>
      rw [length_tail, hfull]
      decide
  · omega

/-- The second fill in a timestamp displaces nothing. -/
theorem displaced_displaced (h : obs.length ≤ maxPriceObs) :
    displaced (displaced obs) = displaced obs :=
  if_neg (displaced_length h).ne

theorem length_record_le (price : Int) (obs : List PriceObservation) :
    (record t price obs).length ≤ maxPriceObs := by
  unfold record
  rw [length_drop]
  omega

theorem length_earlier_le (obs : List PriceObservation) : (earlier t obs).length ≤ obs.length := by
  rcases earlier_cases t obs with ⟨price, hobs⟩ | ⟨hall, -⟩
  · rw [hobs, earlier_snoc, length_append]
    omega
  · rw [hall]

/-- **What a fill does to the history before it**, whatever its price. -/
theorem earlier_record (price : Int) (h : obs.length ≤ maxPriceObs) :
    earlier t (record t price obs) = displaced (earlier t obs) := by
  have hle : (earlier t obs).length ≤ maxPriceObs := le_trans (length_earlier_le t obs) h
  unfold record displaced
  rw [observe_eq]
  generalize earlier t obs = before at hle
  by_cases hfull : before.length = maxPriceObs
  · obtain ⟨first, rest, rfl⟩ : ∃ first rest, before = first :: rest := by
      cases before with
      | nil => cases hfull
      | cons first rest => exact ⟨first, rest, rfl⟩
    have hone : (first :: rest ++ [PriceObservation.mk t price]).length - maxPriceObs = 1 := by
      rw [length_append, hfull, length_singleton]
      omega
    rw [if_pos hfull, hone]
    exact earlier_snoc t price rest
  · have hnone : (before ++ [PriceObservation.mk t price]).length - maxPriceObs = 0 := by
      rw [length_append, length_singleton]
      omega
    rw [if_neg hfull, hnone, drop_zero, earlier_snoc]

/-! ## Calls -/

/-- **What a successful call does to the histories.** -/
inductive PriceMove (clock : Clock) (order : Nat → Option Order)
    (obs : Nat → Symbol → List PriceObservation) :
    DexCall → (Nat → Symbol → List PriceObservation) → Prop where
  | trade {call : DexCall} {p : Purchase} {o : Order} (purchase : call.purchase = some p)
      (found : order p.orderId = some o) :
      PriceMove clock order obs call (update obs o.bondId (update (obs o.bondId) o.quoteAsset
        (record clock.timestamp o.pricePerToken (obs o.bondId o.quoteAsset))))
  | aside {call : DexCall} (h : call.purchase = none) : PriceMove clock order obs call obs

namespace DEXRouter

variable {env : DexEnv} {clock : Clock} {issuer issuer' : BondIssuer}

variable {s s' : DEXRouter}

theorem settlePurchase_prices {buyer : Address} {orderId : Nat} {maxPrice amount : Int}
    {nonce : Nat} (h : s.settlePurchase env clock issuer buyer orderId maxPrice amount nonce
      = .ok (s', issuer')) :
    ∃ o, s.order orderId = some o ∧
      s'.priceObs = update s.priceObs o.bondId (update (s.priceObs o.bondId) o.quoteAsset
        (record clock.timestamp o.pricePerToken (s.priceObs o.bondId o.quoteAsset))) := by
  obtain ⟨order, s₁, hpurchase, hmarket, rfl⟩ := settlePurchase_inv h
  obtain ⟨ledgers, rfl⟩ := recordMarketTrade_ok hmarket
  exact ⟨order, hpurchase.found, rfl⟩

/-- **Every successful call is a move of the histories.** -/
theorem exec_prices {call : DexCall} {reply : DexReply}
    (h : s.exec env clock issuer call = .ok (s', issuer', reply)) :
    PriceMove clock s.order s.priceObs call s'.priceObs := by
  have hexec := h
  obtain ⟨-, h⟩ := exec_ok_iff.mp h
  cases call with
  | revealPurchase buyer commitId orderId maxPrice amount salt nonce =>
      obtain ⟨hok, rfl⟩ := ofPurchase_ok h
      obtain ⟨c, _, -, hsettle⟩ := revealPurchase_ok hok
      obtain ⟨order, hfound, hprices⟩ := settlePurchase_prices hsettle
      rw [hprices]
      exact .trade rfl hfound
  | executePurchase buyer orderId maxPrice amount nonce =>
      obtain ⟨hok, rfl⟩ := ofPurchase_ok h
      obtain ⟨order, hfound, hprices⟩ := settlePurchase_prices (executePurchase_ok hok)
      rw [hprices]
      exact .trade rfl hfound
  | configureMarket caller bondId quoteAsset config nonce =>
      obtain ⟨hok, rfl, rfl⟩ := ofUnit_ok h
      rw [configureMarket_ok hok]
      exact .aside rfl
  | updateOracleReference caller bondId quoteAsset twapPrice observedAt sampleVolume nonce =>
      obtain ⟨hok, rfl, rfl⟩ := ofUnit_ok h
      obtain ⟨config, pauseUntil, -, -, -, rfl⟩ := updateOracleReference_ok hok
      exact .aside rfl
  | _ =>
      rw [(exec_aside hexec rfl).2]
      exact .aside rfl

end DEXRouter

/-! ## Steps -/

/-- The history of a market after an input: recorded by a fill of the market, else as it was. -/
inductive PriceStep (w w' : DexWorld) (e : DexEvent) (bond : Nat) (asset : Symbol) : Prop where
  | quiet (nofill : fillIn bond asset e = none)
      (same : w'.dex.priceObs bond asset = w.dex.priceObs bond asset)
  | filled {x : EpochEntry Int} (fill : fillIn bond asset e = some x)
      (now : w'.base.clock = w.base.clock)
      (recorded : w'.dex.priceObs bond asset
        = record w.base.clock.timestamp x.mark (w.dex.priceObs bond asset))

theorem PriceMove.priceStep {env : DexEnv} {call : DexCall} {reply : DexReply}
    (h : PriceMove w.base.clock w.dex.order w.dex.priceObs call w'.dex.priceObs)
    (hnow : w'.base.clock = w.base.clock) (bond : Nat) (asset : Symbol) :
    PriceStep w w' ⟨w, .dex env call, some reply, w'⟩ bond asset := by
  generalize hobs : w'.dex.priceObs = obs at h
  cases h with
  | @trade p o hpurchase hfound =>
      by_cases hmarket : o.bondId = bond ∧ o.quoteAsset = asset
      · obtain ⟨rfl, rfl⟩ := hmarket
        refine @PriceStep.filled _ _ _ _ _
          ⟨w.base.clock.sequence, o.pricePerToken, p.amount * o.pricePerToken⟩ ?_ hnow ?_
        · simp only [fillIn, hpurchase, hfound, and_self, if_true]
        · rw [hobs, update_pair_apply]
          exact if_pos ⟨rfl, rfl⟩
      · refine .quiet ?_ ?_
        · simp only [fillIn, hpurchase, hfound]
          exact if_neg hmarket
        · rw [hobs, update_pair_apply]
          exact if_neg fun heq => hmarket ⟨heq.1.symm, heq.2.symm⟩
  | aside haside => exact .quiet (fillIn_of_purchase_none haside ..) (congrFun (congrFun hobs _) _)

theorem DexWorld.priceStep (w : DexWorld) (i : DexInput) (bond : Nat) (asset : Symbol) :
    PriceStep w (w.step i).1 (dexMachine.event w i) bond asset := by
  show PriceStep w (w.step i).1 ⟨w, i, (w.step i).2, (w.step i).1⟩ bond asset
  cases i with
  | issuer input => exact .quiet rfl rfl
  | dex env call =>
      rcases w.step_dex env call with hstep | ⟨dex, issuer, reply, hexec, hstep⟩
      · rw [hstep]
        exact .quiet rfl rfl
      · rw [hstep]
        have hmove : PriceMove w.base.clock w.dex.order w.dex.priceObs call
            (⟨{ w.base with issuer := issuer }, dex⟩ : DexWorld).dex.priceObs :=
          DEXRouter.exec_prices hexec
        exact hmove.priceStep rfl bond asset

/-! ## Bursts -/

/-- A history with no room for one more timestamp. -/
def Crowded (obs : List PriceObservation) : Prop :=
  obs.length = maxPriceObs ∧ ∀ last ∈ obs.getLast?, last.timestamp ≠ t

/-- A fill takes the place of the oldest observation exactly in a crowded history. -/
theorem displaced_earlier (h : obs.length ≤ maxPriceObs) :
    Crowded t obs ∧ displaced (earlier t obs) = obs.tail ∨
      ¬ Crowded t obs ∧ displaced (earlier t obs) = earlier t obs := by
  rcases earlier_cases t obs with ⟨price, hobs⟩ | ⟨hall, hlast⟩
  · -- the latest observation was made at this time: there is room for another in its place
    have hlength : obs.length = (earlier t obs).length + 1 := by
      rw [hobs, earlier_snoc, length_append, length_singleton]
    refine .inr ⟨fun hcrowded => ?_, if_neg (by omega)⟩
    refine hcrowded.2 ⟨t, price⟩ ?_ rfl
    rw [hobs]
    simp
  · by_cases hfull : obs.length = maxPriceObs
    · exact .inl ⟨⟨hfull, hlast⟩, by rw [hall]; exact if_pos hfull⟩
    · exact .inr ⟨fun hcrowded => hfull hcrowded.1, by rw [hall]; exact if_neg hfull⟩

/-- What a run of inputs has done to the history of a market, while its time has not moved on. -/
structure BurstHistory (w : DexWorld) (bond : Nat) (asset : Symbol) (es : List DexEvent)
    (w' : DexWorld) : Prop where
  later : w.base.clock.timestamp ≤ w'.base.clock.timestamp
  bounded : (w'.dex.priceObs bond asset).length ≤ maxPriceObs
  before : w'.base.clock.timestamp = w.base.clock.timestamp →
    earlier w.base.clock.timestamp (w'.dex.priceObs bond asset)
      = if fills bond asset es = [] then
          earlier w.base.clock.timestamp (w.dex.priceObs bond asset)
        else displaced (earlier w.base.clock.timestamp (w.dex.priceObs bond asset))

theorem BurstHistory.snoc {w'' : DexWorld} {e : DexEvent}
    (hbound : (w.dex.priceObs bond asset).length ≤ maxPriceObs)
    (h : BurstHistory w bond asset es w') (hle : w'.base.clock.timestamp ≤ w''.base.clock.timestamp)
    (hstep : PriceStep w' w'' e bond asset) : BurstHistory w bond asset (es ++ [e]) w'' := by
  have hbefore := le_trans (length_earlier_le w.base.clock.timestamp _) hbound
  have hlater := h.later
  cases hstep with
  | quiet hnofill hsame =>
      refine ⟨le_trans h.later hle, hsame ▸ h.bounded, fun hnow => ?_⟩
      rw [hsame, fills_snoc_none hnofill]
      exact h.before (by omega)
  | filled hfill hnow hrecorded =>
      refine ⟨le_trans h.later hle, hrecorded ▸ length_record_le .., fun hsame => ?_⟩
      rw [hnow] at hsame
      have hfilled : fills bond asset (es ++ [e]) ≠ [] := by
        rw [fills_snoc_some hfill]
        exact append_ne_nil_of_right_ne_nil _ (cons_ne_nil _ _)
      rw [if_neg hfilled, hrecorded, hsame, earlier_record _ _ h.bounded, h.before hsame]
      -- the first fill takes a place; a later one finds the place taken by the first
      split
      · rfl
      · exact displaced_displaced hbefore

theorem dexRun_bounded (base : IssuerWorld) (admin : Address) (l : List DexInput) (bond : Nat)
    (asset : Symbol) : ((dexRun base admin l).dex.priceObs bond asset).length ≤ maxPriceObs := by
  refine dexMachine.run_invariant
    (P := fun w => (w.dex.priceObs bond asset).length ≤ maxPriceObs) (Nat.zero_le _)
    (fun w i hbound => ?_) l
  cases w.priceStep i bond asset with
  | quiet _ hsame => exact hsame ▸ hbound
  | filled _ _ hrecorded => exact hrecorded ▸ length_record_le ..

theorem burst_history (base : IssuerWorld) (admin : Address) (l burst : List DexInput) (bond : Nat)
    (asset : Symbol) :
    BurstHistory (dexRun base admin l) bond asset (dexMachine.history (dexRun base admin l) burst)
      (dexMachine.run (dexRun base admin l) burst) := by
  have hbound := dexRun_bounded base admin l bond asset
  refine dexMachine.history_induct (P := BurstHistory (dexRun base admin l) bond asset)
    ⟨le_refl _, hbound, fun _ => rfl⟩ (fun b i h => ?_) burst
  exact h.snoc hbound (DexWorld.clock_le _ i).2 (DexWorld.priceStep _ i bond asset)

theorem twap_congr {clock' : Clock} (h : clock'.timestamp = clock.timestamp)
    (obs : List PriceObservation) (windowSeconds : Nat) :
    twap clock' obs windowSeconds = twap clock obs windowSeconds := by
  simp only [twap, h]

/-- **What a burst can do to the average**: nothing, unless the history is crowded and the market
trades. Then the oldest observation is lost, whatever was traded and at what price, and the average
is the same still if that observation was replaced before the window began. -/
structure BurstTwap (w w' : DexWorld) (es : List DexEvent) (bond : Nat) (asset : Symbol)
    (windowSeconds : Nat) : Prop where
  unmoved : ¬ (Crowded w.base.clock.timestamp (w.dex.priceObs bond asset) ∧
      fills bond asset es ≠ []) →
    w'.dex.computeTwap w'.base.clock bond asset windowSeconds
      = w.dex.computeTwap w.base.clock bond asset windowSeconds
  displaced : Crowded w.base.clock.timestamp (w.dex.priceObs bond asset) →
    fills bond asset es ≠ [] →
    w'.dex.computeTwap w'.base.clock bond asset windowSeconds
      = twap w.base.clock (w.dex.priceObs bond asset).tail windowSeconds
  covered : ∀ next ∈ (w.dex.priceObs bond asset)[1]?,
    next.timestamp ≤ w.base.clock.timestamp - windowSeconds →
    w'.dex.computeTwap w'.base.clock bond asset windowSeconds
      = w.dex.computeTwap w.base.clock bond asset windowSeconds

/-- The average after a burst, from the history before now that the burst left. -/
theorem BurstHistory.computeTwap (h : BurstHistory w bond asset es w')
    (hnow : w'.base.clock.timestamp = w.base.clock.timestamp) (windowSeconds : Nat) :
    w'.dex.computeTwap w'.base.clock bond asset windowSeconds
      = twap w.base.clock
          (if fills bond asset es = [] then
            earlier w.base.clock.timestamp (w.dex.priceObs bond asset)
          else displaced (earlier w.base.clock.timestamp (w.dex.priceObs bond asset)))
          windowSeconds := by
  unfold DEXRouter.computeTwap
  rw [twap_congr hnow, ← h.before hnow, twap_earlier]

/-- **A burst of fills in one timestamp moves the average only by crowding out the oldest
observation.** -/
theorem twap_after_burst (base : IssuerWorld) (admin : Address) (l burst : List DexInput)
    (bond : Nat) (asset : Symbol) (windowSeconds : Nat)
    (hnow : (dexRun base admin (l ++ burst)).base.clock.timestamp
      = (dexRun base admin l).base.clock.timestamp) :
    BurstTwap (dexRun base admin l) (dexRun base admin (l ++ burst))
      (dexMachine.history (dexRun base admin l) burst) bond asset windowSeconds := by
  have hrun : dexRun base admin (l ++ burst) = dexMachine.run (dexRun base admin l) burst :=
    dexMachine.run_append _ l burst
  rw [hrun] at hnow ⊢
  have htwap := (burst_history base admin l burst bond asset).computeTwap hnow windowSeconds
  have hlength := dexRun_bounded base admin l bond asset
  generalize dexMachine.history (dexRun base admin l) burst = es at htwap
  generalize dexMachine.run (dexRun base admin l) burst = w' at htwap
  generalize dexRun base admin l = w at htwap hlength
  have hunmoved : twap w.base.clock (earlier w.base.clock.timestamp (w.dex.priceObs bond asset))
      windowSeconds = w.dex.computeTwap w.base.clock bond asset windowSeconds := twap_earlier ..
  by_cases hfills : fills bond asset es = []
  · rw [if_pos hfills, hunmoved] at htwap
    exact ⟨fun _ => htwap, fun _ hne => absurd hfills hne, fun _ _ _ => htwap⟩
  · rw [if_neg hfills] at htwap
    rcases displaced_earlier w.base.clock.timestamp hlength with ⟨hcrowded, hleft⟩ | ⟨hroom, hleft⟩
    · rw [hleft] at htwap
      refine ⟨fun hnot => absurd ⟨hcrowded, hfills⟩ hnot, fun _ _ => htwap, fun next hnext hold => ?_⟩
      rw [htwap]
      unfold DEXRouter.computeTwap
      generalize w.dex.priceObs bond asset = obs at hnext
      -- the history has a second observation, so it is not only the oldest
      match obs, hnext with
      | first :: second :: rest, hnext =>
          obtain rfl : second = next := by simpa using hnext
          exact twap_tail hold
    · rw [hleft, hunmoved] at htwap
      exact ⟨fun _ => htwap, fun hcrowded => absurd hcrowded hroom, fun _ _ _ => htwap⟩

/-! ## A fill that crowds out the oldest price -/

/-- An investor who holds fifty units of bond one. -/
def sampleHolding : IssuerWorld :=
  issuerRun ⟨10, 100⟩ ⟨0⟩ ⟨1⟩
    [.call sampleEnv (.issueBond ⟨1⟩ sampleConfig 0), .call sampleEnv (.subscribe ⟨2⟩ 1 50 0)]

/-- One unit is bought from the second order. -/
def sampleFill (nonce : Nat) : DexInput :=
  .dex sampleDexEnv (.executePurchase ⟨3⟩ 2 300 1 nonce)

/-- One unit is traded at 100, and then one at 300 every ten seconds, until the history is full. -/
def sampleTrades : List DexInput :=
  [.dex sampleDexEnv
      (.configureMarket ⟨1⟩ 1 "USDC" ⟨1, 10000, 10000, 10000, 1000000, 1000000, 5000⟩ 0),
    .dex sampleDexEnv (.updateOracleReference ⟨1⟩ 1 "USDC" 200 10 1 1),
    .dex sampleDexEnv (.listBondTokens ⟨2⟩ 1 1 100 "USDC" 100000 0),
    .dex sampleDexEnv (.listBondTokens ⟨2⟩ 1 40 300 "USDC" 100000 1),
    .dex sampleDexEnv (.depositQuote ⟨3⟩ "USDC" 1000000 0),
    .dex sampleDexEnv (.executePurchase ⟨3⟩ 1 100 1 1)] ++
  ((List.range 31).flatMap fun n => [.issuer (.close 1 10), sampleFill (n + 2)]) ++
  [.issuer (.close 1 10)]

theorem twap_after_burst_sample :
    BurstTwap (dexRun sampleHolding ⟨1⟩ sampleTrades)
      (dexRun sampleHolding ⟨1⟩ (sampleTrades ++ [sampleFill 33]))
      (dexMachine.history (dexRun sampleHolding ⟨1⟩ sampleTrades) [sampleFill 33]) 1 "USDC" 5000 :=
  twap_after_burst sampleHolding ⟨1⟩ sampleTrades [sampleFill 33] 1 "USDC" 5000 (by decide +kernel)

/-- The next fill, in the same timestamp, moves the average from 293 to 300. -/
theorem burst_moves_twap :
    (dexRun sampleHolding ⟨1⟩ (sampleTrades ++ [sampleFill 33])).base.clock
        = (dexRun sampleHolding ⟨1⟩ sampleTrades).base.clock ∧
      (dexRun sampleHolding ⟨1⟩ sampleTrades).dex.computeTwap
        (dexRun sampleHolding ⟨1⟩ sampleTrades).base.clock 1 "USDC" 5000 = .ok 293 ∧
      (dexRun sampleHolding ⟨1⟩ (sampleTrades ++ [sampleFill 33])).dex.computeTwap
        (dexRun sampleHolding ⟨1⟩ (sampleTrades ++ [sampleFill 33])).base.clock 1 "USDC" 5000
          = .ok 300 := by
  decide +kernel

end VerdantBond
