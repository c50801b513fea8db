import VerdantBond.Dex.State

set_option autoImplicit false

/-! # DEXRouter: the market guard

The oracle reference and the throughput limits of a market, a bond traded in a quote asset. Every
fill passes `record_market_trade` and leaves a price observation. None of it touches orders,
escrow or balances.
-/

namespace VerdantBond

open Function

/-- `exceeds_deviation`. -/
def exceedsDeviation (actual reference : Int) (bps : Nat) : Outcome DEXError Bool := do
  let signed ← okOr (i128 (actual - reference)) .overflow
  let difference ← okOr (i128 |signed|) .overflow
  let scaled ← okOr (i128 (reference * bps)) .overflow
  let allowance := scaled.tdiv basisPoints
  pure (decide (allowance < difference))

namespace DEXRouter

/-- The ledger of a market as a trade finds it: a new ledger sequence starts it afresh. -/
def marketLedgerAt (clock : Clock) (s : DEXRouter) (bond : Nat) (asset : Symbol) (price : Int) :
    MarketLedger :=
  match s.marketLedger bond asset with
  | some ledger => if ledger.sequence = clock.sequence then ledger else ⟨clock.sequence, price, 0⟩
  | none => ⟨clock.sequence, price, 0⟩

/-- `record_market_trade`. -/
def recordMarketTrade (clock : Clock) (s : DEXRouter) (bond : Nat) (asset : Symbol)
    (price proceeds : Int) : Outcome DEXError DEXRouter := do
  let config ← okOr (s.marketConfig bond asset) .marketNotConfigured
  let reference ← okOr (s.oracleReference bond asset) .marketNotConfigured
  reject (clock.timestamp < reference.pauseUntil) .oraclePaused
  reject (clock.timestamp < reference.observedAt ∨
    config.maximumOracleAgeSeconds < clock.timestamp - reference.observedAt) .oracleStale
  let offReference ← exceedsDeviation price reference.twapPrice config.maximumTradeDeviationBps
  reject (offReference = true) .priceDeviationExceeded
  let ledger := s.marketLedgerAt clock bond asset price
  let offLedger ← exceedsDeviation price ledger.firstPrice config.maximumBlockDeviationBps
  reject (offLedger = true) .priceDeviationExceeded
  let volume ← okOr (i128 (ledger.quoteVolume + proceeds)) .overflow
  reject (config.maximumLedgerQuoteVolume < volume) .ledgerVolumeExceeded
  pure { s with
    marketLedger := update s.marketLedger bond
      (update (s.marketLedger bond) asset (some { ledger with quoteVolume := volume })) }

/-- The observations after a trade at a time: one for each timestamp, the last of them newest. -/
def observe (timestamp : Nat) (price : Int) (obs : List PriceObservation) :
    List PriceObservation :=
  match obs.getLast? with
  | some last =>
      if last.timestamp = timestamp then obs.dropLast ++ [⟨timestamp, price⟩]
      else obs ++ [⟨timestamp, price⟩]
  | none => obs ++ [⟨timestamp, price⟩]

/-- `record_price_observation`: observe, and keep the most recent ones. -/
def recordPriceObservation (clock : Clock) (s : DEXRouter) (bondId : Nat) (quoteAsset : Symbol)
    (price : Int) : DEXRouter :=
  let obs := observe clock.timestamp price (s.priceObs bondId quoteAsset)
  { s with
    priceObs := update s.priceObs bondId
      (update (s.priceObs bondId) quoteAsset (obs.drop (obs.length - maxPriceObs))) }

/-! ## Configuration -/

def configureMarket (env : DexEnv) (s : DEXRouter) (caller : Address) (bondId : Nat)
    (quoteAsset : Symbol) (config : MarketConfig) (nonce : Nat) : Outcome DEXError DEXRouter := do
  requireAuth env.toEnv caller
  let s₁ ← s.consumeNonceChecked caller nonce
  s₁.requireAdmin caller
  reject (config.minimumOracleVolume ≤ 0 ∨ basisPoints < config.maximumTradeDeviationBps ∨
    basisPoints < config.maximumBlockDeviationBps ∨
    basisPoints < config.circuitBreakerDeviationBps ∨ config.maximumLedgerQuoteVolume ≤ 0 ∨
    config.maximumOracleAgeSeconds = 0 ∨ config.divergenceGraceSeconds = 0) .invalidMarketConfig
  pure { s₁ with
    marketConfig := update s.marketConfig bondId
      (update (s.marketConfig bondId) quoteAsset (some config)) }

/-- The pause after an update: a divergent one starts a grace period, any other keeps the pause. -/
def pauseAfter (clock : Clock) (config : MarketConfig) (previous : Option OracleReference)
    (twapPrice : Int) (observedAt : Nat) : Outcome DEXError Nat :=
  match previous with
  | some previous => do
      reject (observedAt ≤ previous.observedAt) .oracleStale
      let divergent ← exceedsDeviation twapPrice previous.twapPrice
        config.circuitBreakerDeviationBps
      if divergent then okOr (u64 (clock.timestamp + config.divergenceGraceSeconds)) .overflow
      else pure previous.pauseUntil
  | none => pure 0

def updateOracleReference (env : DexEnv) (clock : Clock) (s : DEXRouter) (caller : Address)
    (bondId : Nat) (quoteAsset : Symbol) (twapPrice : Int) (observedAt : Nat) (sampleVolume : Int)
    (nonce : Nat) : Outcome DEXError DEXRouter := do
  requireAuth env.toEnv caller
  let s₁ ← s.consumeNonceChecked caller nonce
  s₁.requireAdmin caller
  let config ← okOr (s.marketConfig bondId quoteAsset) .marketNotConfigured
  reject (twapPrice ≤ 0) .invalidOraclePrice
  reject (sampleVolume = 0) .oracleZeroVolume
  reject (sampleVolume < config.minimumOracleVolume) .oracleLowVolume
  reject (clock.timestamp < observedAt ∨
    config.maximumOracleAgeSeconds < clock.timestamp - observedAt) .oracleStale
  let pauseUntil ← pauseAfter clock config (s.oracleReference bondId quoteAsset) twapPrice observedAt
  pure { s₁ with
    oracleReference := update s.oracleReference bondId
      (update (s.oracleReference bondId) quoteAsset
        (some ⟨twapPrice, observedAt, sampleVolume, pauseUntil⟩)) }

end DEXRouter

end VerdantBond
