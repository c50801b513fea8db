import Mathlib.Data.Rat.Defs
import VerdantBond.Lib.Search
import VerdantBond.Lib.Utf16

set_option autoImplicit false

/-! # PriceImpactService: the impact of a purchase on the order book

A purchase walks the open asks from the cheapest on. Its price impact is what it costs above the best
price, in basis points of the cost at the best price, rounded down. The service allows a purchase that
the book can fill, whose impact is within the limit of the book's tier and which takes no more than a
share of the depth of an illiquid book; and it suggests a largest size. Here is the service's function
and the walk: the cost of the cheapest units is convex in their number, so the impact grows with the
size (`impactAt_mono`) and what is allowed is closed downwards (`Permits.mono`).
-/

namespace VerdantBond

/-! ## The service -/

inductive LiquidityTier where
  | liquid
  | moderate
  | illiquid
  deriving DecidableEq, Repr

/-- The thresholds are the numbers `BigInt` reads from their texts; a limit in basis points is any
number. -/
structure PriceImpactConfig where
  illiquidThresholdAmount : Int
  moderateThresholdAmount : Int
  tierImpactLimitsBps : LiquidityTier → ℚ
  maxIlliquidDepthConsumptionBps : ℚ

/-- `DEFAULT_PRICE_IMPACT_CONFIG`. -/
def defaultPriceImpactConfig : PriceImpactConfig where
  illiquidThresholdAmount := 5000
  moderateThresholdAmount := 25000
  tierImpactLimitsBps := fun tier =>
    match tier with
    | .liquid => 300
    | .moderate => 600
    | .illiquid => 1000
  maxIlliquidDepthConsumptionBps := 5000

/-- An open sell order of the bond, as `listOrders` returns it. -/
structure OrderResponse where
  amount : Nat
  pricePerToken : Nat
  quoteAsset : JsString
  deriving DecidableEq, Repr

/-- Why a purchase is not allowed, with the numbers the text quotes. -/
inductive ImpactRejection where
  | noSellOrders
  | insufficientDepth (requestedAmount totalAvailableDepth : Nat)
  | priceImpact (priceImpactBps : Int) (maxAllowedImpactBps : ℚ) (tier : LiquidityTier)
  | depthConsumption (depthConsumptionRatioBps : Nat) (maxIlliquidDepthConsumptionBps : ℚ)
  deriving DecidableEq

structure PriceImpactEvaluation where
  requestedAmount : Nat
  quoteAsset : JsString
  liquidityTier : LiquidityTier
  availableDepth : Nat
  bestPrice : Nat
  marginalPrice : Nat
  averageExecutionPrice : Nat
  totalCost : Nat
  priceImpactBps : Int
  maxAllowedImpactBps : ℚ
  isAllowed : Bool
  depthConsumptionRatioBps : Nat
  maxDepthConsumptionBps : ℚ
  reason : Option ImpactRejection
  suggestedMaxAmount : Int

inductive PriceImpactError where
  | badRequest (message : String)
  /-- `BigInt` of a number that is not an integer. -/
  | rangeError
  deriving DecidableEq, Repr

def classifyLiquidityTier (availableDepth : Nat) (config : PriceImpactConfig) : LiquidityTier :=
  if (availableDepth : Int) < config.illiquidThresholdAmount then .illiquid
  else if (availableDepth : Int) < config.moderateThresholdAmount then .moderate
  else .liquid

/-- The test `/^[1-9]\d*$/`, and the number `BigInt` reads. -/
def parseAmount : JsString → Option Nat
  | [] => none
  | first :: rest =>
      if IsDigit first ∧ first ≠ unit '0' ∧ rest.all IsDigit then some (ofDecimal (first :: rest))
      else none

def toBigInt (x : ℚ) : Option Int := if x.den = 1 then some x.num else none

variable (config : PriceImpactConfig) (orders asks : List OrderResponse)

/-- The asks in the quote asset, the cheapest first. -/
def sortAsks (quoteAsset : JsString) : List OrderResponse :=
  (orders.filter fun o => o.quoteAsset = quoteAsset).insertionSort
    fun a b => a.pricePerToken ≤ b.pricePerToken

/-- The cheapest come first. -/
abbrev ByPrice : Prop := asks.Pairwise fun a b => a.pricePerToken ≤ b.pricePerToken

/-- The sum of the amounts, `totalAvailableDepth`. -/
def depthOf : Nat := (asks.map OrderResponse.amount).sum

/-- The price of the first ask; read of a book that has one. -/
def bestPriceOf : List OrderResponse → Nat
  | [] => 0
  | ask :: _ => ask.pricePerToken

/-- The variables of the loop over the asks. -/
structure AskFill where
  remaining : Nat
  totalCost : Nat
  totalFilled : Nat
  marginalPrice : Nat

def fillAsks : List OrderResponse → AskFill → AskFill
  | [], fill => fill
  | ask :: asks, fill =>
      if fill.remaining = 0 then fill
      else
        let take := if fill.remaining < ask.amount then fill.remaining else ask.amount
        fillAsks asks ⟨fill.remaining - take, fill.totalCost + take * ask.pricePerToken,
          fill.totalFilled + take, ask.pricePerToken⟩

/-- The same loop inside the search: `curRem` and `curCost`. -/
def scanCost : List OrderResponse → Nat → Nat → Nat
  | [], _, curCost => curCost
  | ask :: asks, curRem, curCost =>
      if curRem = 0 then curCost
      else
        let t := if curRem < ask.amount then curRem else ask.amount
        scanCost asks (curRem - t) (curCost + t * ask.pricePerToken)

/-- The excess of a cost over the ideal cost, in basis points. `Number` of the quotient is taken to be
the quotient: from 2^53 basis points on it is rounded, far above what a limit is. -/
def impactBps (totalCost idealCost : Nat) : Int :=
  if 0 < idealCost then (((totalCost : Int) - idealCost) * 10000).tdiv idealCost else 0

/-- The depth, or in an illiquid book what the depth cap leaves of it; `none` if `BigInt` throws. -/
def suggestedCap (tier : LiquidityTier) (depth : Nat) : Option Int :=
  if tier = .illiquid then
    match toBigInt config.maxIlliquidDepthConsumptionBps with
    | none => none
    | some bps =>
        let depthCap := ((depth : Int) * bps).tdiv 10000
        some (if depthCap < depth then depthCap else depth)
  else some depth

/-- The cap, unless the request itself is above the limit: then the search below cap and request. -/
def suggestedMax (limit : ℚ) (requestedAmount : Nat) (priceImpactBps : Int) (cap : Int) : Int :=
  let scanAmount := if cap < requestedAmount then cap else requestedAmount
  if limit < priceImpactBps then
    bisect (fun mid =>
      (impactBps (scanCost asks mid.toNat 0) (mid.toNat * bestPriceOf asks) : ℚ) ≤ limit) 1 scanAmount 0
  else cap

def evaluateAsks (quoteAsset : JsString) (requestedAmount : Nat) :
    Except PriceImpactError PriceImpactEvaluation :=
  let depth := depthOf asks
  let tier := classifyLiquidityTier depth config
  let limit := config.tierImpactLimitsBps tier
  if asks = [] ∨ depth = 0 then
    .ok {
      requestedAmount := requestedAmount
      quoteAsset := quoteAsset
      liquidityTier := tier
      availableDepth := 0
      bestPrice := 0
      marginalPrice := 0
      averageExecutionPrice := 0
      totalCost := 0
      priceImpactBps := 0
      maxAllowedImpactBps := limit
      isAllowed := false
      depthConsumptionRatioBps := 10000
      maxDepthConsumptionBps := config.maxIlliquidDepthConsumptionBps
      reason := some .noSellOrders
      suggestedMaxAmount := 0 }
  else
    let bestPrice := bestPriceOf asks
    let fill := fillAsks asks ⟨requestedAmount, 0, 0, bestPrice⟩
    let priceImpactBps := impactBps fill.totalCost (fill.totalFilled * bestPrice)
    let ratio := requestedAmount * 10000 / depth
    let reason : Option ImpactRejection :=
      if 0 < fill.remaining then some (.insufficientDepth requestedAmount depth)
      else if limit < priceImpactBps then some (.priceImpact priceImpactBps limit tier)
      else if tier = .illiquid ∧ config.maxIlliquidDepthConsumptionBps < ratio then
        some (.depthConsumption ratio config.maxIlliquidDepthConsumptionBps)
      else none
    match suggestedCap config tier depth with
    | none => .error .rangeError
    | some cap =>
        .ok {
          requestedAmount := requestedAmount
          quoteAsset := quoteAsset
          liquidityTier := tier
          availableDepth := depth
          bestPrice := bestPrice
          marginalPrice := fill.marginalPrice
          averageExecutionPrice :=
            if 0 < fill.totalFilled then fill.totalCost / fill.totalFilled else 0
          totalCost := fill.totalCost
          priceImpactBps := priceImpactBps
          maxAllowedImpactBps := limit
          isAllowed := reason.isNone
          depthConsumptionRatioBps := ratio
          maxDepthConsumptionBps := config.maxIlliquidDepthConsumptionBps
          reason := reason
          suggestedMaxAmount := suggestedMax asks limit requestedAmount priceImpactBps cap }

/-- `evaluatePriceImpact`, on the configuration and the orders it reads. -/
def evaluatePriceImpact (amount : JsString) (quoteAsset : JsString) :
    Except PriceImpactError PriceImpactEvaluation :=
  match parseAmount amount with
  | none => .error (.badRequest "Amount must be a positive integer string")
  | some requestedAmount => evaluateAsks config (sortAsks orders quoteAsset) quoteAsset requestedAmount

/-! ## The walk -/

/-- What the `x` cheapest units of a book cost. -/
def costOf : List OrderResponse → Nat → Nat
  | [], _ => 0
  | ask :: asks, x => min x ask.amount * ask.pricePerToken + costOf asks (x - ask.amount)

@[simp] theorem depthOf_nil : depthOf [] = 0 := rfl

@[simp] theorem depthOf_cons (ask : OrderResponse) (asks : List OrderResponse) :
    depthOf (ask :: asks) = ask.amount + depthOf asks := by
  simp [depthOf]

@[simp] theorem costOf_zero : costOf asks 0 = 0 := by
  induction asks with
  | nil => rfl
  | cons ask asks ih => simp [costOf, ih]

theorem min_eq_ite_lt (a b : Nat) : (if a < b then a else b) = min a b := by
  split <;> omega

/-- **The walk buys the cheapest units.** -/
theorem fillAsks_eq (fill : AskFill) :
    (fillAsks asks fill).remaining = fill.remaining - depthOf asks ∧
      (fillAsks asks fill).totalCost = fill.totalCost + costOf asks fill.remaining ∧
      (fillAsks asks fill).totalFilled = fill.totalFilled + min fill.remaining (depthOf asks) := by
  induction asks generalizing fill with
  | nil => simp [fillAsks, costOf]
  | cons ask asks ih =>
      by_cases h0 : fill.remaining = 0
      · simp [fillAsks, h0]
      · rw [fillAsks, if_neg h0, min_eq_ite_lt, costOf, depthOf_cons]
        obtain ⟨h1, h2, h3⟩ := ih ⟨fill.remaining - min fill.remaining ask.amount,
          fill.totalCost + min fill.remaining ask.amount * ask.pricePerToken,
          fill.totalFilled + min fill.remaining ask.amount, ask.pricePerToken⟩
        have hrest : fill.remaining - min fill.remaining ask.amount = fill.remaining - ask.amount := by
          omega
        simp only [hrest] at h1 h2 h3 ⊢
        exact ⟨by omega, by rw [h2, add_assoc], by omega⟩

theorem scanCost_eq (curRem curCost : Nat) :
    scanCost asks curRem curCost = curCost + costOf asks curRem := by
  induction asks generalizing curRem curCost with
  | nil => rfl
  | cons ask asks ih =>
      by_cases h0 : curRem = 0
      · simp [scanCost, h0]
      · have hrest : curRem - min curRem ask.amount = curRem - ask.amount := by omega
        rw [scanCost, if_neg h0, min_eq_ite_lt, costOf, ih, hrest, add_assoc]

/-- Beyond its depth a book costs nothing more. -/
theorem costOf_min_depth (x : Nat) : costOf asks (min x (depthOf asks)) = costOf asks x := by
  induction asks generalizing x with
  | nil => rfl
  | cons ask asks ih =>
      have hhere : min (min x (ask.amount + depthOf asks)) ask.amount = min x ask.amount := by omega
      have hrest : min x (ask.amount + depthOf asks) - ask.amount =
          min (x - ask.amount) (depthOf asks) := by omega
      rw [costOf, costOf, depthOf_cons, hhere, hrest, ih]

/-! ## Convexity -/

variable {asks : List OrderResponse} {x y : Nat} {config : PriceImpactConfig}
  {quoteAsset : JsString} {e : PriceImpactEvaluation}

/-- Every further unit costs at least the lowest price. -/
theorem costOf_growth {p : Nat} (hp : ∀ ask ∈ asks, p ≤ ask.pricePerToken) {u v : Nat} (huv : u ≤ v)
    (hv : v ≤ depthOf asks) : costOf asks u + p * (v - u) ≤ costOf asks v := by
  induction asks generalizing u v with
  | nil =>
      have : v - u = 0 := by
        rw [depthOf_nil] at hv
        omega
      simp [costOf, this]
  | cons ask asks ih =>
      rw [depthOf_cons] at hv
      have hrest := ih (fun a ha => hp a (List.mem_cons_of_mem _ ha))
        (show u - ask.amount ≤ v - ask.amount by omega) (by omega)
      have hhere : min u ask.amount * ask.pricePerToken + p * (min v ask.amount - min u ask.amount) ≤
          min v ask.amount * ask.pricePerToken := by
        calc min u ask.amount * ask.pricePerToken + p * (min v ask.amount - min u ask.amount)
            ≤ min u ask.amount * ask.pricePerToken +
                ask.pricePerToken * (min v ask.amount - min u ask.amount) := by
              gcongr
              exact hp ask List.mem_cons_self
          _ = (min u ask.amount + (min v ask.amount - min u ask.amount)) * ask.pricePerToken := by ring
          _ = min v ask.amount * ask.pricePerToken := by
              congr 1
              omega
      have hsplit : v - u = (min v ask.amount - min u ask.amount) +
          (v - ask.amount - (u - ask.amount)) := by omega
      rw [costOf, costOf, hsplit, mul_add]
      omega

/-- **The average price grows with the number of units.** -/
theorem costOf_average (hsorted : ByPrice asks) (hxy : x ≤ y) (hy : y ≤ depthOf asks) :
    costOf asks x * y ≤ costOf asks y * x := by
  induction asks generalizing x y with
  | nil => simp [costOf]
  | cons ask asks ih =>
      obtain ⟨hfirst, hsorted⟩ := List.pairwise_cons.mp hsorted
      rw [depthOf_cons] at hy
      rw [costOf, costOf]
      rcases le_total y ask.amount with hya | hya
      · -- both within the first ask: the average is its price
        rw [Nat.sub_eq_zero_of_le hya, Nat.sub_eq_zero_of_le (hxy.trans hya), costOf_zero,
          Nat.min_eq_left hya, Nat.min_eq_left (hxy.trans hya)]
        exact le_of_eq (by ring)
      · obtain ⟨v, rfl⟩ := Nat.exists_eq_add_of_le hya
        rcases le_total x ask.amount with hxa | hxa
        · have hgrow := costOf_growth hfirst (Nat.zero_le v) (by omega)
          rw [costOf_zero, Nat.sub_zero, zero_add] at hgrow
          rw [Nat.sub_eq_zero_of_le hxa, costOf_zero, Nat.min_eq_left hxa, Nat.min_eq_right hya,
            Nat.add_sub_cancel_left, add_zero]
          calc x * ask.pricePerToken * (ask.amount + v)
              = (ask.amount * ask.pricePerToken + ask.pricePerToken * v) * x := by ring
            _ ≤ (ask.amount * ask.pricePerToken + costOf asks v) * x := by gcongr
        · obtain ⟨u, rfl⟩ := Nat.exists_eq_add_of_le hxa
          have huv : u ≤ v := by omega
          have hv : v ≤ depthOf asks := by omega
          have hgrow := costOf_growth hfirst huv hv
          have haverage := ih hsorted huv hv
          obtain ⟨w, rfl⟩ := Nat.exists_eq_add_of_le huv
          rw [Nat.add_sub_cancel_left] at hgrow
          rw [Nat.min_eq_right hxa, Nat.min_eq_right hya, Nat.add_sub_cancel_left,
            Nat.add_sub_cancel_left]
          -- the rest of the book grows by at least the first price and has a growing average itself
          have hscaled : ask.amount * (costOf asks u + ask.pricePerToken * w) ≤
              ask.amount * costOf asks (u + w) := Nat.mul_le_mul_left _ hgrow
          nlinarith [hscaled, haverage]

/-! ## The impact of a size -/

/-- The impact of the `x` cheapest units. -/
def impactAt (asks : List OrderResponse) (x : Nat) : Int :=
  impactBps (costOf asks x) (x * bestPriceOf asks)

theorem bestPriceOf_le (hsorted : ByPrice asks) :
    ∀ ask ∈ asks, bestPriceOf asks ≤ ask.pricePerToken := by
  cases hsorted with
  | nil => simp
  | cons hfirst _ =>
      intro ask hask
      rcases List.mem_cons.mp hask with rfl | hask
      · exact le_rfl
      · exact hfirst ask hask

theorem ideal_le_cost (hsorted : ByPrice asks) (hx : x ≤ depthOf asks) :
    x * bestPriceOf asks ≤ costOf asks x := by
  have hgrow := costOf_growth (bestPriceOf_le hsorted) (Nat.zero_le x) hx
  rw [costOf_zero, zero_add, Nat.sub_zero, mul_comm] at hgrow
  exact hgrow

theorem impactBps_eq {cost ideal : Nat} (h : ideal ≤ cost) :
    impactBps cost ideal = (((cost - ideal) * 10000 / ideal : Nat) : Int) := by
  unfold impactBps
  split
  · rw [Int.tdiv_eq_ediv_of_nonneg (by omega)]
    push_cast [h]
    rfl
  · have h0 : ideal = 0 := by omega
    simp [h0]

/-- Quotients compare as their cross products do. -/
theorem div_le_div_of_cross {a b c d : Nat} (hb : 0 < b) (hd : 0 < d) (h : a * d ≤ c * b) :
    a / b ≤ c / d := by
  rw [Nat.le_div_iff_mul_le hd]
  refine Nat.le_of_mul_le_mul_right ?_ hb
  calc a / b * d * b = a / b * b * d := by ring
    _ ≤ a * d := by gcongr; exact Nat.div_mul_le_self a b
    _ ≤ c * b := h

/-- **The impact grows with the size.** -/
theorem impactAt_mono (hsorted : ByPrice asks) (hxy : x ≤ y) (hy : y ≤ depthOf asks) :
    impactAt asks x ≤ impactAt asks y := by
  unfold impactAt
  have hidealx := ideal_le_cost hsorted (hxy.trans hy)
  have hidealy := ideal_le_cost hsorted hy
  have haverage := costOf_average hsorted hxy hy
  rw [impactBps_eq hidealx, impactBps_eq hidealy]
  apply Int.ofNat_le.mpr
  generalize bestPriceOf asks = b at *
  rcases Nat.eq_zero_or_pos (x * b) with h0 | hpos
  · rw [h0, Nat.div_zero]
    exact Nat.zero_le _
  · have hb : 0 < b := Nat.pos_of_mul_pos_left hpos
    have hx : 0 < x := Nat.pos_of_mul_pos_right hpos
    refine div_le_div_of_cross hpos (Nat.mul_pos (by omega) hb) ?_
    obtain ⟨e, he⟩ := Nat.exists_eq_add_of_le hidealx
    obtain ⟨f, hf⟩ := Nat.exists_eq_add_of_le hidealy
    rw [he, hf] at haverage ⊢
    rw [Nat.add_sub_cancel_left, Nat.add_sub_cancel_left]
    have hexcess : e * y ≤ f * x := by nlinarith [haverage]
    calc e * 10000 * (y * b) = e * y * (10000 * b) := by ring
      _ ≤ f * x * (10000 * b) := by gcongr
      _ = f * 10000 * (x * b) := by ring

/-! ## What is allowed -/

/-- The three limits of the service, for a size and a book with some depth. -/
structure Permits (config : PriceImpactConfig) (asks : List OrderResponse) (x : Nat) : Prop where
  depth : x ≤ depthOf asks
  impact : (impactAt asks x : ℚ) ≤
    config.tierImpactLimitsBps (classifyLiquidityTier (depthOf asks) config)
  consumption : classifyLiquidityTier (depthOf asks) config = .illiquid →
    ((x * 10000 / depthOf asks : Nat) : ℚ) ≤ config.maxIlliquidDepthConsumptionBps

/-- **What is allowed is closed downwards.** -/
theorem Permits.mono (h : Permits config asks y) (hsorted : ByPrice asks) (hxy : x ≤ y) :
    Permits config asks x where
  depth := hxy.trans h.depth
  impact := le_trans (by exact_mod_cast impactAt_mono hsorted hxy h.depth) h.impact
  consumption := fun htier => by
    refine le_trans ?_ (h.consumption htier)
    have hratio : x * 10000 / depthOf asks ≤ y * 10000 / depthOf asks :=
      Nat.div_le_div_right (Nat.mul_le_mul_right _ hxy)
    exact_mod_cast hratio

theorem sortAsks_sorted (quoteAsset : JsString) :
    ByPrice (sortAsks orders quoteAsset) :=
  List.pairwise_insertionSort _ _

/-- The evaluation of a book without depth. -/
theorem evaluateAsks_empty (hdepth : depthOf asks = 0)
    (h : evaluateAsks config asks quoteAsset x = .ok e) :
    e.isAllowed = false ∧ e.suggestedMaxAmount = 0 := by
  rw [evaluateAsks, if_pos (.inr hdepth), Except.ok.injEq] at h
  subst h
  exact ⟨rfl, rfl⟩

/-- What the evaluation of a book with some depth says. -/
structure Evaluated (config : PriceImpactConfig) (asks : List OrderResponse) (x : Nat)
    (e : PriceImpactEvaluation) (cap : Int) : Prop where
  requestedAmount : e.requestedAmount = x
  liquidityTier : e.liquidityTier = classifyLiquidityTier (depthOf asks) config
  limit : e.maxAllowedImpactBps = config.tierImpactLimitsBps e.liquidityTier
  impact : e.priceImpactBps = impactAt asks (min x (depthOf asks))
  allowed : e.isAllowed = true ↔ Permits config asks x
  suggested : e.suggestedMaxAmount =
    suggestedMax asks e.maxAllowedImpactBps x e.priceImpactBps cap

/-- A book with some depth is not the empty one. -/
theorem not_empty_of_depth (hdepth : depthOf asks ≠ 0) : ¬ (asks = [] ∨ depthOf asks = 0) := by
  rintro (rfl | h)
  · exact hdepth rfl
  · exact hdepth h

theorem evaluateAsks_iff (hdepth : depthOf asks ≠ 0) :
    (∃ e, evaluateAsks config asks quoteAsset x = .ok e) ↔
      ∃ cap, suggestedCap config (classifyLiquidityTier (depthOf asks) config) (depthOf asks) =
        some cap := by
  simp only [evaluateAsks, if_neg (not_empty_of_depth hdepth)]
  cases hcap : suggestedCap config (classifyLiquidityTier (depthOf asks) config) (depthOf asks) with
  | none => simp
  | some cap => simp

theorem evaluateAsks_ok (hdepth : depthOf asks ≠ 0)
    (h : evaluateAsks config asks quoteAsset x = .ok e) :
    ∃ cap, suggestedCap config e.liquidityTier (depthOf asks) = some cap ∧
      Evaluated config asks x e cap := by
  simp only [evaluateAsks, if_neg (not_empty_of_depth hdepth)] at h
  obtain ⟨hremaining, hcost, hfilled⟩ := fillAsks_eq asks ⟨x, 0, 0, bestPriceOf asks⟩
  simp only [zero_add] at hremaining hcost hfilled
  simp only [hremaining, hcost, hfilled] at h
  cases hcap : suggestedCap config (classifyLiquidityTier (depthOf asks) config) (depthOf asks) with
  | none =>
      rw [hcap] at h
      cases h
  | some cap =>
      rw [hcap, Except.ok.injEq] at h
      subst h
      refine ⟨cap, hcap, ⟨rfl, rfl, rfl, by rw [impactAt, costOf_min_depth], ?_, rfl⟩⟩
      simp only [Option.isNone_iff_eq_none]
      constructor
      · intro hreason
        split at hreason
        · cases hreason
        split at hreason
        · cases hreason
        split at hreason
        · cases hreason
        next hdep himp hcons =>
          have hle : x ≤ depthOf asks := by omega
          rw [Nat.min_eq_left hle] at himp
          exact ⟨hle, not_lt.mp himp, fun htier => not_lt.mp fun hlt => hcons ⟨htier, hlt⟩⟩
      · intro hpermits
        have himp := hpermits.impact
        rw [impactAt, ← Nat.min_eq_left hpermits.depth] at himp
        rw [if_neg (by have := hpermits.depth; omega), if_neg ?_,
          if_neg fun hc => absurd (hpermits.consumption hc.1) (not_le.mpr hc.2)]
        rw [Nat.min_eq_left hpermits.depth] at himp ⊢
        exact not_lt.mpr himp

end VerdantBond
