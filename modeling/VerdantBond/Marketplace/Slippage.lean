import Mathlib.Order.Bounds.Basic
import VerdantBond.Marketplace.Suggestion

set_option autoImplicit false

/-! # LiquidityService: slippage estimates

`calculateSlippage` fills a request from the open orders of the quote asset, the cheapest first. The
total it reports is the least that the fillable amount can be bought for. Against every other way to
buy stands one price: at a price `p` no unit of an order saves more than `p` less its own price, so
`p` for each unit bought is at most the cost and what all orders could save (`price_mul_le_cost`); at
the price of the last order of the walk that is an equality (`exists_price_mul_eq`). The least cost
does not depend on the order of the list, and so neither does the answer (`slippage_optimal`).
-/

namespace VerdantBond

open List

/-! ## The service -/

inductive FillabilityStatus where
  | fullyFillable
  | partiallyFillable
  | unfillable
  deriving DecidableEq, Repr

structure SlippageResponse where
  bondId : Nat
  requestedAmount : Nat
  fillableAmount : Nat
  unfilledAmount : Nat
  averagePrice : Nat
  estimatedTotal : Nat
  slippagePercent : Int
  fillabilityStatus : FillabilityStatus
  deriving DecidableEq, Repr

/-- The variables of the loop. -/
structure SlippageFill where
  remaining : Nat
  totalCost : Nat
  totalAmount : Nat

def fillOrders : List OrderResponse → SlippageFill → SlippageFill
  | [], fill => fill
  | order :: orders, fill =>
      if fill.remaining ≤ 0 then fill
      else
        let take := if fill.remaining < order.amount then fill.remaining else order.amount
        fillOrders orders ⟨fill.remaining - take, fill.totalCost + take * order.pricePerToken,
          fill.totalAmount + take⟩

/-- What is reported of a filled request; `bestPrice` is the price of the first order. As in
`impactBps`, `Number` of the quotient is taken to be the quotient. -/
def slippageOf (bondId requestedAmount bestPrice : Nat) (fill : SlippageFill) : SlippageResponse :=
  let fillableAmount := requestedAmount - fill.remaining
  let idealCost : Int := if 0 < fillableAmount then fillableAmount * bestPrice else 0
  { bondId := bondId
    requestedAmount := requestedAmount
    fillableAmount := fillableAmount
    unfilledAmount := fill.remaining
    averagePrice := if 0 < fill.totalAmount then fill.totalCost / fill.totalAmount else 0
    estimatedTotal := fill.totalCost
    slippagePercent :=
      max 0 (if 0 < idealCost then (((fill.totalCost : Int) - idealCost) * 100).tdiv idealCost else 0)
    fillabilityStatus :=
      if fill.remaining = 0 then .fullyFillable
      else if 0 < fillableAmount then .partiallyFillable
      else .unfillable }

/-- `calculateSlippage`, on the open orders it reads. -/
def calculateSlippage (orders : List OrderResponse) (bondId : Nat) (amount quoteAsset : JsString) :
    Except PriceImpactError SlippageResponse :=
  match parseAmount amount with
  | none => .error (.badRequest "amount must be a positive integer string")
  | some requestedAmount =>
      let sorted := sortAsks orders quoteAsset
      .ok (slippageOf bondId requestedAmount (bestPriceOf sorted)
        (fillOrders sorted ⟨requestedAmount, 0, 0⟩))

/-! ## Ways to buy -/

/-- A plan takes some units from each of the orders, `n` in all. -/
structure IsPlan (orders : List OrderResponse) (n : Nat) (plan : List (OrderResponse × Nat)) :
    Prop where
  orders : (plan.map Prod.fst).Perm orders
  within : ∀ p ∈ plan, p.2 ≤ p.1.amount
  total : (plan.map Prod.snd).sum = n

def planCost (plan : List (OrderResponse × Nat)) : Nat :=
  (plan.map fun p => p.2 * p.1.pricePerToken).sum

/-- What the orders can save at most against a price. -/
def saving (p : Nat) (orders : List OrderResponse) : Nat :=
  (orders.map fun o => o.amount * (p - o.pricePerToken)).sum

variable {orders orders' : List OrderResponse}

/-- **No plan beats a price** by more than the orders can save. -/
theorem price_mul_le_cost {n : Nat} {plan : List (OrderResponse × Nat)} (h : IsPlan orders n plan)
    (p : Nat) : p * n ≤ planCost plan + saving p orders := by
  have hsaving : saving p orders = saving p (plan.map Prod.fst) := ((h.orders.map _).sum_eq).symm
  rw [hsaving, ← h.total]
  have hwithin := h.within
  clear h hsaving
  induction plan with
  | nil => simp [planCost, saving]
  | cons q plan ih =>
      have hrest := ih fun r hr => hwithin r (mem_cons_of_mem _ hr)
      have hq : q.2 ≤ q.1.amount := hwithin q mem_cons_self
      have hunit : p * q.2 ≤ q.2 * q.1.pricePerToken + q.1.amount * (p - q.1.pricePerToken) := by
        calc p * q.2 ≤ (q.1.pricePerToken + (p - q.1.pricePerToken)) * q.2 := by
              gcongr
              omega
          _ = q.2 * q.1.pricePerToken + q.2 * (p - q.1.pricePerToken) := by ring
          _ ≤ q.2 * q.1.pricePerToken + q.1.amount * (p - q.1.pricePerToken) := by gcongr
      simp only [planCost, saving, map_cons, sum_cons, mul_add] at hrest ⊢
      omega

/-- The plan of the walk. -/
def greedyPlan : List OrderResponse → Nat → List (OrderResponse × Nat)
  | [], _ => []
  | order :: orders, x => (order, min x order.amount) :: greedyPlan orders (x - order.amount)

theorem isPlan_greedyPlan (orders : List OrderResponse) (x : Nat) :
    IsPlan orders (min x (depthOf orders)) (greedyPlan orders x) ∧
      planCost (greedyPlan orders x) = costOf orders x := by
  induction orders generalizing x with
  | nil => exact ⟨⟨.refl _, by simp [greedyPlan], by simp [greedyPlan]⟩, rfl⟩
  | cons order orders ih =>
      obtain ⟨⟨horders, hwithin, htotal⟩, hcost⟩ := ih (x - order.amount)
      refine ⟨⟨horders.cons order, ?_, ?_⟩, ?_⟩
      · intro p hp
        rcases mem_cons.mp hp with rfl | hp
        · exact Nat.min_le_right ..
        · exact hwithin p hp
      · simp only [greedyPlan, map_cons, sum_cons, htotal, depthOf_cons]
        omega
      · rw [costOf, ← hcost]
        simp [greedyPlan, planCost]

/-- **The walk attains the bound** at the price of its last order. -/
theorem exists_price_mul_eq (hsorted : ByPrice orders)
    {n : Nat} (hn : 0 < n) (hle : n ≤ depthOf orders) :
    ∃ o ∈ orders, o.pricePerToken * n = costOf orders n + saving o.pricePerToken orders := by
  induction orders generalizing n with
  | nil =>
      rw [depthOf_nil] at hle
      omega
  | cons order orders ih =>
      rw [ByPrice, pairwise_cons] at hsorted
      rw [depthOf_cons] at hle
      by_cases hfirst : n ≤ order.amount
      · -- the first order fills it all, and no later one is cheaper
        refine ⟨order, mem_cons_self, ?_⟩
        have hrest : saving order.pricePerToken orders = 0 := by
          refine sum_eq_zero fun x hx => ?_
          obtain ⟨o, ho, rfl⟩ := mem_map.mp hx
          rw [Nat.sub_eq_zero_of_le (hsorted.1 o ho), mul_zero]
        have hcons : saving order.pricePerToken (order :: orders) =
            order.amount * (order.pricePerToken - order.pricePerToken) +
              saving order.pricePerToken orders := by simp [saving]
        rw [hcons, hrest, costOf, Nat.min_eq_left hfirst, Nat.sub_eq_zero_of_le hfirst, costOf_zero,
          Nat.sub_self]
        ring
      · obtain ⟨o, ho, heq⟩ := ih hsorted.2 (show 0 < n - order.amount by omega) (by omega)
        refine ⟨o, mem_cons_of_mem _ ho, ?_⟩
        have hprice : order.pricePerToken ≤ o.pricePerToken := hsorted.1 o ho
        have hcons : saving o.pricePerToken (order :: orders) =
            order.amount * (o.pricePerToken - order.pricePerToken) + saving o.pricePerToken orders := by
          simp [saving]
        obtain ⟨d, hd⟩ := Nat.exists_eq_add_of_le hprice
        obtain ⟨r, rfl⟩ := Nat.exists_eq_add_of_le (not_le.mp hfirst).le
        rw [Nat.add_sub_cancel_left] at heq
        rw [hcons, costOf, Nat.min_eq_right (by omega), Nat.add_sub_cancel_left, mul_add, heq, hd,
          Nat.add_sub_cancel_left]
        ring

/-- **The walk is optimal.** -/
theorem isLeast_costOf (hsorted : ByPrice orders) (x : Nat) :
    IsLeast {c | ∃ plan, IsPlan orders (min x (depthOf orders)) plan ∧ planCost plan = c}
      (costOf orders x) := by
  refine ⟨⟨_, isPlan_greedyPlan orders x⟩, ?_⟩
  rintro c ⟨plan, hplan, rfl⟩
  rcases Nat.eq_zero_or_pos (min x (depthOf orders)) with h0 | hpos
  · -- nothing is bought
    rw [← costOf_min_depth, h0, costOf_zero]
    exact Nat.zero_le _
  · obtain ⟨o, -, heq⟩ := exists_price_mul_eq hsorted hpos (Nat.min_le_right ..)
    have hbound := price_mul_le_cost hplan o.pricePerToken
    rw [costOf_min_depth] at heq
    omega

/-! ## The answer -/

theorem fillOrders_eq (orders : List OrderResponse) (fill : SlippageFill) :
    fillOrders orders fill = ⟨fill.remaining - depthOf orders,
      fill.totalCost + costOf orders fill.remaining,
      fill.totalAmount + min fill.remaining (depthOf orders)⟩ := by
  induction orders generalizing fill with
  | nil => simp [fillOrders, costOf]
  | cons order orders ih =>
      by_cases h0 : fill.remaining ≤ 0
      · have hzero : fill.remaining = 0 := by omega
        cases fill
        simp_all [fillOrders]
      · rw [fillOrders, if_neg h0, min_eq_ite_lt, ih, costOf, depthOf_cons]
        have hrest : fill.remaining - min fill.remaining order.amount =
            fill.remaining - order.amount := by omega
        simp only [hrest, SlippageFill.mk.injEq]
        exact ⟨by omega, by omega, by omega⟩

/-- An answer reports the walk over the sorted orders. -/
theorem calculateSlippage_ok {bondId : Nat} {amount quoteAsset : JsString} {r : SlippageResponse}
    (h : calculateSlippage orders bondId amount quoteAsset = .ok r) :
    let sorted := sortAsks orders quoteAsset
    r.fillableAmount = min r.requestedAmount (depthOf sorted) ∧
      r.unfilledAmount = r.requestedAmount - depthOf sorted ∧
      r.estimatedTotal = costOf sorted r.requestedAmount := by
  unfold calculateSlippage at h
  cases hparse : parseAmount amount with
  | none =>
      rw [hparse] at h
      cases h
  | some x =>
      rw [hparse] at h
      simp only [fillOrders_eq, Except.ok.injEq] at h
      subst h
      simp only [slippageOf]
      exact ⟨by omega, trivial, by omega⟩

theorem sortAsks_perm (orders : List OrderResponse) (quoteAsset : JsString) :
    (sortAsks orders quoteAsset).Perm (orders.filter fun o => o.quoteAsset = quoteAsset) :=
  perm_insertionSort _ _

theorem depthOf_perm (h : orders.Perm orders') : depthOf orders = depthOf orders' :=
  (h.map _).sum_eq

theorem isPlan_perm (h : orders.Perm orders') (n : Nat) (plan : List (OrderResponse × Nat)) :
    IsPlan orders n plan ↔ IsPlan orders' n plan :=
  ⟨fun hp => ⟨hp.orders.trans h, hp.within, hp.total⟩,
    fun hp => ⟨hp.orders.trans h.symm, hp.within, hp.total⟩⟩

/-- Sorted orders of one multiset have the same best price: their prices are the same list. -/
theorem bestPriceOf_perm (h : orders.Perm orders')
    (hsorted : ByPrice orders) (hsorted' : ByPrice orders') :
    bestPriceOf orders = bestPriceOf orders' := by
  have hprices : orders.map OrderResponse.pricePerToken = orders'.map OrderResponse.pricePerToken :=
    (h.map _).eq_of_pairwise (fun _ _ _ _ => le_antisymm) (pairwise_map.mpr hsorted)
      (pairwise_map.mpr hsorted')
  cases orders <;> cases orders' <;> simp_all [bestPriceOf]

/-- Sorted orders of one multiset cost the same, by the walk. -/
theorem costOf_perm (h : orders.Perm orders')
    (hsorted : ByPrice orders) (hsorted' : ByPrice orders') (x : Nat) :
    costOf orders x = costOf orders' x := by
  have hleast := isLeast_costOf hsorted x
  simp only [isPlan_perm h, depthOf_perm h] at hleast
  exact hleast.unique (isLeast_costOf hsorted' x)

/-- **The order of the list does not matter.** -/
theorem calculateSlippage_perm (h : orders.Perm orders') (bondId : Nat)
    (amount quoteAsset : JsString) :
    calculateSlippage orders bondId amount quoteAsset =
      calculateSlippage orders' bondId amount quoteAsset := by
  have hperm : (sortAsks orders quoteAsset).Perm (sortAsks orders' quoteAsset) :=
    ((sortAsks_perm _ _).trans (h.filter _)).trans (sortAsks_perm _ _).symm
  have hsorted := sortAsks_sorted orders quoteAsset
  have hsorted' := sortAsks_sorted orders' quoteAsset
  simp only [calculateSlippage, fillOrders_eq, depthOf_perm hperm,
    bestPriceOf_perm hperm hsorted hsorted', costOf_perm hperm hsorted hsorted']

/-- **Slippage estimates are cost-optimal.** Every positive amount is answered; an answer fills what
the orders of the quote asset hold, up to the request, and reports the least that this can be bought
for; and the whole answer is that of the same orders listed in any other order. -/
theorem slippage_optimal (orders : List OrderResponse) (bondId : Nat) (quoteAsset : JsString) :
    let listed := orders.filter fun o => o.quoteAsset = quoteAsset
    (∀ n, 0 < n → ∃ r, calculateSlippage orders bondId (decimal n) quoteAsset = .ok r ∧
      r.requestedAmount = n) ∧
    ∀ amount r, calculateSlippage orders bondId amount quoteAsset = .ok r →
      r.fillableAmount = min r.requestedAmount (depthOf listed) ∧
      r.fillableAmount + r.unfilledAmount = r.requestedAmount ∧
      IsLeast {c | ∃ plan, IsPlan listed r.fillableAmount plan ∧ planCost plan = c} r.estimatedTotal ∧
      ∀ orders' : List OrderResponse, orders'.Perm orders →
        calculateSlippage orders' bondId amount quoteAsset = .ok r := by
  intro listed
  have hperm : (sortAsks orders quoteAsset).Perm listed := sortAsks_perm orders quoteAsset
  refine ⟨fun n hn => ?_, fun amount r h => ?_⟩
  · unfold calculateSlippage
    rw [parseAmount_decimal hn]
    exact ⟨_, rfl, rfl⟩
  · obtain ⟨hfillable, hunfilled, htotal⟩ := calculateSlippage_ok h
    rw [depthOf_perm hperm] at hfillable hunfilled
    refine ⟨hfillable, by omega, ?_, fun orders' h' => (calculateSlippage_perm h' ..).trans h⟩
    have hleast := isLeast_costOf (sortAsks_sorted orders quoteAsset) r.requestedAmount
    simp only [isPlan_perm hperm, depthOf_perm hperm] at hleast
    rw [htotal, hfillable]
    exact hleast

/-! ## The two services -/

/-- A percentage is a hundredth of the basis points, both rounded down. -/
theorem slippage_eq_impact {cost ideal : Nat} (h : ideal ≤ cost) :
    max 0 (if 0 < (ideal : Int) then (((cost : Int) - ideal) * 100).tdiv ideal else 0) =
      impactBps cost ideal / 100 := by
  obtain ⟨excess, rfl⟩ := Nat.exists_eq_add_of_le h
  have hround : excess * 10000 / ideal / 100 = excess * 100 / ideal := by
    rw [Nat.div_div_eq_div_mul, show excess * 10000 = excess * 100 * 100 by ring,
      Nat.mul_div_mul_right _ _ (by decide)]
  rw [impactBps_eq h, Nat.add_sub_cancel_left, Nat.cast_add, add_sub_cancel_left]
  split
  · rw [Int.tdiv_eq_ediv_of_nonneg (by omega)]
    exact_mod_cast (max_eq_right (Nat.zero_le _)).trans hround.symm
  · have h0 : ideal = 0 := by omega
    simp [h0]

/-- **The slippage estimate and the price impact of one book agree.** The services refuse the same
amounts as bad requests. On an amount that both answer they report the same cost and average price,
the slippage is the impact in whole percents, and what the one allows the other fills. -/
theorem market_services_agree (config : PriceImpactConfig) (orders : List OrderResponse) (bondId : Nat)
    (amount quoteAsset : JsString) :
    ((∃ m, evaluatePriceImpact config orders amount quoteAsset = .error (.badRequest m)) ↔
      ∃ m, calculateSlippage orders bondId amount quoteAsset = .error (.badRequest m)) ∧
    ∀ e r, evaluatePriceImpact config orders amount quoteAsset = .ok e →
      calculateSlippage orders bondId amount quoteAsset = .ok r →
      r.requestedAmount = e.requestedAmount ∧ r.estimatedTotal = e.totalCost ∧
      r.averagePrice = e.averageExecutionPrice ∧ r.slippagePercent = e.priceImpactBps / 100 ∧
      r.fillableAmount = min e.requestedAmount e.availableDepth ∧
      (e.isAllowed = true → r.fillabilityStatus = .fullyFillable) := by
  unfold evaluatePriceImpact calculateSlippage
  cases hparse : parseAmount amount with
  | none => simp
  | some x =>
      have hsorted := sortAsks_sorted orders quoteAsset
      generalize sortAsks orders quoteAsset = asks at hsorted
      have hideal := ideal_le_cost hsorted (Nat.min_le_right x (depthOf asks))
      rw [costOf_min_depth] at hideal
      have hfilled : x - (x - depthOf asks) = min x (depthOf asks) := by omega
      simp only [evaluateAsks, fillOrders_eq, slippageOf, zero_add, hfilled, fillAsks_eq]
      by_cases hempty : asks = [] ∨ depthOf asks = 0
      · have hdepth : depthOf asks = 0 := hempty.elim (fun h => by rw [h, depthOf_nil]) id
        have hcost : costOf asks x = 0 := by rw [← costOf_min_depth, hdepth, Nat.min_zero, costOf_zero]
        simp only [if_pos hempty]
        simp only [hdepth, hcost, Nat.min_zero]
        refine ⟨by simp, ?_⟩
        rintro e r he hr
        obtain rfl := Except.ok.inj he
        obtain rfl := Except.ok.inj hr
        simp
      · simp only [if_neg hempty]
        cases suggestedCap config (classifyLiquidityTier (depthOf asks) config) (depthOf asks) with
        | none => simp
        | some cap =>
            refine ⟨by simp, ?_⟩
            rintro e r he hr
            obtain rfl := Except.ok.inj he
            obtain rfl := Except.ok.inj hr
            refine ⟨rfl, rfl, rfl, ?_, rfl, fun hallowed => if_pos ?_⟩
            · have hcast : (if 0 < min x (depthOf asks) then
                  ((min x (depthOf asks) : Nat) : Int) * (bestPriceOf asks : Int) else 0) =
                  ((min x (depthOf asks) * bestPriceOf asks : Nat) : Int) := by
                split
                · exact (Nat.cast_mul ..).symm
                · rw [show min x (depthOf asks) = 0 by omega, zero_mul, Nat.cast_zero]
              simp only [hcast]
              exact slippage_eq_impact hideal
            · by_contra hrest
              simp [Nat.pos_of_ne_zero hrest] at hallowed

end VerdantBond
