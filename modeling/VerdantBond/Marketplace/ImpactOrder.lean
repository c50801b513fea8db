import VerdantBond.Marketplace.Suggestion

set_option autoImplicit false

/-! # PriceImpactService: larger orders, larger impact

What the evaluation of one size says about another, for every book and configuration: a smaller size
than an allowed one is allowed, its impact is no larger, and the average price of what is filled lies
between the first and the last price that is paid (`impact_monotone`). The first two rest on the
convexity of the cost, the third on the walk itself: no unit costs less than the best price, and none
more than the last ask that was visited.
-/

namespace VerdantBond

variable {asks : List OrderResponse} {config : PriceImpactConfig} {quoteAsset : JsString}
  {e : PriceImpactEvaluation}

/-- **The walk pays between the lowest and the last price**, unit for unit. -/
theorem fillAsks_between {b : Nat}
    (hsorted : ByPrice asks) (hb : ∀ ask ∈ asks, b ≤ ask.pricePerToken) {fill : AskFill}
    (hlast : ∀ ask ∈ asks, fill.marginalPrice ≤ ask.pricePerToken)
    (hlow : b * fill.totalFilled ≤ fill.totalCost)
    (hhigh : fill.totalCost ≤ fill.marginalPrice * fill.totalFilled) :
    b * (fillAsks asks fill).totalFilled ≤ (fillAsks asks fill).totalCost ∧
      (fillAsks asks fill).totalCost ≤
        (fillAsks asks fill).marginalPrice * (fillAsks asks fill).totalFilled := by
  induction asks generalizing fill with
  | nil => exact ⟨hlow, hhigh⟩
  | cons ask asks ih =>
      rw [ByPrice, List.pairwise_cons] at hsorted
      by_cases h0 : fill.remaining = 0
      · rw [fillAsks, if_pos h0]
        exact ⟨hlow, hhigh⟩
      · rw [fillAsks, if_neg h0]
        set take := if fill.remaining < ask.amount then fill.remaining else ask.amount
        apply ih hsorted.2 (fun a ha => hb a (List.mem_cons_of_mem _ ha)) hsorted.1
        · calc b * (fill.totalFilled + take) = b * fill.totalFilled + take * b := by ring
            _ ≤ fill.totalCost + take * ask.pricePerToken := by
                gcongr
                exact hb ask List.mem_cons_self
        · calc fill.totalCost + take * ask.pricePerToken
              ≤ fill.marginalPrice * fill.totalFilled + take * ask.pricePerToken := by gcongr
            _ ≤ ask.pricePerToken * fill.totalFilled + take * ask.pricePerToken := by
                gcongr
                exact hlast ask List.mem_cons_self
            _ = ask.pricePerToken * (fill.totalFilled + take) := by ring

/-- The prices an evaluation reports. -/
theorem evaluateAsks_prices {x : Nat} (hdepth : depthOf asks ≠ 0)
    (h : evaluateAsks config asks quoteAsset x = .ok e) :
    let fill := fillAsks asks ⟨x, 0, 0, bestPriceOf asks⟩
    e.availableDepth = depthOf asks ∧ e.bestPrice = bestPriceOf asks ∧
      e.marginalPrice = fill.marginalPrice ∧
      e.averageExecutionPrice =
        if 0 < fill.totalFilled then fill.totalCost / fill.totalFilled else 0 := by
  simp only [evaluateAsks, if_neg (not_empty_of_depth hdepth)] at h
  cases hcap : suggestedCap config (classifyLiquidityTier (depthOf asks) config) (depthOf asks) with
  | none =>
      rw [hcap] at h
      cases h
  | some cap =>
      rw [hcap, Except.ok.injEq] at h
      subst h
      exact ⟨rfl, rfl, rfl, rfl⟩

/-- The average of what is filled lies between the best and the marginal price. -/
theorem average_between_prices {x : Nat} (hsorted : ByPrice asks)
    (hdepth : depthOf asks ≠ 0) (h : evaluateAsks config asks quoteAsset x = .ok e) (hx : 0 < x) :
    e.bestPrice ≤ e.averageExecutionPrice ∧ e.averageExecutionPrice ≤ e.marginalPrice := by
  obtain ⟨-, hbest, hmarginal, haverage⟩ := evaluateAsks_prices hdepth h
  have hle := bestPriceOf_le hsorted
  have hempty : bestPriceOf asks * (⟨x, 0, 0, bestPriceOf asks⟩ : AskFill).totalFilled ≤ 0 := by simp
  obtain ⟨hlow, hhigh⟩ := fillAsks_between hsorted hle hle hempty (by simp)
  have hfilled : 0 < (fillAsks asks ⟨x, 0, 0, bestPriceOf asks⟩).totalFilled := by
    rw [(fillAsks_eq asks _).2.2]
    show 0 < 0 + min x (depthOf asks)
    omega
  rw [hbest, hmarginal, haverage, if_pos hfilled]
  exact ⟨(Nat.le_div_iff_mul_le hfilled).mpr hlow,
    Nat.div_le_of_le_mul (hhigh.trans_eq (Nat.mul_comm ..))⟩

/-- An evaluation is one of the book, for the number its text stands for. -/
theorem evaluatePriceImpact_ok {orders : List OrderResponse} {amount : JsString}
    (h : evaluatePriceImpact config orders amount quoteAsset = .ok e) :
    evaluateAsks config (sortAsks orders quoteAsset) quoteAsset e.requestedAmount = .ok e := by
  unfold evaluatePriceImpact at h
  cases hparse : parseAmount amount with
  | none =>
      rw [hparse] at h
      cases h
  | some x =>
      rw [hparse] at h
      have hx : e.requestedAmount = x := by
        by_cases hdepth : depthOf (sortAsks orders quoteAsset) = 0
        · simp only [evaluateAsks, if_pos (Or.inr hdepth), Except.ok.injEq] at h
          rw [← h]
        · obtain ⟨_, -, hspec⟩ := evaluateAsks_ok hdepth h
          exact hspec.requestedAmount
      rw [hx]
      exact h

/-- **Price impact is monotone in the order size**, for every book and configuration: every positive
size up to an allowed one is allowed; of two fillable sizes the smaller has at most the impact of the
larger; and if anything is filled, the average price lies between the best and the marginal one. -/
theorem impact_monotone (config : PriceImpactConfig) (orders : List OrderResponse)
    (quoteAsset : JsString) :
    (∀ amount e, evaluatePriceImpact config orders amount quoteAsset = .ok e → e.isAllowed = true →
      ∀ b, 0 < b → b ≤ e.requestedAmount → AllowedSize config orders quoteAsset b) ∧
    (∀ amount amount' e e', evaluatePriceImpact config orders amount quoteAsset = .ok e →
      evaluatePriceImpact config orders amount' quoteAsset = .ok e' →
      e.requestedAmount ≤ e'.requestedAmount → e'.requestedAmount ≤ e'.availableDepth →
      e.priceImpactBps ≤ e'.priceImpactBps) ∧
    ∀ amount e, evaluatePriceImpact config orders amount quoteAsset = .ok e →
      0 < min e.requestedAmount e.availableDepth →
      e.bestPrice ≤ e.averageExecutionPrice ∧ e.averageExecutionPrice ≤ e.marginalPrice := by
  have hsorted := sortAsks_sorted orders quoteAsset
  refine ⟨fun amount e h hallowed b hb hle => ?_, fun amount amount' e e' h h' hle hfill => ?_,
    fun amount e h hfilled => ?_⟩
  · have heval := evaluatePriceImpact_ok h
    have hdepth : depthOf (sortAsks orders quoteAsset) ≠ 0 := by
      intro hdepth
      rw [(evaluateAsks_empty hdepth heval).1] at hallowed
      cases hallowed
    obtain ⟨cap, hcap, hspec⟩ := evaluateAsks_ok hdepth heval
    rw [hspec.liquidityTier] at hcap
    exact (allowedSize_iff hdepth ⟨cap, hcap⟩ hb).mpr ((hspec.allowed.mp hallowed).mono hsorted hle)
  · have heval := evaluatePriceImpact_ok h
    have heval' := evaluatePriceImpact_ok h'
    by_cases hdepth : depthOf (sortAsks orders quoteAsset) = 0
    · simp only [evaluateAsks, if_pos (Or.inr hdepth), Except.ok.injEq] at heval heval'
      rw [← heval, ← heval']
    · obtain ⟨_, -, hspec⟩ := evaluateAsks_ok hdepth heval
      obtain ⟨_, -, hspec'⟩ := evaluateAsks_ok hdepth heval'
      rw [(evaluateAsks_prices hdepth heval').1] at hfill
      rw [hspec.impact, hspec'.impact, Nat.min_eq_left hfill, Nat.min_eq_left (hle.trans hfill)]
      exact impactAt_mono hsorted hle hfill
  · have heval := evaluatePriceImpact_ok h
    have hdepth : depthOf (sortAsks orders quoteAsset) ≠ 0 := by
      intro hdepth
      simp only [evaluateAsks, if_pos (Or.inr hdepth), Except.ok.injEq] at heval
      rw [← heval] at hfilled
      simp at hfilled
    exact average_between_prices hsorted hdepth heval (by omega)

end VerdantBond
