import VerdantBond.Marketplace.PriceImpact

set_option autoImplicit false

/-! # PriceImpactService: the suggested size

Beside its verdict the service suggests a largest size. It starts from the depth of the book, or the
depth cap of an illiquid one, and searches below the request only if the request itself is above the
impact limit. So there are two ways for the suggestion to be wrong, and no third (`suggestion_iff`):
the request is within the limit and the size it starts from, which may be far larger, is not
(`Overshoots`); or the cap, a quotient rounded down, is below a size whose own ratio, rounded down
too, is within the limit (`Undershoots`).
-/

namespace VerdantBond

/-! ## Sizes as texts -/

variable {n depth x : Nat} {config : PriceImpactConfig} {cap : Int}

theorem toDigits_head (hn : 0 < n) : ∃ c rest, Nat.toDigits 10 n = c :: rest ∧ c ≠ '0' := by
  induction n using Nat.strong_induction_on with
  | h n ih =>
      by_cases hlt : n < 10
      · exact ⟨n.digitChar, [], Nat.toDigits_of_lt_base hlt,
          fun h => hn.ne' (Nat.digitChar_eq_zero.mp h)⟩
      · obtain ⟨c, rest, heq, hc⟩ := ih (n / 10) (by omega) (by omega)
        refine ⟨c, rest ++ [(n % 10).digitChar], ?_, hc⟩
        rw [Nat.toDigits_of_base_le (by decide) (by omega), heq, List.cons_append]

/-- The service reads back the sizes it writes. -/
theorem parseAmount_decimal (hn : 0 < n) : parseAmount (decimal n) = some n := by
  obtain ⟨c, rest, heq, hc⟩ := toDigits_head hn
  have hdecimal : decimal n = unit c :: rest.map unit := by rw [decimal, heq, List.map_cons]
  have hdigits : ∀ u ∈ unit c :: rest.map unit, IsDigit u :=
    fun u hu => isDigit_of_mem_decimal (hdecimal ▸ hu)
  have hfirst : unit c ≠ unit '0' := by
    intro h
    have hdigit := isDigit_val (Nat.isDigit_of_mem_toDigits (b := 10) (n := n) (by decide) (by decide)
      (heq ▸ List.mem_cons_self))
    have hval : c.toNat = '0'.toNat := by
      rw [← unit_val (show c.toNat < 65536 by omega), h, unit_val (by decide)]
    exact hc (Char.toNat_inj.mp hval)
  have hrest : (rest.map unit).all IsDigit = true :=
    List.all_eq_true.mpr fun u hu => decide_eq_true (hdigits u (List.mem_cons_of_mem _ hu))
  rw [hdecimal, parseAmount, if_pos ⟨hdigits _ List.mem_cons_self, hfirst, hrest⟩, ← hdecimal,
    ofDecimal_decimal]

/-- The service allows a size. -/
def AllowedSize (config : PriceImpactConfig) (orders : List OrderResponse) (quoteAsset : JsString)
    (x : Nat) : Prop :=
  ∃ e, evaluatePriceImpact config orders (decimal x) quoteAsset = .ok e ∧ e.isAllowed = true

/-! ## The cap -/

/-- The depth cap of an illiquid book. -/
def depthCapOf (config : PriceImpactConfig) (depth : Nat) : Int :=
  ((depth : Int) * config.maxIlliquidDepthConsumptionBps.num).tdiv 10000

/-- The size the suggestion starts from: the depth, in an illiquid book up to the depth cap. -/
def startingSize (config : PriceImpactConfig) (depth : Nat) : Int :=
  if classifyLiquidityTier depth config = .illiquid then min (depthCapOf config depth) depth else depth

theorem suggestedCap_ok (h : suggestedCap config (classifyLiquidityTier depth config) depth = some cap) :
    cap = startingSize config depth ∧ (classifyLiquidityTier depth config = .illiquid →
      config.maxIlliquidDepthConsumptionBps.den = 1) := by
  unfold suggestedCap at h
  unfold startingSize
  by_cases htier : classifyLiquidityTier depth config = .illiquid
  · rw [if_pos htier, toBigInt] at h
    rw [if_pos htier]
    by_cases hden : config.maxIlliquidDepthConsumptionBps.den = 1
    · rw [if_pos hden] at h
      simp only [Option.some.injEq] at h
      refine ⟨?_, fun _ => hden⟩
      rw [← h, depthCapOf]
      split <;> omega
    · rw [if_neg hden] at h
      cases h
  · rw [if_neg htier, Option.some.injEq] at h
    rw [if_neg htier]
    exact ⟨h.symm, fun h => absurd h htier⟩

theorem startingSize_le : startingSize config depth ≤ depth := by
  unfold startingSize
  split
  · exact min_le_right _ _
  · exact le_rfl

/-- A size within the depth cap takes no more than the share it stands for. -/
theorem consumption_le_of_le_cap (hdepth : 0 < depth)
    (hden : config.maxIlliquidDepthConsumptionBps.den = 1) (hx : 0 < x)
    (hcap : (x : Int) ≤ depthCapOf config depth) :
    ((x * 10000 / depth : Nat) : ℚ) ≤ config.maxIlliquidDepthConsumptionBps := by
  have hbps : config.maxIlliquidDepthConsumptionBps =
      (config.maxIlliquidDepthConsumptionBps.num : ℚ) := (Rat.den_eq_one_iff _).mp hden |>.symm
  rw [hbps]
  unfold depthCapOf at hcap
  generalize config.maxIlliquidDepthConsumptionBps.num = bps at hcap ⊢
  have hnonneg : 0 ≤ (depth : Int) * bps := by
    by_contra hneg
    have hquot : 0 ≤ (-((depth : Int) * bps)).tdiv 10000 := Int.tdiv_nonneg (by omega) (by decide)
    rw [Int.neg_tdiv] at hquot
    omega
  rw [Int.tdiv_eq_ediv_of_nonneg hnonneg, Int.le_ediv_iff_mul_le (by decide)] at hcap
  obtain ⟨m, rfl⟩ : ∃ m : Nat, bps = m :=
    Int.eq_ofNat_of_zero_le (nonneg_of_mul_nonneg_right hnonneg (by exact_mod_cast hdepth))
  have hratio : x * 10000 / depth ≤ m := by
    rw [Nat.div_le_iff_le_mul_add_pred hdepth]
    have : x * 10000 ≤ depth * m := by exact_mod_cast hcap
    omega
  rw [Int.cast_natCast]
  exact Nat.cast_le.mpr hratio

/-! ## The suggestion -/

/-- What the suggestion is, against the cap and the limit. -/
theorem suggestedMax_spec {asks : List OrderResponse} (hsorted : ByPrice asks) {limit : ℚ}
    {requestedAmount : Nat} {impact : Int} (hcap : cap ≤ depthOf asks)
    (hpos : 0 < suggestedMax asks limit requestedAmount impact cap) :
    suggestedMax asks limit requestedAmount impact cap ≤ cap ∧
      (limit < impact →
        (impactAt asks (suggestedMax asks limit requestedAmount impact cap).toNat : ℚ) ≤ limit) ∧
      ∀ x : Nat, suggestedMax asks limit requestedAmount impact cap < x → (x : Int) ≤ cap →
        x ≤ requestedAmount → limit < impactAt asks x := by
  unfold suggestedMax at hpos ⊢
  by_cases himpact : limit < impact
  · simp only [if_pos himpact] at hpos ⊢
    set scanAmount := if cap < (requestedAmount : Int) then cap else requestedAmount with hscan
    have hle : scanAmount ≤ cap ∧ scanAmount ≤ requestedAmount := by
      rw [hscan]
      split <;> omega
    simp only [scanCost_eq, zero_add] at hpos ⊢
    have hmono : ∀ x y : Int, 1 ≤ x → x ≤ y → y ≤ scanAmount →
        (impactAt asks y.toNat : ℚ) ≤ limit → (impactAt asks x.toNat : ℚ) ≤ limit := by
      intro x y hx hxy hy hok
      refine le_trans ?_ hok
      exact_mod_cast impactAt_mono hsorted (by omega) (by omega)
    have hspec := bisect_spec 0 hmono
    unfold impactAt at hspec ⊢
    rcases hspec with ⟨heq, -⟩ | ⟨h1, h2, h3, h4⟩
    · omega
    · refine ⟨by omega, fun _ => h3, fun x hx hxcap hxreq => ?_⟩
      have hxscan : (x : Int) ≤ scanAmount := by
        rw [hscan]
        split <;> omega
      have := h4 x hx hxscan
      rw [Int.toNat_natCast] at this
      exact not_le.mp this
  · simp only [if_neg himpact] at hpos ⊢
    exact ⟨le_rfl, fun h => absurd h himpact, fun x hx hxcap => by omega⟩

/-- The request, as far as the book fills it, is within the impact limit, and the size that the
suggestion starts from is not. -/
def Overshoots (config : PriceImpactConfig) (asks : List OrderResponse) (requested : Nat) : Prop :=
  let limit := config.tierImpactLimitsBps (classifyLiquidityTier (depthOf asks) config)
  (impactAt asks (min requested (depthOf asks)) : ℚ) ≤ limit ∧
    limit < impactAt asks (startingSize config (depthOf asks)).toNat

/-- A size right above the depth cap is within the request and within all limits. -/
def Undershoots (config : PriceImpactConfig) (asks : List OrderResponse) (requested : Nat) : Prop :=
  classifyLiquidityTier (depthOf asks) config = .illiquid ∧
    depthCapOf config (depthOf asks) + 1 ≤ requested ∧
    Permits config asks (depthCapOf config (depthOf asks) + 1).toNat

namespace Evaluated

variable {asks : List OrderResponse} {requested : Nat} {e : PriceImpactEvaluation}

/-- **Acceptable**: the suggestion is within all limits unless it overshoots. -/
theorem permits_iff (h : Evaluated config asks requested e (startingSize config (depthOf asks)))
    (hden : classifyLiquidityTier (depthOf asks) config = .illiquid →
      config.maxIlliquidDepthConsumptionBps.den = 1) (hdepth : depthOf asks ≠ 0)
    (hsorted : ByPrice asks) (hpos : 0 < e.suggestedMaxAmount) :
    Permits config asks e.suggestedMaxAmount.toNat ↔ ¬ Overshoots config asks requested := by
  obtain ⟨hle, hsearched, -⟩ := suggestedMax_spec hsorted startingSize_le (h.suggested ▸ hpos)
  rw [← h.suggested] at hle hsearched
  have hlimit := h.limit
  rw [h.liquidityTier] at hlimit
  -- within the limit the suggestion is the size it starts from
  have hstart : (e.priceImpactBps : ℚ) ≤ e.maxAllowedImpactBps →
      e.suggestedMaxAmount = startingSize config (depthOf asks) :=
    fun hwithin => h.suggested.trans (if_neg (not_lt.mpr hwithin))
  rw [Overshoots, ← h.impact, ← hlimit]
  constructor
  · rintro hp ⟨hwithin, hover⟩
    rw [← hstart hwithin] at hover
    exact absurd (hlimit ▸ hp.impact) (not_le.mpr hover)
  · intro hover
    have hstarting : startingSize config (depthOf asks) ≤ depthOf asks := startingSize_le
    refine ⟨by omega, ?_, fun htier => ?_⟩
    · rw [← hlimit]
      by_cases hwithin : (e.priceImpactBps : ℚ) ≤ e.maxAllowedImpactBps
      · rw [hstart hwithin]
        exact not_lt.mp fun hlt => hover ⟨hwithin, hlt⟩
      · exact hsearched (not_le.mp hwithin)
    · apply consumption_le_of_le_cap (Nat.pos_of_ne_zero hdepth) (hden htier) (by omega)
      rw [Int.toNat_of_nonneg hpos.le]
      rw [startingSize, if_pos htier] at hle
      exact hle.trans (min_le_left _ _)

/-- **Maximal**: no size above the suggestion and up to the request is within all limits, unless the
suggestion undershoots. -/
theorem maximal_iff (h : Evaluated config asks requested e (startingSize config (depthOf asks)))
    (hsorted : ByPrice asks) (hpos : 0 < e.suggestedMaxAmount) :
    (∀ x : Nat, e.suggestedMaxAmount < x → x ≤ requested → ¬ Permits config asks x) ↔
      ¬ Undershoots config asks requested := by
  obtain ⟨hle, -, habove⟩ := suggestedMax_spec hsorted startingSize_le (h.suggested ▸ hpos)
  rw [← h.suggested] at hle habove
  have hlimit := h.limit
  rw [h.liquidityTier] at hlimit
  unfold startingSize at hle habove
  constructor
  · -- the size right above the depth cap would be one above the suggestion
    rintro hmaximal ⟨htier, hreq, hp⟩
    rw [if_pos htier] at hle
    refine hmaximal _ ?_ ?_ hp <;> omega
  · intro hunder x hx hxreq hp
    have hxdepth := hp.depth
    have hcap := fun hxcap => not_le.mpr (habove x hx hxcap hxreq) (hlimit ▸ hp.impact)
    split at hcap
    · next htier =>
        -- above the cap and within the depth: the cap is the depth cap
        have hcapDepth : depthCapOf config (depthOf asks) < x := by
          by_contra hnot
          exact hcap (by omega)
        exact hunder ⟨htier, by omega, hp.mono hsorted (by omega)⟩
    · exact hcap (by omega)

end Evaluated

/-- What the service allows, when it evaluates at all. -/
theorem allowedSize_iff {orders : List OrderResponse} {quoteAsset : JsString}
    (hdepth : depthOf (sortAsks orders quoteAsset) ≠ 0) (heval : ∃ cap, suggestedCap config
      (classifyLiquidityTier (depthOf (sortAsks orders quoteAsset)) config)
      (depthOf (sortAsks orders quoteAsset)) = some cap) (hx : 0 < x) :
    AllowedSize config orders quoteAsset x ↔ Permits config (sortAsks orders quoteAsset) x := by
  unfold AllowedSize
  simp only [evaluatePriceImpact, parseAmount_decimal hx]
  constructor
  · rintro ⟨e, he, hallowed⟩
    obtain ⟨_, -, hspec⟩ := evaluateAsks_ok hdepth he
    exact hspec.allowed.mp hallowed
  · intro hpermits
    obtain ⟨e, he⟩ := (evaluateAsks_iff hdepth).mpr heval
    obtain ⟨_, -, hspec⟩ := evaluateAsks_ok hdepth he
    exact ⟨e, he, hspec.allowed.mpr hpermits⟩

/-- **The suggested size**, for every book, configuration and request. A positive suggestion is allowed
and is the largest allowed size up to the request exactly when it neither overshoots the impact limit
nor undershoots the depth limit. -/
theorem suggestion_iff (config : PriceImpactConfig) (orders : List OrderResponse)
    (amount quoteAsset : JsString) (requested : Nat) (hrequested : parseAmount amount = some requested)
    (e : PriceImpactEvaluation) (h : evaluatePriceImpact config orders amount quoteAsset = .ok e)
    (hpos : 0 < e.suggestedMaxAmount) :
    (AllowedSize config orders quoteAsset e.suggestedMaxAmount.toNat ∧
      ∀ x : Nat, e.suggestedMaxAmount < x → x ≤ requested →
        ¬ AllowedSize config orders quoteAsset x) ↔
    ¬ Overshoots config (sortAsks orders quoteAsset) requested ∧
      ¬ Undershoots config (sortAsks orders quoteAsset) requested := by
  rw [evaluatePriceImpact, hrequested] at h
  have hdepth : depthOf (sortAsks orders quoteAsset) ≠ 0 := by
    intro hdepth
    rw [(evaluateAsks_empty hdepth h).2] at hpos
    exact lt_irrefl 0 hpos
  obtain ⟨cap, hcap, hspec⟩ := evaluateAsks_ok hdepth h
  rw [hspec.liquidityTier] at hcap
  have hallowed : ∀ x, 0 < x → (AllowedSize config orders quoteAsset x ↔
      Permits config (sortAsks orders quoteAsset) x) :=
    fun x hx => allowedSize_iff hdepth ⟨cap, hcap⟩ hx
  have hsorted := sortAsks_sorted orders quoteAsset
  obtain ⟨rfl, hden⟩ := suggestedCap_ok hcap
  rw [← hspec.permits_iff hden hdepth hsorted hpos, ← hspec.maximal_iff hsorted hpos,
    hallowed _ (by omega)]
  refine and_congr_right fun _ => forall_congr' fun x => imp_congr_right fun hx => ?_
  rw [hallowed x (by omega)]

/-- Ten units at 100 and 30000 at 1000. -/
def sampleBook : List OrderResponse := [⟨30000, 1000, js "USDC"⟩, ⟨10, 100, js "USDC"⟩]

/-- Two thirds of a book of three units, rounded down, as the depth limit. -/
def sampleShareConfig : PriceImpactConfig :=
  { defaultPriceImpactConfig with maxIlliquidDepthConsumptionBps := 6666 }

/-- A book at one price. -/
def sampleFlatBook : List OrderResponse := [⟨300, 100, js "USDC"⟩]

/-- The suggestion for 200 of the 300 units is the depth cap of 150. It is allowed, and no size up to
the request is beyond it. -/
theorem suggestion_of_flat_book :
    ∃ e, evaluatePriceImpact defaultPriceImpactConfig sampleFlatBook (js "200") (js "USDC") = .ok e ∧
      e.suggestedMaxAmount = 150 ∧
      AllowedSize defaultPriceImpactConfig sampleFlatBook (js "USDC") e.suggestedMaxAmount.toNat ∧
      ∀ x : Nat, e.suggestedMaxAmount < x → x ≤ 200 →
        ¬ AllowedSize defaultPriceImpactConfig sampleFlatBook (js "USDC") x := by
  have heval : (evaluatePriceImpact defaultPriceImpactConfig sampleFlatBook (js "200")
      (js "USDC")).toOption.map (·.suggestedMaxAmount) = some 150 := by decide +kernel
  cases h : evaluatePriceImpact defaultPriceImpactConfig sampleFlatBook (js "200") (js "USDC") with
  | error err =>
      rw [h] at heval
      cases heval
  | ok e =>
      rw [h] at heval
      have hsuggested : e.suggestedMaxAmount = 150 := Option.some.inj heval
      refine ⟨e, rfl, hsuggested, (suggestion_iff _ _ _ _ 200 (by decide +kernel) e h (by omega)).mpr
        ⟨fun hover => ?_, fun hunder => ?_⟩⟩
      · exact absurd hover.2 (by decide +kernel)
      · have hshare := hunder.2.2.consumption (by decide +kernel)
        exact absurd hshare (by decide +kernel)

/-- **A request of five units gets a suggestion that the service refuses**: the whole depth, whose
impact is far above the limit. And in a small illiquid book the suggestion is one unit where two are
allowed. -/
theorem suggestion_refused :
    ((evaluatePriceImpact defaultPriceImpactConfig sampleBook (js "5") (js "USDC")).toOption.map
        (·.suggestedMaxAmount) = some 30010 ∧
      (evaluatePriceImpact defaultPriceImpactConfig sampleBook (js "30010") (js "USDC")).toOption.map
        (·.isAllowed) = some false) ∧
    ((evaluatePriceImpact sampleShareConfig [⟨3, 100, js "USDC"⟩] (js "2") (js "USDC")).toOption.map
        fun e => (e.isAllowed, e.suggestedMaxAmount)) = some (true, 1) := by
  decide +kernel

end VerdantBond
