import VerdantBond.Dex.Twap

set_option autoImplicit false

/-! # DEXRouter: the average is exact

What `compute_twap` returns, said of the fills of a market and not of its observations. The
observations are one for each fill timestamp, with the last price filled at it (`Compressed`), and of
those the last 32 (`recordAll_eq`). The loop adds up, for every second from the oldest of them on, the
price of the last fill at or before that second (`weigh_ok`); so the result is the average of that
price over these seconds (`twap_exact`).
-/

namespace VerdantBond

open List

open DEXRouter (segmentEnd weigh twap observe)

/-! ## Fills and prices in force -/

/-- The fill of a market in an event, with its time. -/
def timedFill (bond : Nat) (asset : Symbol) (e : DexEvent) : Option PriceObservation :=
  (fillIn bond asset e).map fun x => ⟨e.pre.base.clock.timestamp, x.mark⟩

def timedFills (bond : Nat) (asset : Symbol) (es : List DexEvent) : List PriceObservation :=
  es.filterMap (timedFill bond asset)

variable (fs : List PriceObservation)

/-- The last of the fills at or before a time. -/
def lastAt (t : Nat) : Option PriceObservation :=
  (fs.filter fun f => f.timestamp ≤ t).getLast?

/-- The price in force at a time. -/
def priceAt (t : Nat) : Int := (lastAt fs t).elim 0 (·.price)

/-- The oldest of the last 32 distinct times of fills. -/
def oldestTime : Option Nat :=
  let times := (fs.map (·.timestamp)).dedup
  (times.drop (times.length - maxPriceObs)).head?

/-- The seconds of the window, from the oldest of these times on. -/
def secondsInForce (now windowSeconds : Nat) : List Nat :=
  match oldestTime fs with
  | none => []
  | some oldest =>
      List.range' (max oldest (now - windowSeconds)) (now - max oldest (now - windowSeconds))

def InTimeOrder : Prop :=
  fs.Pairwise fun f g => f.timestamp ≤ g.timestamp

variable {fs gs later obs : List PriceObservation} {t now cutoff : Nat} {cur : PriceObservation}
  {weightedSum totalWeight : Int}

theorem lastAt_append {g : PriceObservation} (hg : g ∈ gs) (ht : g.timestamp ≤ t) :
    lastAt (fs ++ gs) t = lastAt gs t := by
  have hne : (gs.filter fun f => f.timestamp ≤ t) ≠ [] :=
    ne_nil_of_mem (mem_filter.mpr ⟨hg, decide_eq_true ht⟩)
  rw [lastAt, lastAt, filter_append, getLast?_append_of_ne_nil _ hne]

theorem lastAt_append_of_later (h : ∀ g ∈ gs, t < g.timestamp) :
    lastAt (fs ++ gs) t = lastAt fs t := by
  have hnil : (gs.filter fun f => f.timestamp ≤ t) = [] := by
    rw [filter_eq_nil_iff]
    intro g hg
    simpa using h g hg
  rw [lastAt, lastAt, filter_append, hnil, append_nil]

/-- A price is in force until the next observation, -/
theorem priceAt_cons_of_later (hcur : cur.timestamp ≤ t) (h : ∀ o ∈ later, t < o.timestamp) :
    priceAt (cur :: later) t = cur.price := by
  have hlast : lastAt ([cur] ++ later) t = lastAt [cur] t := lastAt_append_of_later h
  rw [priceAt, ← singleton_append, hlast]
  simp [lastAt, hcur]

/-- and no longer. -/
theorem priceAt_cons_of_le {next : PriceObservation} {rest : List PriceObservation}
    (h : next.timestamp ≤ t) : priceAt (cur :: next :: rest) t = priceAt (next :: rest) t := by
  have hlast : lastAt ([cur] ++ next :: rest) t = lastAt (next :: rest) t :=
    lastAt_append mem_cons_self h
  rw [priceAt, priceAt, ← singleton_append, hlast]

/-! ## What is recorded -/

/-- The observations of a run of fills, and the same without a bound on their number. -/
def recordAll (fs : List PriceObservation) : List PriceObservation :=
  fs.foldl (fun obs f => record f.timestamp f.price obs) []

def observeAll (fs : List PriceObservation) : List PriceObservation :=
  fs.foldl (fun obs f => observe f.timestamp f.price obs) []

theorem observeAll_snoc (fs : List PriceObservation) (f : PriceObservation) :
    observeAll (fs ++ [f]) = earlier f.timestamp (observeAll fs) ++ [f] := by
  rw [observeAll, foldl_append]
  exact observe_eq f.timestamp f.price (observeAll fs)

/-- **One observation for each time, with its last price.** -/
structure Compressed (fs obs : List PriceObservation) : Prop where
  strict : obs.Pairwise fun o p => o.timestamp < p.timestamp
  times : ∀ t, t ∈ obs.map (·.timestamp) ↔ t ∈ fs.map (·.timestamp)
  last : ∀ t, lastAt obs t = lastAt fs t

/-- Before a fill, the observations are older than it, and those that are not kept are of its time. -/
theorem Compressed.before (h : Compressed fs obs) (ht : ∀ f ∈ fs, f.timestamp ≤ t) :
    (∀ o ∈ earlier t obs, o.timestamp < t) ∧ (earlier t obs).Pairwise (·.timestamp < ·.timestamp) ∧
      (∀ u, u ≠ t → (u ∈ (earlier t obs).map (·.timestamp) ↔ u ∈ obs.map (·.timestamp))) ∧
      ∀ u, u < t → lastAt (earlier t obs) u = lastAt obs u := by
  have hle : ∀ o ∈ obs, o.timestamp ≤ t := by
    intro o ho
    obtain ⟨f, hf, heq⟩ := mem_map.mp ((h.times o.timestamp).mp (mem_map_of_mem ho))
    exact heq ▸ ht f hf
  have hstrict := h.strict
  rcases earlier_cases t obs with ⟨price, hobs⟩ | ⟨hall, hlast⟩
  · generalize earlier t obs = before at hobs
    subst hobs
    rw [pairwise_append] at hstrict
    refine ⟨fun o ho => hstrict.2.2 o ho _ (mem_singleton_self _), hstrict.1, fun u hu => ?_,
      fun u hu => ?_⟩
    · simp [hu]
    · exact (lastAt_append_of_later (by simpa using hu)).symm
  · rw [hall]
    refine ⟨fun o ho => ?_, hstrict, fun _ _ => Iff.rfl, fun _ _ => rfl⟩
    obtain ⟨init, last, rfl⟩ := eq_nil_or_concat obs |>.resolve_left (ne_nil_of_mem ho)
    have hlt : last.timestamp < t :=
      lt_of_le_of_ne (hle last (by simp)) (hlast last (by simp))
    rw [concat_eq_append, pairwise_append] at hstrict
    rcases mem_append.mp (concat_eq_append ▸ ho) with hinit | hsingle
    · exact (hstrict.2.2 o hinit last (mem_singleton_self _)).trans hlt
    · rw [mem_singleton.mp hsingle]
      exact hlt

theorem compressed_observeAll (h : InTimeOrder fs) : Compressed fs (observeAll fs) := by
  induction fs using reverseRecOn with
  | nil => exact ⟨.nil, fun _ => Iff.rfl, fun _ => rfl⟩
  | append_singleton fs f ih =>
      rw [InTimeOrder, pairwise_append] at h
      have hle : ∀ g ∈ fs, g.timestamp ≤ f.timestamp :=
        fun g hg => h.2.2 g hg f (mem_singleton_self f)
      have hcomp := ih h.1
      obtain ⟨h1, h2, h3, h4⟩ := hcomp.before hle
      rw [observeAll_snoc]
      refine ⟨?_, fun t => ?_, fun t => ?_⟩
      · rw [pairwise_append]
        exact ⟨h2, pairwise_singleton .., fun o ho p hp => mem_singleton.mp hp ▸ h1 o ho⟩
      · rw [map_append, map_append, mem_append, mem_append]
        by_cases ht : t = f.timestamp
        · simp [ht]
        · rw [h3 t ht, hcomp.times t]
      · by_cases ht : f.timestamp ≤ t
        · rw [lastAt_append (mem_singleton_self f) ht, lastAt_append (mem_singleton_self f) ht]
        · have hlater : ∀ g ∈ [f], t < g.timestamp := by simpa using ht
          rw [lastAt_append_of_later hlater, lastAt_append_of_later hlater, h4 t (not_le.mp ht),
            hcomp.last t]

/-- The times of the observations are the distinct times of the fills. -/
theorem Compressed.map_timestamp (h : Compressed fs obs) (horder : InTimeOrder fs) :
    obs.map (·.timestamp) = (fs.map (·.timestamp)).dedup := by
  have hobs : (obs.map (·.timestamp)).Pairwise (· < ·) := pairwise_map.mpr h.strict
  have hfs : ((fs.map (·.timestamp)).dedup).Pairwise (· ≤ ·) :=
    (pairwise_map.mpr horder).sublist (dedup_sublist _)
  have hperm : (obs.map (·.timestamp)).Perm (fs.map (·.timestamp)).dedup := by
    rw [perm_ext_iff_of_nodup (hobs.imp ne_of_lt) (nodup_dedup _)]
    intro t
    rw [h.times t, mem_dedup]
  exact hperm.eq_of_pairwise' (hobs.imp le_of_lt) hfs

/-- Dropping the oldest observations leaves the latest, which is all that a fill looks at. -/
theorem earlier_drop (t : Nat) (obs : List PriceObservation) :
    earlier t (obs.drop (obs.length - maxPriceObs)) =
      (earlier t obs).drop (obs.length - maxPriceObs) := by
  have hpos : 0 < maxPriceObs := by decide
  rcases eq_nil_or_concat obs with rfl | ⟨init, last, rfl⟩
  · rfl
  · rw [concat_eq_append, length_append, length_singleton, drop_append_of_le_length (by omega)]
    by_cases ht : last.timestamp = t
    · simp [earlier, ht]
    · simp only [earlier, getLast?_append, getLast?_singleton, Option.some_or, if_neg ht]
      rw [drop_append_of_le_length (by omega)]

theorem length_le_earlier (t : Nat) (obs : List PriceObservation) :
    obs.length ≤ (earlier t obs).length + 1 := by
  rcases earlier_cases t obs with ⟨price, hobs⟩ | ⟨hall, -⟩
  · rw [hobs, earlier_snoc]
    simp
  · rw [hall]
    omega

/-- **The last 32 observations are kept.** -/
theorem recordAll_eq (fs : List PriceObservation) :
    recordAll fs = (observeAll fs).drop ((observeAll fs).length - maxPriceObs) := by
  induction fs using reverseRecOn with
  | nil => rfl
  | append_singleton fs f ih =>
      have hrecord : recordAll (fs ++ [f]) = record f.timestamp f.price (recordAll fs) := by
        rw [recordAll, foldl_append]
        rfl
      rw [hrecord, ih, observeAll_snoc, record, observe_eq]
      have hpos : 0 < maxPriceObs := by decide
      generalize observeAll fs = obs
      have hlength := length_le_earlier f.timestamp obs
      rw [earlier_drop]
      generalize earlier f.timestamp obs = before at hlength
      rw [show (PriceObservation.mk f.timestamp f.price) = f from rfl]
      have hle : obs.length - maxPriceObs ≤ before.length := by omega
      rw [← drop_append_of_le_length hle, drop_drop]
      congr 1
      rw [length_drop, length_append, length_singleton]
      omega

/-! ## What is weighed -/

/-- Where the first price of a history comes into force, within the window. -/
def coveredFrom (now cutoff : Nat) : List PriceObservation → Nat
  | [] => now
  | o :: _ => max o.timestamp cutoff

theorem sum_map_range'_const {p : Int} {g : Nat → Int} {a n : Nat}
    (h : ∀ t, a ≤ t → t < a + n → g t = p) : ((range' a n).map g).sum = p * n := by
  have hconst : (range' a n).map g = replicate n p := by
    rw [eq_replicate_iff, length_map, length_range']
    refine ⟨rfl, fun x hx => ?_⟩
    obtain ⟨t, ht, rfl⟩ := mem_map.mp hx
    rw [mem_range'_1] at ht
    exact h t ht.1 ht.2
  rw [hconst, sum_replicate, nsmul_eq_mul, mul_comm]

/-- The segment of an observation ends where the history after it begins, or is empty. -/
theorem segmentEnd_cases (hcutoff : cutoff ≤ now) (hcur : cur.timestamp ≤ now)
    (hlater : ∀ o ∈ later, cur.timestamp < o.timestamp ∧ o.timestamp ≤ now) :
    coveredFrom now cutoff later ≤ now ∧
      (segmentEnd now later ≤ max cur.timestamp cutoff ∧
        coveredFrom now cutoff later = max cur.timestamp cutoff ∨
      max cur.timestamp cutoff < segmentEnd now later ∧
        coveredFrom now cutoff later = segmentEnd now later) := by
  cases later with
  | nil =>
      simp only [coveredFrom, segmentEnd]
      omega
  | cons next rest =>
      have hnext := hlater next mem_cons_self
      simp only [coveredFrom, segmentEnd]
      omega

/-- The seconds of the first price, and the seconds of the later ones. -/
theorem sum_prices_cons (hstrict : (cur :: later).Pairwise fun o p => o.timestamp < p.timestamp)
    (hle : max cur.timestamp cutoff ≤ coveredFrom now cutoff later)
    (hend : coveredFrom now cutoff later ≤ now)
    (hcases : coveredFrom now cutoff later = max cur.timestamp cutoff ∨
      coveredFrom now cutoff later = segmentEnd now later) :
    ((range' (max cur.timestamp cutoff)
        (now - max cur.timestamp cutoff)).map (priceAt (cur :: later))).sum =
      cur.price * (coveredFrom now cutoff later - max cur.timestamp cutoff : Nat) +
        ((range' (coveredFrom now cutoff later)
          (now - coveredFrom now cutoff later)).map (priceAt later)).sum := by
  rw [pairwise_cons] at hstrict
  set start := max cur.timestamp cutoff with hstart
  set next := coveredFrom now cutoff later with hnext
  rw [range'_split hle hend, map_append, sum_append]
  congr 1
  · refine sum_map_range'_const fun t hst hlt => priceAt_cons_of_later (by omega) fun o ho => ?_
    -- a second before the next price comes into force
    cases later with
    | nil => cases ho
    | cons first rest =>
        have hfirst : first.timestamp ≤ o.timestamp := by
          rcases mem_cons.mp ho with rfl | ho
          · exact le_rfl
          · exact ((pairwise_cons.mp hstrict.2).1 o ho).le
        simp only [segmentEnd] at hcases
        omega
  · refine congrArg sum (map_congr_left fun t ht => ?_)
    rw [mem_range'_1] at ht
    cases later with
    | nil =>
        rw [coveredFrom] at hnext
        omega
    | cons first rest =>
        rw [coveredFrom] at hnext
        exact priceAt_cons_of_le (by omega)

/-- **The loop adds up the prices in force**, second by second. -/
theorem weigh_ok (hcutoff : cutoff ≤ now)
    (hstrict : obs.Pairwise fun o p => o.timestamp < p.timestamp)
    (hnow : ∀ o ∈ obs, o.timestamp ≤ now) {a b : Int}
    (h : weigh now cutoff obs weightedSum totalWeight = .ok (a, b)) :
    a = weightedSum + ((range' (coveredFrom now cutoff obs)
        (now - coveredFrom now cutoff obs)).map (priceAt obs)).sum ∧
      b = totalWeight + (now - coveredFrom now cutoff obs : Nat) := by
  induction obs generalizing weightedSum totalWeight with
  | nil =>
      rw [weigh, pure_ok_iff, Prod.mk.injEq] at h
      simp [coveredFrom, h.1, h.2]
  | cons cur later ih =>
      have hfirst := pairwise_cons.mp hstrict
      have hrest : ∀ o ∈ later, o.timestamp ≤ now := fun o ho => hnow o (mem_cons_of_mem _ ho)
      obtain ⟨hend, hcases⟩ := segmentEnd_cases hcutoff (hnow cur mem_cons_self)
        fun o ho => ⟨hfirst.1 o ho, hrest o ho⟩
      rw [coveredFrom, sum_prices_cons hstrict (by omega) hend (by omega)]
      unfold weigh at h
      rcases hcases with ⟨hempty, hfrom⟩ | ⟨hlong, hfrom⟩
      · simp only [if_pos hempty] at h
        obtain ⟨h1, h2⟩ := ih hfirst.2 hrest h
        rw [hfrom, Nat.sub_self, Nat.cast_zero, mul_zero, zero_add, ← hfrom]
        exact ⟨h1, h2⟩
      · simp only [if_neg (not_le.mpr hlong), bind_ok_iff, okOr_ok_iff, orTrap_ok_iff,
          i128_eq_some] at h
        obtain ⟨_, ⟨-, rfl⟩, _, ⟨-, rfl⟩, _, ⟨-, rfl⟩, h⟩ := h
        obtain ⟨h1, h2⟩ := ih hfirst.2 hrest h
        rw [← hfrom] at h1 h2
        exact ⟨by rw [h1]; ring, by rw [h2]; omega⟩

theorem weigh_error {fault : Fault DEXError}
    (h : weigh now cutoff obs weightedSum totalWeight = .error fault) :
    fault = .err .overflow ∨ fault = .trap := by
  induction obs generalizing weightedSum totalWeight with
  | nil => cases h
  | cons cur later ih =>
      unfold weigh at h
      simp only at h
      split at h
      · exact ih h
      · generalize ((segmentEnd now later - max cur.timestamp cutoff : Nat) : Int) = segment at h
        cases hmul : i128 (cur.price * segment) with
        | none =>
            rw [hmul] at h
            exact .inl (Except.error.inj h).symm
        | some contribution =>
            rw [hmul] at h
            cases hadd : i128 (weightedSum + contribution) with
            | none =>
                simp only [okOr_some, ok_bind, hadd] at h
                exact .inl (Except.error.inj h).symm
            | some sum =>
                cases hweight : i128 (totalWeight + segment) with
                | none =>
                    simp only [okOr_some, ok_bind, hadd, hweight] at h
                    exact .inr (Except.error.inj h).symm
                | some weight =>
                    simp only [okOr_some, orTrap_some, ok_bind, hadd, hweight] at h
                    exact ih h

/-! ## The average -/

/-- **The exact average**: there is no price data exactly when no price was in force for a second of the
window, and the result is else the floor of the average price, which some price in force is at most and
some is at least. -/
structure ExactAverage (fs : List PriceObservation) (now windowSeconds : Nat)
    (result : Outcome DEXError Int) : Prop where
  noData : result = .error (.err .noPriceData) ↔ secondsInForce fs now windowSeconds = []
  average : secondsInForce fs now windowSeconds ≠ [] →
    result = .ok (((secondsInForce fs now windowSeconds).map (priceAt fs)).sum /
      (secondsInForce fs now windowSeconds).length)
  between : ∀ r, result = .ok r →
    (∃ t ∈ secondsInForce fs now windowSeconds, priceAt fs t ≤ r) ∧
      ∃ t ∈ secondsInForce fs now windowSeconds, r ≤ priceAt fs t

/-- The floor of an average lies between some of the values. -/
theorem average_between {l : List Nat} (hne : l ≠ []) (g : Nat → Int) :
    (∃ t ∈ l, g t ≤ (l.map g).sum / l.length) ∧ ∃ t ∈ l, (l.map g).sum / l.length ≤ g t := by
  have hpos : (0 : Int) < l.length := by exact_mod_cast length_pos_iff.mpr hne
  set q := (l.map g).sum / (l.length : Int)
  have hlow : q * l.length ≤ (l.map g).sum := Int.ediv_mul_le _ hpos.ne'
  have hhigh : (l.map g).sum < (q + 1) * l.length := Int.lt_ediv_add_one_mul_self _ hpos
  constructor
  · by_contra hall
    push Not at hall
    have hsum := card_nsmul_le_sum (l.map g) (q + 1) (by simpa using hall)
    rw [length_map, nsmul_eq_mul, mul_comm] at hsum
    omega
  · by_contra hall
    push Not at hall
    have hsum := sum_le_card_nsmul (l.map g) (q - 1) (by
      intro x hx
      obtain ⟨t, ht, rfl⟩ := mem_map.mp hx
      have := hall t ht
      omega)
    rw [length_map, nsmul_eq_mul, mul_comm, sub_mul] at hsum
    omega

/-- The observations of a run of fills cover the seconds of the window from the oldest on, with the
prices of the fills. -/
theorem recordAll_covers (horder : InTimeOrder fs) (now windowSeconds : Nat) :
    range' (coveredFrom now (now - windowSeconds) (recordAll fs))
        (now - coveredFrom now (now - windowSeconds) (recordAll fs)) =
      secondsInForce fs now windowSeconds ∧
    ∀ t ∈ secondsInForce fs now windowSeconds, priceAt (recordAll fs) t = priceAt fs t := by
  have hcomp := compressed_observeAll horder
  have holdest : oldestTime fs = (recordAll fs).head?.map (·.timestamp) := by
    rw [oldestTime, ← hcomp.map_timestamp horder, recordAll_eq, ← map_drop, head?_map, length_map]
  unfold secondsInForce
  rw [holdest]
  cases hobs : recordAll fs with
  | nil => simp [coveredFrom]
  | cons o rest =>
      refine ⟨rfl, fun t ht => ?_⟩
      simp only [head?_cons, Option.map_some] at ht
      rw [mem_range'_1] at ht
      -- what was dropped is older than the oldest observation, which is in force by then
      have hsplit : observeAll fs =
          (observeAll fs).take ((observeAll fs).length - maxPriceObs) ++ (o :: rest) := by
        rw [← hobs, recordAll_eq, take_append_drop]
      rw [priceAt, priceAt, ← hcomp.last t, hsplit, lastAt_append mem_cons_self (by omega)]

theorem recordAll_strict (horder : InTimeOrder fs) (hnow : ∀ f ∈ fs, f.timestamp ≤ now) :
    (recordAll fs).Pairwise (·.timestamp < ·.timestamp) ∧ ∀ o ∈ recordAll fs, o.timestamp ≤ now := by
  have hcomp := compressed_observeAll horder
  rw [recordAll_eq]
  refine ⟨hcomp.strict.sublist (drop_sublist _ _), fun o ho => ?_⟩
  obtain ⟨f, hf, heq⟩ := mem_map.mp
    ((hcomp.times o.timestamp).mp (mem_map_of_mem (mem_of_mem_drop ho)))
  exact heq ▸ hnow f hf

theorem sum_priceAt_nonneg (hprices : ∀ f ∈ fs, 0 ≤ f.price) (seconds : List Nat) :
    0 ≤ (seconds.map (priceAt fs)).sum := by
  refine sum_nonneg fun x hx => ?_
  obtain ⟨t, -, rfl⟩ := mem_map.mp hx
  unfold priceAt
  cases hlast : lastAt fs t with
  | none => exact le_rfl
  | some f => exact hprices f (mem_filter.mp (mem_of_getLast? hlast)).1

section Fills

variable {fs : List PriceObservation} (horder : InTimeOrder fs) {clock : Clock}
  (hnow : ∀ f ∈ fs, f.timestamp ≤ clock.timestamp) (hprices : ∀ f ∈ fs, 0 ≤ f.price)
  {windowSeconds : Nat} (hwindow : 0 < windowSeconds)
  (hoverflow : twap clock (recordAll fs) windowSeconds ≠ .error (.err .overflow) ∧
    twap clock (recordAll fs) windowSeconds ≠ .error .trap)

include horder hnow hprices hwindow hoverflow

/-- The result, for the observations of any fills in the order of their times. -/
theorem twap_recordAll_eq :
    twap clock (recordAll fs) windowSeconds =
      if secondsInForce fs clock.timestamp windowSeconds = [] then .error (.err .noPriceData)
      else .ok (((secondsInForce fs clock.timestamp windowSeconds).map (priceAt fs)).sum /
        (secondsInForce fs clock.timestamp windowSeconds).length) := by
  obtain ⟨hseconds, hvalues⟩ := recordAll_covers horder clock.timestamp windowSeconds
  obtain ⟨hstrict, hpast⟩ := recordAll_strict horder hnow
  have hsum := map_congr_left hvalues
  have hnonneg := sum_priceAt_nonneg hprices (secondsInForce fs clock.timestamp windowSeconds)
  generalize secondsInForce fs clock.timestamp windowSeconds = seconds at hseconds hsum hnonneg ⊢
  unfold twap at hoverflow ⊢
  rw [reject_of_not (by omega), ok_bind] at hoverflow ⊢
  -- two ways to have no price: no observation, or none with weight
  cases hobs : recordAll fs with
  | nil =>
      rw [hobs] at hseconds
      rw [if_pos (by rw [← hseconds]; simp [coveredFrom])]
      rfl
  | cons o rest =>
      rw [hobs] at hoverflow hseconds hsum hstrict hpast
      rw [reject_of_not (by simp), ok_bind] at hoverflow ⊢
      cases hweigh : weigh clock.timestamp (clock.timestamp - windowSeconds) (o :: rest) 0 0 with
      | error fault =>
          simp only [hweigh] at hoverflow
          rcases weigh_error hweigh with rfl | rfl
          · exact absurd rfl hoverflow.1
          · exact absurd rfl hoverflow.2
      | ok sums =>
          obtain ⟨h1, h2⟩ := weigh_ok (Nat.sub_le _ _) hstrict hpast hweigh
          have hlength := congrArg length hseconds
          rw [length_range'] at hlength
          rw [hseconds, hsum, zero_add] at h1
          rw [hlength, zero_add] at h2
          simp only [hweigh, ok_bind, h1, h2]
          by_cases hnil : seconds = []
          · rw [if_pos hnil, hnil]
            rfl
          · have hpos : (seconds.length : Int) ≠ 0 := by simpa using hnil
            rw [reject_of_not hpos, if_neg hnil, ok_bind, pure_eq_ok,
              Int.tdiv_eq_ediv_of_nonneg hnonneg]

theorem twap_recordAll :
    ExactAverage fs clock.timestamp windowSeconds (twap clock (recordAll fs) windowSeconds) := by
  rw [twap_recordAll_eq horder hnow hprices hwindow hoverflow]
  by_cases hnil : secondsInForce fs clock.timestamp windowSeconds = []
  · rw [if_pos hnil]
    exact ⟨iff_of_true rfl hnil, fun hne => absurd hnil hne, fun r hr => by cases hr⟩
  · rw [if_neg hnil]
    refine ⟨iff_of_false (by simp) hnil, fun _ => rfl, fun r hr => ?_⟩
    rw [← Except.ok.inj hr]
    exact average_between hnil (priceAt fs)

end Fills

/-! ## Runs -/

/-- The observations of a market are those of its fills, which are in the order of their times. -/
structure FillsRecorded (bond : Nat) (asset : Symbol) (es : List DexEvent) (w : DexWorld) : Prop where
  recorded : w.dex.priceObs bond asset = recordAll (timedFills bond asset es)
  ordered : InTimeOrder (timedFills bond asset es)
  past : ∀ f ∈ timedFills bond asset es, f.timestamp ≤ w.base.clock.timestamp

theorem FillsRecorded.snoc {bond : Nat} {asset : Symbol} {es : List DexEvent} {w w' : DexWorld}
    {e : DexEvent} (h : FillsRecorded bond asset es w) (hpre : e.pre = w)
    (hle : w.base.clock.timestamp ≤ w'.base.clock.timestamp) (hstep : PriceStep w w' e bond asset) :
    FillsRecorded bond asset (es ++ [e]) w' := by
  cases hstep with
  | quiet hnofill hsame =>
      have hfills : timedFills bond asset (es ++ [e]) = timedFills bond asset es := by
        simp [timedFills, timedFill, hnofill]
      exact ⟨by rw [hsame, hfills, h.recorded], hfills ▸ h.ordered,
        fun f hf => le_trans (h.past f (hfills ▸ hf)) hle⟩
  | @filled x hfill hnow hrecorded =>
      have hfills : timedFills bond asset (es ++ [e]) =
          timedFills bond asset es ++ [⟨w.base.clock.timestamp, x.mark⟩] := by
        simp [timedFills, timedFill, hfill, hpre]
      refine ⟨?_, ?_, fun f hf => ?_⟩
      · rw [hrecorded, hfills, h.recorded, recordAll, recordAll, foldl_append]
        rfl
      · rw [hfills, InTimeOrder, pairwise_append]
        exact ⟨h.ordered, pairwise_singleton .., fun f hf g hg =>
          mem_singleton.mp hg ▸ h.past f hf⟩
      · rw [hfills] at hf
        rcases mem_append.mp hf with hf | hf
        · exact le_trans (h.past f hf) hle
        · rw [mem_singleton.mp hf]
          exact hle

theorem fillsRecorded (base : IssuerWorld) (admin : Address) (l : List DexInput) (bond : Nat)
    (asset : Symbol) :
    FillsRecorded bond asset (dexHistory base admin l) (dexRun base admin l) := by
  refine dexMachine.history_induct (P := FillsRecorded bond asset) ?_ (fun l i h => ?_) l
  · exact ⟨rfl, .nil, fun f hf => absurd hf not_mem_nil⟩
  · exact h.snoc rfl (DexWorld.clock_le _ i).2 (DexWorld.priceStep _ i bond asset)

/-- **The time-weighted average price is exact**, for every run, market and positive window, as long as
the computation does not overflow. -/
theorem twap_exact (base : IssuerWorld) (admin : Address) (l : List DexInput) (bond : Nat)
    (asset : Symbol) (windowSeconds : Nat) (hwindow : 0 < windowSeconds)
    (hprices : ∀ f ∈ timedFills bond asset (dexHistory base admin l), 0 ≤ f.price)
    (hoverflow : (dexRun base admin l).dex.computeTwap (dexRun base admin l).base.clock bond asset
        windowSeconds ≠ .error (.err .overflow) ∧
      (dexRun base admin l).dex.computeTwap (dexRun base admin l).base.clock bond asset
        windowSeconds ≠ .error .trap) :
    ExactAverage (timedFills bond asset (dexHistory base admin l))
      (dexRun base admin l).base.clock.timestamp windowSeconds
      ((dexRun base admin l).dex.computeTwap (dexRun base admin l).base.clock bond asset
        windowSeconds) := by
  obtain ⟨hrecorded, hordered, hpast⟩ := fillsRecorded base admin l bond asset
  unfold DEXRouter.computeTwap at hoverflow ⊢
  rw [hrecorded] at hoverflow ⊢
  exact twap_recordAll hordered hpast hprices hwindow hoverflow

/-- Thirty-two trades, one every ten seconds, the first at 100 and the others at 300: the average over
all of them is 293. -/
theorem twap_exact_sample :
    (dexRun sampleHolding ⟨1⟩ sampleTrades).dex.computeTwap
        (dexRun sampleHolding ⟨1⟩ sampleTrades).base.clock 1 "USDC" 5000 = .ok 293 ∧
      ExactAverage (timedFills 1 "USDC" (dexHistory sampleHolding ⟨1⟩ sampleTrades))
        (dexRun sampleHolding ⟨1⟩ sampleTrades).base.clock.timestamp 5000
        ((dexRun sampleHolding ⟨1⟩ sampleTrades).dex.computeTwap
          (dexRun sampleHolding ⟨1⟩ sampleTrades).base.clock 1 "USDC" 5000) := by
  have hvalue : (dexRun sampleHolding ⟨1⟩ sampleTrades).dex.computeTwap
      (dexRun sampleHolding ⟨1⟩ sampleTrades).base.clock 1 "USDC" 5000 = .ok 293 := by
    decide +kernel
  refine ⟨hvalue, twap_exact sampleHolding ⟨1⟩ sampleTrades 1 "USDC" 5000 (by decide)
    (by decide +kernel) ?_⟩
  rw [hvalue]
  exact ⟨by simp, by simp⟩

end VerdantBond
