import VerdantBond.Lib.Placement
import VerdantBond.Protocol.Calculations

set_option autoImplicit false

/-! # True-ups

An adjustment waits until the first batch of some period takes it, with all others that wait, and it
then stays with that period. `trueUpBookings` keeps over the history where each adjustment went, and
`TrueUpsBooked` ties this to the record: the stored adjustments are the booked ones, and what a
period's calculation took is what went to the period.
-/

namespace VerdantBond

open Function Machine Placement List

/-! ## Bookings -/

/-- What the calculation of a period took of the true-ups. -/
def CouponBond.trueUpOf (b : CouponBond) (period : Nat) : Int :=
  ((b.getCouponCalculation period).map CouponCalculation.trueUpAmount).getD 0

/-- The stored adjustments that no period took yet. -/
def CouponBond.pendingTrueUp (b : CouponBond) : Int :=
  ((List.range b.trueUpCount).map (openAmountAt b.trueUpAdjustment)).sum

variable (id : Nat) (es : List ProtocolEvent)

/-- The adjustment an event submits for a bond. -/
def submittedIn (e : ProtocolEvent) : Option Int :=
  (callOn id e).bind fun c => c.2.trueUp

/-- The period of a bond that an event starts. -/
def startedIn (e : ProtocolEvent) : Option Nat :=
  ((callOn id e).bind fun c => c.2.batch.map CouponBatch.periodIndex).filter fun period =>
    ((e.pre.engine.bond id).couponCalculation period).isNone = true ∧
      ((e.post.engine.bond id).couponCalculation period).isSome = true

/-- The adjustments submitted for a bond, oldest first. -/
def submittedTrueUps : List Int :=
  es.filterMap (submittedIn id)

/-- A submission waits; a period that starts takes all that wait. -/
def bookTrueUp (xs : List (Int × Option Nat)) (e : ProtocolEvent) : List (Int × Option Nat) :=
  match submittedIn id e, startedIn id e with
  | some amount, _ => xs ++ [(amount, none)]
  | none, some period => placeAll period xs
  | none, none => xs

/-- The adjustments submitted for a bond, each with the period that took it. -/
def trueUpBookings : List (Int × Option Nat) :=
  es.foldl (bookTrueUp id) []

theorem trueUpBookings_snoc (e : ProtocolEvent) :
    trueUpBookings id (es ++ [e]) = bookTrueUp id (trueUpBookings id es) e := by
  unfold trueUpBookings
  rw [foldl_append]
  rfl

/-- The bookings are those of the submissions, in order. -/
theorem fst_trueUpBookings : (trueUpBookings id es).map Prod.fst = submittedTrueUps id es := by
  induction es using reverseRecOn with
  | nil => rfl
  | append_singleton es e ih =>
      have hsubmitted : submittedTrueUps id (es ++ [e])
          = submittedTrueUps id es ++ (submittedIn id e).toList := by
        unfold submittedTrueUps
        rw [filterMap_append]
        cases h : submittedIn id e <;> simp [h]
      rw [trueUpBookings_snoc, hsubmitted]
      unfold bookTrueUp
      cases hamount : submittedIn id e with
      | some amount => simp [ih]
      | none =>
          cases hperiod : startedIn id e with
          | some period => simp [fst_placeAll, ih]
          | none => simp [ih]

/-! ## The record -/

/-- The record agrees with the bookings. -/
structure TrueUpsBooked (xs : List (Int × Option Nat)) (b : CouponBond) : Prop where
  count : b.trueUpCount = xs.length
  stored : ∀ i x, xs[i]? = some x → ∃ a, b.trueUpAdjustment i = some a ∧
    a.adjustmentAmount = x.1 ∧ a.applied = x.2.isSome
  recorded : ∀ p c, b.couponCalculation p = some c → c.trueUpAmount = placed xs p
  pinned : ∀ x ∈ xs, ∀ p, x.2 = some p → (b.couponCalculation p).isSome = true

namespace TrueUpsBooked

variable {xs : List (Int × Option Nat)} {b b' : CouponBond}

/-- What waits is what is stored as not applied. -/
theorem pending (h : TrueUpsBooked xs b) : b.pendingTrueUp = waiting xs := by
  unfold CouponBond.pendingTrueUp waiting
  refine congrArg sum (ext_getElem? fun i => ?_)
  rw [getElem?_map, getElem?_map, h.count]
  cases hx : xs[i]? with
  | none =>
      rw [List.getElem?_eq_none (by rw [List.length_range]; exact List.getElem?_eq_none_iff.mp hx)]
      rfl
  | some x =>
      obtain ⟨hi, -⟩ := List.getElem?_eq_some_iff.mp hx
      obtain ⟨a, ha, hamount, happlied⟩ := h.stored i x hx
      rw [List.getElem?_range hi]
      refine congrArg some ?_
      show ((b.trueUpAdjustment i).map TrueUpAdjustment.openAmount).getD 0 = _
      rw [ha, Option.map_some, Option.getD_some, TrueUpAdjustment.openAmount, happlied, hamount]
      rcases x with ⟨amount, _ | period⟩ <;> rfl

theorem congr (h : TrueUpsBooked xs b) (hadjustment : b'.trueUpAdjustment = b.trueUpAdjustment)
    (hcount : b'.trueUpCount = b.trueUpCount)
    (hcalculation : b'.couponCalculation = b.couponCalculation) : TrueUpsBooked xs b' where
  count := hcount.trans h.count
  stored := hadjustment ▸ h.stored
  recorded := hcalculation ▸ h.recorded
  pinned := hcalculation ▸ h.pinned

/-- A submission is stored behind the others, and waits. -/
theorem submit (h : TrueUpsBooked xs b) (a : TrueUpAdjustment) (ha : a.applied = false) :
    TrueUpsBooked (xs ++ [(a.adjustmentAmount, none)])
      { b with
        trueUpAdjustment := update b.trueUpAdjustment b.trueUpCount (some a)
        trueUpCount := b.trueUpCount + 1 } where
  count := by
    rw [length_append, length_singleton, ← h.count]
  stored := by
    intro i x hx
    show ∃ a', update b.trueUpAdjustment b.trueUpCount (some a) i = some a' ∧ _
    rw [h.count]
    by_cases hi : i < xs.length
    · rw [getElem?_append_left hi] at hx
      rw [update_of_ne (Nat.ne_of_lt hi)]
      exact h.stored i x hx
    · rw [getElem?_append_right (not_lt.mp hi), getElem?_singleton] at hx
      split at hx
      · next hzero =>
          cases hx
          have heq : i = xs.length := by omega
          rw [heq, update_self]
          exact ⟨a, rfl, rfl, ha⟩
      · cases hx
  recorded := fun p c hc => (h.recorded p c hc).trans (placed_snoc xs _ p).symm
  pinned := by
    intro x hx p hp
    rcases mem_append.mp hx with hx | hx
    · exact h.pinned x hx p hp
    · rw [mem_singleton.mp hx] at hp
      cases hp

/-- The first batch of a period takes all that wait. -/
theorem start (h : TrueUpsBooked xs b) {period : Nat} {c : CouponCalculation} {t : TrueUps}
    (hunpinned : b.couponCalculation period = none)
    (ht : (range b.trueUpCount).foldlM TrueUps.take ⟨b.trueUpAdjustment, 0⟩ = .ok t)
    (hamount : c.trueUpAmount = t.accumulated) (hadjustment : b'.trueUpAdjustment = t.adjustment)
    (hcount : b'.trueUpCount = b.trueUpCount)
    (hcalculation : b'.couponCalculation = update b.couponCalculation period (some c)) :
    TrueUpsBooked (placeAll period xs) b' := by
  obtain ⟨htaken, haccumulated⟩ := TrueUps.foldlM_take_ok _ ht
  have hpending : t.accumulated = waiting xs := haccumulated.trans h.pending
  -- nothing went to the period before
  have hfresh : placed xs period = 0 := by
    refine placed_eq_zero fun x hx heq => ?_
    have hpinned := h.pinned x hx period heq
    rw [hunpinned] at hpinned
    cases hpinned
  refine ⟨?_, fun i x hx => ?_, fun p c' hc' => ?_, fun x hx p hp => ?_⟩
  · rw [hcount, h.count, placeAll, List.length_map]
  · rw [placeAll, List.getElem?_map] at hx
    obtain ⟨x₀, hx₀, rfl⟩ := Option.map_eq_some_iff.mp hx
    obtain ⟨hi, -⟩ := List.getElem?_eq_some_iff.mp hx₀
    obtain ⟨a, ha, hxa, -⟩ := h.stored i x₀ hx₀
    refine ⟨a.taken, ?_, hxa, rfl⟩
    rw [hadjustment, htaken, h.count, if_pos hi, ha]
    rfl
  · rw [hcalculation] at hc'
    by_cases hp : p = period
    · subst hp
      rw [update_self] at hc'
      cases hc'
      rw [placed_placeAll, hfresh, zero_add, hamount, hpending]
    · rw [update_of_ne hp] at hc'
      rw [placed_placeAll_of_ne hp]
      exact h.recorded p c' hc'
  · rw [hcalculation]
    obtain ⟨x₀, hx₀, rfl⟩ := mem_map.mp hx
    by_cases hne : p = period
    · rw [hne, update_self]
      rfl
    · rw [update_of_ne hne]
      refine h.pinned x₀ hx₀ p ?_
      cases hsnd : x₀.2 with
      | none =>
          rw [hsnd] at hp
          exact absurd (Option.some.inj hp).symm hne
      | some p' =>
          rw [hsnd] at hp
          exact hp

end TrueUpsBooked

/-! ## One call -/

/-- **What a call does to the bookings**: nothing, a submission, or the start of a period. -/
theorem RestStep.trueUps {env : Env} {clock : Clock} {issuer : BondIssuer} {s : CouponEngine}
    {id : Nat} {call : CouponCall} {b b' : CouponBond} {xs : List (Int × Option Nat)}
    (h : RestStep env clock issuer s id call b b') (hxs : TrueUpsBooked xs b) :
    (call.trueUp = none ∧ b'.couponCalculation = b.couponCalculation ∧ TrueUpsBooked xs b') ∨
      (∃ amount, call.trueUp = some amount ∧ TrueUpsBooked (xs ++ [(amount, none)]) b') ∨
      ∃ batch, call.trueUp = none ∧ call.batch = some batch ∧
        b.couponCalculation batch.periodIndex = none ∧
        (b'.couponCalculation batch.periodIndex).isSome = true ∧
        TrueUpsBooked (placeAll batch.periodIndex xs) b' := by
  cases h with
  | plain htrueUp hperiods hrest =>
      exact .inl ⟨htrueUp, hperiods.couponCalculation,
        hxs.congr hrest.trueUpAdjustment hrest.trueUpCount hperiods.couponCalculation⟩
  | @trueUp _ period amount reason hash _ =>
      exact .inr (.inl ⟨amount, rfl,
        hxs.submit ⟨id, period, amount, reason, hash, clock.timestamp, false⟩ rfl⟩)
  | sweep | configure => exact .inl ⟨rfl, rfl, hxs.congr rfl rfl rfl⟩
  | migrate htrueUp => exact .inl ⟨htrueUp, rfl, hxs.congr rfl rfl rfl⟩
  | distribute hcall hid hwindow houtcome =>
      subst hid
      have htrueUp := CouponCall.trueUp_of_batch hcall
      cases houtcome with
      | flagged flag hb' =>
          subst hb'
          exact .inl ⟨htrueUp, rfl, hxs.congr rfl rfl rfl⟩
      | paid horacle htype hopen hvalid hprepared hpaid hrest =>
          rcases hprepared with hfirst | hlater
          · -- the first batch takes what waits
            have hcalculation := hpaid.couponCalculation.trans hfirst.couponCalculation
            obtain ⟨_, _, _, t, b₁, -, -, ht, hamount, -, hterms, rfl⟩ := hfirst.stages
            have hadjustment := hrest.trueUpAdjustment
            have hcount := hrest.trueUpCount
            refine .inr (.inr ⟨_, htrueUp, hcall, hfirst.unpinned, ?_,
              hxs.start hfirst.unpinned ht hamount ?_ ?_ hcalculation⟩)
            · rw [hcalculation, update_self]
              rfl
            · rw [hadjustment]
              rcases hterms.record with rfl | ⟨_, rfl⟩ <;> rfl
            · exact hcount.trans hterms.aside.trueUpCount
          · have hcalculation := hpaid.couponCalculation.trans hlater.couponCalculation
            have hcount := hrest.trueUpCount.trans hlater.aside.trueUpCount
            obtain ⟨_, _, _, hterms⟩ := hlater.terms
            have hadjustment := hrest.trueUpAdjustment
            rcases hterms.record with rfl | ⟨_, rfl⟩
            · exact .inl ⟨htrueUp, hcalculation, hxs.congr hadjustment hcount hcalculation⟩
            · exact .inl ⟨htrueUp, hcalculation, hxs.congr hadjustment hcount hcalculation⟩

/-! ## Runs -/

theorem startedIn_of_same {id : Nat} {e : ProtocolEvent}
    (h : (e.post.engine.bond id).couponCalculation = (e.pre.engine.bond id).couponCalculation) :
    startedIn id e = none := by
  unfold startedIn
  rw [Option.filter_eq_none_iff]
  intro period _ hstarted
  obtain ⟨hnone, hsome⟩ := of_decide_eq_true hstarted
  rw [h, Option.isNone_iff_eq_none.mp hnone] at hsome
  cases hsome

/-- The record agrees with the bookings, in every run. -/
theorem protocolRun_trueUps (d : Deployment) (l : List ProtocolInput) (id : Nat) :
    TrueUpsBooked (trueUpBookings id (protocolHistory d l)) ((protocolRun d l).engine.bond id) := by
  refine protocolHistory_induct d (P := fun es w =>
    TrueUpsBooked (trueUpBookings id es) (w.engine.bond id)) ?_ (fun l i ih => ?_) l
  · refine ⟨rfl, fun i x hx => ?_, fun p c hc => ?_, fun x hx => ?_⟩
    · cases hx
    · cases hc
    · cases hx
  · rw [trueUpBookings_snoc]
    unfold bookTrueUp
    rcases protocolRun_rest d l i id with ⟨hcall, hsame⟩ | ⟨env, call, hcall, hstep⟩
    · have hsubmitted : submittedIn id (protocolMachine.event (protocolRun d l) i) = none := by
        unfold submittedIn
        rw [hcall]
        rfl
      have hstarted := startedIn_of_same (e := protocolMachine.event (protocolRun d l) i)
        (congrArg CouponBond.couponCalculation hsame)
      rw [hsubmitted, hstarted]
      exact ih.congr (congrArg _ hsame) (congrArg _ hsame) (congrArg _ hsame)
    · have hsubmitted : submittedIn id (protocolMachine.event (protocolRun d l) i)
          = call.trueUp := by
        unfold submittedIn
        rw [hcall]
        rfl
      rw [hsubmitted]
      rcases hstep.trueUps ih with ⟨htrueUp, hcalculation, hbooked⟩ |
        ⟨amount, htrueUp, hbooked⟩ | ⟨batch, htrueUp, hbatch, hnone, hsome, hbooked⟩
      · rw [htrueUp, startedIn_of_same hcalculation]
        exact hbooked
      · rw [htrueUp]
        exact hbooked
      · have hstarted : startedIn id (protocolMachine.event (protocolRun d l) i)
            = some batch.periodIndex := by
          unfold startedIn
          rw [hcall, Option.bind_some, hbatch, Option.map_some]
          exact Option.filter_some_pos (decide_eq_true ⟨Option.isNone_iff_eq_none.mpr hnone, hsome⟩)
        rw [htrueUp, hstarted]
        exact hbooked

/-- **True-ups are applied exactly once.** In every run each submitted adjustment is booked once, with
the one period that took it or as waiting; the record agrees with the bookings; and the submitted
adjustments add up to the amounts of the pinned calculations and what is pending. -/
theorem true_ups_applied_once (d : Deployment) (l : List ProtocolInput) (id : Nat) :
    (trueUpBookings id (protocolHistory d l)).map Prod.fst
        = submittedTrueUps id (protocolHistory d l) ∧
      TrueUpsBooked (trueUpBookings id (protocolHistory d l))
        ((protocolRun d l).engine.bond id) ∧
      (submittedTrueUps id (protocolHistory d l)).sum
        = ∑ᶠ period, ((protocolRun d l).engine.bond id).trueUpOf period
          + ((protocolRun d l).engine.bond id).pendingTrueUp := by
  have hbooked := protocolRun_trueUps d l id
  have hpinned := (protocolRun_couponSound d l id).pinned
  refine ⟨fst_trueUpBookings id _, hbooked, ?_⟩
  have htrueUpOf : ∀ period, ((protocolRun d l).engine.bond id).trueUpOf period
      = placed (trueUpBookings id (protocolHistory d l)) period := by
    intro period
    unfold CouponBond.trueUpOf
    rw [hpinned.calculation]
    cases hc : ((protocolRun d l).engine.bond id).couponCalculation period with
    | some c => exact hbooked.recorded period c hc
    | none =>
        refine (placed_eq_zero fun x hx heq => ?_).symm
        have hsome := hbooked.pinned x hx period heq
        rw [hc] at hsome
        cases hsome
  rw [finsum_congr htrueUpOf, hbooked.pending, ← fst_trueUpBookings, sum_eq_placed_add_waiting]

/-- A submission before the only batch of a period is taken by it, one after it waits. -/
example :
    trueUpBookings 1 (protocolHistory sampleDeployment (sampleIssue ++ [
      .coupon sampleOracle (.submitTrueUpAdjustment ⟨1⟩ 1 0 (-1000) "late" ⟨0⟩ 1),
      .coupon sampleOracle (.distributeCoupon ⟨1⟩ 1 0 [⟨2⟩] 1 2),
      .coupon sampleOracle (.submitTrueUpAdjustment ⟨1⟩ 1 0 7 "late" ⟨0⟩ 3)]))
      = [(-1000, some 0), (7, none)] := by
  decide

end VerdantBond
