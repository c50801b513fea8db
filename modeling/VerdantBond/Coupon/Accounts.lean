import VerdantBond.Coupon.State
import VerdantBond.Lib.Ledger

set_option autoImplicit false

/-! # CouponEngine: what is done to one holder's account

`escrow_credits`, `accrue_waterfall_credit`, the clearing of `claim_credits`, the draining loops of
`consume_credits` and the debit of the two correction calls, each as a function on the holder's
`Account`. All of them are made of one move, `Account.post`: the same amount on an itemized entry
and on the balance of its type.
-/

namespace VerdantBond

open Function

/-- The two types coupons are paid in. -/
def paidTypes : List CreditType := [.carbon, .biodiversity]

namespace Account

/-! ## The operations -/

variable (a : Account) (e : Entry) (periodCount : Nat)

/-- The write `escrow_credits` and `accrue_waterfall_credit` share: `amount` more on the entry, on
the balance of its type and on the combined balance. -/
def credit (amount : Int) : Outcome BondError Account := do
  let byType ← okOr (i128 (a.escrowedCreditsByType e.creditType + amount)) .overflow
  let entry ← okOr (i128 (a.itemized e + amount)) .overflow
  let combined ← okOr (i128 (a.escrowedCredits + amount)) .overflow
  pure { escrowedCredits := combined
         escrowedCreditsByType := update a.escrowedCreditsByType e.creditType byType
         itemized := update a.itemized e entry }

/-- `escrow_credits`. -/
def escrowCredits (periodIndex : Nat) (t : CreditType) (amount : Int) : Outcome BondError Account :=
  a.credit (.period periodIndex t) amount

/-- `accrue_waterfall_credit`. -/
def accrueWaterfallCredit (t : CreditType) (amount : Int) : Outcome BondError Account :=
  if amount = 0 then .ok a else a.credit (.waterfall t) amount

/-- The entries of one period. -/
def periodEntries (periodIndex : Nat) : List Entry := paidTypes.map (Entry.period periodIndex)

/-- The entries `claim_credits` clears and `consume_credits` drains, in their order: the periods
below the count, oldest first, then the waterfall. -/
def entries : List Entry :=
  (List.range periodCount).flatMap periodEntries ++ paidTypes.map Entry.waterfall

/-- The account `claim_credits` leaves. -/
def claim : Account :=
  if 0 < a.escrowedCredits then
    { escrowedCredits := 0
      escrowedCreditsByType := update (update a.escrowedCreditsByType .carbon 0) .biodiversity 0
      itemized := (entries periodCount).foldl (fun f e => update f e 0) a.itemized }
  else { a with escrowedCredits := 0 }

/-- The loop state of `consume_credits`. -/
structure Drain where
  account : Account
  left : Int

/-- One round of either loop of `consume_credits`: take what the entry has, at most what is left
to take. An empty entry is skipped, and with nothing left the loops run out. -/
def drain (d : Drain) (e : Entry) : Outcome BondError Drain :=
  if d.left = 0 ∨ d.account.itemized e ≤ 0 then .ok d
  else do
    let take := min (d.account.itemized e) d.left
    let byType ← okOr (i128 (d.account.escrowedCreditsByType e.creditType - take)) .overflow
    pure { account :=
             { d.account with
               escrowedCreditsByType :=
                 update d.account.escrowedCreditsByType e.creditType byType
               itemized := update d.account.itemized e (d.account.itemized e - take) }
           left := d.left - take }

/-- The account `consume_credits` leaves. -/
def consume (amount : Int) : Outcome BondError Account := do
  reject (a.escrowedCredits < amount) .overflow
  let d ← (entries periodCount).foldlM drain
    ⟨{ a with escrowedCredits := a.escrowedCredits - amount }, amount⟩
  reject (d.left ≠ 0) .overflow
  pure d.account

/-- The account `confirm_retirement` and `revert_payout` leave: they write the combined balance
only, and the subtraction is an unchecked one. -/
def debitCombined (amount : Int) : Outcome BondError Account := do
  reject (a.escrowedCredits < amount) .overflow
  let next ← orTrap (i128 (a.escrowedCredits - amount))
  pure { a with escrowedCredits := next }

/-! ## Postings -/

/-- `x` more on an entry and on the balance of its type. -/
def post (x : Int) : Account :=
  { a with
    escrowedCreditsByType :=
      update a.escrowedCreditsByType e.creditType (a.escrowedCreditsByType e.creditType + x)
    itemized := update a.itemized e (a.itemized e + x) }

/-- The balances of the two paid types together. -/
def typedTotal : Int :=
  a.escrowedCreditsByType .carbon + a.escrowedCreditsByType .biodiversity

/-- What the entries of one type hold: all its periods and its waterfall credits. -/
noncomputable def itemizedOf (t : CreditType) : Int :=
  ∑ᶠ p, a.periodHolder p t + a.waterfallAccrued t

theorem post_byType (x : Int) (t : CreditType) : (a.post e x).escrowedCreditsByType t
      = a.escrowedCreditsByType t + if e.creditType = t then x else 0 :=
  update_add_apply _ _ _ _

theorem post_itemized (x : Int) (e' : Entry) :
    (a.post e x).itemized e' = a.itemized e' + if e = e' then x else 0 :=
  update_add_apply _ _ _ _

variable {e : Entry} {a a' : Account} {amount : Int} {periodCount p : Nat} {t : CreditType}

theorem post_typedTotal (a : Account) (he : e.creditType ∈ paidTypes) (x : Int) :
    (a.post e x).typedTotal = a.typedTotal + x := by
  unfold typedTotal
  rw [post_byType, post_byType]
  have htype : e.creditType = .carbon ∨ e.creditType = .biodiversity := by
    simpa [paidTypes] using he
  rcases htype with h | h
  · simp only [h, if_true, reduceCtorEq, if_false]
    ring
  · simp only [h, if_true, reduceCtorEq, if_false]
    ring

theorem post_support (ha : a.itemized.HasFiniteSupport) (e : Entry) (x : Int) :
    (a.post e x).itemized.HasFiniteSupport :=
  hasFiniteSupport_update ha e _

theorem post_total (ha : a.itemized.HasFiniteSupport) (e : Entry) (x : Int) :
    ∑ᶠ e', (a.post e x).itemized e' = ∑ᶠ e', a.itemized e' + x := by
  have h := finsum_update ha e (a.itemized e + x)
  have hx : a.itemized e + x - a.itemized e = x := by ring
  rw [hx] at h
  exact h

/-- Only finitely many periods of one type hold credits. -/
theorem support_periodHolder (ha : a.itemized.HasFiniteSupport) (t : CreditType) :
    (fun p => a.periodHolder p t).HasFiniteSupport := by
  have hinj : Injective (fun p => Entry.period p t) := by
    intro p q h
    exact (Entry.period.inj h).1
  exact Set.Finite.preimage (hinj.injOn) ha

theorem post_itemizedOf (ha : a.itemized.HasFiniteSupport) (e : Entry) (x : Int) (t : CreditType) :
    (a.post e x).itemizedOf t = a.itemizedOf t + if e.creditType = t then x else 0 := by
  unfold itemizedOf
  cases e with
  | waterfall s =>
      have hperiods : ∀ p, (a.post (.waterfall s) x).periodHolder p t = a.periodHolder p t := by
        intro p
        unfold periodHolder
        rw [post_itemized, if_neg (by simp), add_zero]
      have hw : (a.post (.waterfall s) x).waterfallAccrued t
          = a.waterfallAccrued t + if s = t then x else 0 := by
        unfold waterfallAccrued
        rw [post_itemized]
        by_cases hst : s = t
        · rw [if_pos hst, if_pos (by rw [hst])]
        · rw [if_neg hst, if_neg (by simp [hst])]
      simp only [hperiods, hw]
      rw [← add_assoc]
      rfl
  | period q s =>
      have hw : (a.post (.period q s) x).waterfallAccrued t = a.waterfallAccrued t := by
        unfold waterfallAccrued
        rw [post_itemized, if_neg (by simp), add_zero]
      by_cases hst : s = t
      · subst hst
        -- the posting rewrites one term of the sum over the periods
        have hfun : (fun p => (a.post (.period q s) x).periodHolder p s)
            = update (fun p => a.periodHolder p s) q (a.periodHolder q s + x) := by
          funext p
          rw [update_add_apply]
          unfold periodHolder
          rw [post_itemized]
          simp only [Entry.period.injEq, and_true]
        have hsum := finsum_update (support_periodHolder ha s) q (a.periodHolder q s + x)
        rw [← hfun] at hsum
        have htype : (Entry.period q s).creditType = s := rfl
        rw [hsum, hw, if_pos htype]
        ring
      · have hperiods : ∀ p, (a.post (.period q s) x).periodHolder p t = a.periodHolder p t := by
          intro p
          unfold periodHolder
          rw [post_itemized, if_neg (by simp [hst]), add_zero]
        have htype : ¬ (Entry.period q s).creditType = t := hst
        simp only [hperiods, hw]
        rw [if_neg htype, add_zero]

/-! ## The operations as postings -/

theorem credit_ok (h : a.credit e amount = .ok a') :
    InI128 (a.escrowedCreditsByType e.creditType + amount) ∧
      InI128 (a.escrowedCredits + amount) ∧
      a' = { a.post e amount with escrowedCredits := a.escrowedCredits + amount } := by
  simp only [credit, bind_ok_iff, okOr_ok_iff, i128_eq_some, pure_ok_iff] at h
  obtain ⟨_, ⟨htype, rfl⟩, _, ⟨-, rfl⟩, _, ⟨hcombined, rfl⟩, rfl⟩ := h
  exact ⟨htype, hcombined, rfl⟩

/-- A credit shows on its own entry only. -/
theorem credit_itemized (h : a.credit e amount = .ok a') (e' : Entry) :
    a'.itemized e' = a.itemized e' + if e = e' then amount else 0 := by
  obtain ⟨-, -, rfl⟩ := credit_ok h
  exact post_itemized a e amount e'

theorem debitCombined_ok (h : a.debitCombined amount = .ok a') :
    amount ≤ a.escrowedCredits ∧
      a' = { a with escrowedCredits := a.escrowedCredits - amount } := by
  simp only [debitCombined, bind_ok_iff, reject_ok_iff, orTrap_ok_iff, i128_eq_some, pure_ok_iff,
    exists_unit_iff, not_lt] at h
  obtain ⟨hle, _, ⟨-, rfl⟩, rfl⟩ := h
  exact ⟨hle, rfl⟩

/-- A round that takes something is a posting of what it takes, with the sign reversed. -/
theorem drain_ok {d d' : Drain} (h : drain d e = .ok d') (hleft : 0 ≤ d.left) :
    (d' = d ∧ (d.left = 0 ∨ d.account.itemized e ≤ 0)) ∨
      ∃ x, 0 < x ∧ x ≤ d.account.itemized e ∧ x ≤ d.left ∧
        (x = d.account.itemized e ∨ x = d.left) ∧ d' = ⟨d.account.post e (-x), d.left - x⟩ := by
  unfold drain at h
  split at h
  · next hskip =>
      refine .inl ⟨?_, hskip⟩
      injection h with h
      exact h.symm
  · next hskip =>
      obtain ⟨hne, hpos⟩ := not_or.mp hskip
      rw [not_le] at hpos
      simp only [bind_ok_iff, okOr_ok_iff, i128_eq_some, pure_ok_iff] at h
      obtain ⟨_, ⟨-, rfl⟩, rfl⟩ := h
      set x := min (d.account.itemized e) d.left with hx
      refine .inr ⟨x, ?_, min_le_left _ _, min_le_right _ _, ?_, rfl⟩
      · exact lt_min hpos (by omega)
      · exact min_choice _ _

theorem consume_ok (h : a.consume periodCount amount = .ok a') :
    amount ≤ a.escrowedCredits ∧ ∃ d : Drain,
      (entries periodCount).foldlM drain
        ⟨{ a with escrowedCredits := a.escrowedCredits - amount }, amount⟩ = .ok d ∧
      d.left = 0 ∧ a' = d.account := by
  simp only [consume, bind_ok_iff, reject_ok_iff, pure_ok_iff, exists_unit_iff, not_lt,
    not_not] at h
  obtain ⟨hle, d, hd, hleft, rfl⟩ := h
  exact ⟨hle, d, hd, hleft, rfl⟩

/-! ## The entries the loops visit -/

theorem mem_periodEntries : e ∈ periodEntries p ↔ ∃ t ∈ paidTypes, e = .period p t := by
  simp only [periodEntries, List.mem_map, eq_comm]

theorem mem_entries :
    e ∈ entries periodCount ↔ e.creditType ∈ paidTypes ∧
      ∀ p t, e = .period p t → p < periodCount := by
  unfold entries
  simp only [List.mem_append, List.mem_flatMap, List.mem_range, mem_periodEntries, List.mem_map]
  constructor
  · rintro (⟨p, hp, t, ht, rfl⟩ | ⟨t, ht, rfl⟩)
    · refine ⟨ht, fun q s hq => ?_⟩
      cases hq
      exact hp
    · exact ⟨ht, fun q s hq => by cases hq⟩
  · rintro ⟨ht, hp⟩
    cases e with
    | period p t => exact .inl ⟨p, hp p t rfl, t, ht, rfl⟩
    | waterfall t => exact .inr ⟨t, ht, rfl⟩

theorem period_mem_entries (ht : t ∈ paidTypes) (hp : p < periodCount) :
    Entry.period p t ∈ entries periodCount := by
  refine mem_entries.mpr ⟨ht, fun q s hq => ?_⟩
  cases hq
  exact hp

theorem waterfall_mem_entries (periodCount : Nat) (ht : t ∈ paidTypes) :
    Entry.waterfall t ∈ entries periodCount :=
  mem_entries.mpr ⟨ht, fun q s hq => by cases hq⟩

theorem creditType_of_mem_entries (he : e ∈ entries periodCount) :
    e.creditType ∈ paidTypes := (mem_entries.mp he).1

theorem nodup_periodEntries (p : Nat) : (periodEntries p).Nodup := by
  simp [periodEntries, paidTypes]

theorem nodup_entries (periodCount : Nat) : (entries periodCount).Nodup := by
  unfold entries
  refine List.Nodup.append ?_ (by simp [paidTypes]) ?_
  · refine List.nodup_flatMap.mpr ⟨fun p _ => nodup_periodEntries p, ?_⟩
    refine List.Pairwise.imp ?_ (List.nodup_range (n := periodCount))
    intro p q hpq e hp hq
    obtain ⟨_, -, rfl⟩ := mem_periodEntries.mp hp
    obtain ⟨_, -, heq⟩ := mem_periodEntries.mp hq
    exact hpq (Entry.period.inj heq).1
  · intro e hperiod hwaterfall
    obtain ⟨p, -, hp⟩ := List.mem_flatMap.mp hperiod
    obtain ⟨t, -, rfl⟩ := mem_periodEntries.mp hp
    obtain ⟨s, -, hs⟩ := List.mem_map.mp hwaterfall
    cases hs

/-! ## Claiming -/

theorem foldl_update_zero (l : List Entry) (f : Entry → Int) (e : Entry) :
    l.foldl (fun f e => update f e 0) f e = if e ∈ l then 0 else f e := by
  induction l generalizing f with
  | nil => simp
  | cons e' l ih =>
      rw [List.foldl_cons, ih]
      by_cases hl : e ∈ l
      · rw [if_pos hl, if_pos (List.mem_cons_of_mem _ hl)]
      · by_cases he : e = e'
        · subst he
          rw [if_neg hl, update_self, if_pos List.mem_cons_self]
        · rw [if_neg hl, update_of_ne he, if_neg (by simp [he, hl])]

theorem claim_escrowedCredits (a : Account) (periodCount : Nat) :
    (a.claim periodCount).escrowedCredits = 0 := by
  unfold claim
  split <;> rfl

theorem claim_itemized (ha : 0 < a.escrowedCredits) (periodCount : Nat) (e : Entry) :
    (a.claim periodCount).itemized e = if e ∈ entries periodCount then 0 else a.itemized e := by
  unfold claim
  rw [if_pos ha]
  exact foldl_update_zero _ _ _

theorem claim_byType (ha : 0 < a.escrowedCredits) (periodCount : Nat) (ht : t ∈ paidTypes) :
    (a.claim periodCount).escrowedCreditsByType t = 0 := by
  unfold claim
  rw [if_pos ha]
  have htype : t = .carbon ∨ t = .biodiversity := by simpa [paidTypes] using ht
  rcases htype with rfl | rfl
  · show update (update a.escrowedCreditsByType .carbon 0) .biodiversity 0 .carbon = 0
    rw [update_of_ne (by decide), update_self]
  · show update (update a.escrowedCreditsByType .carbon 0) .biodiversity 0 .biodiversity = 0
    rw [update_self]

theorem claim_of_nonpos (ha : ¬ 0 < a.escrowedCredits) (periodCount : Nat) :
    a.claim periodCount = { a with escrowedCredits := 0 } := if_neg ha

end Account

end VerdantBond
