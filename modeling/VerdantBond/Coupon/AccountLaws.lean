import VerdantBond.Coupon.Steps

set_option autoImplicit false

/-! # CouponEngine: the laws of one account

What the draining loops of `consume_credits` take and when they find enough, and the invariant
every account keeps as long as nobody corrects its combined balance alone: the combined balance is
the sum of the two typed ones, and no entry is negative.
-/

namespace VerdantBond

open Function Relation List

/-- The kind of step that credits an entry. -/
def Entry.source : Entry → CreditKind
  | .period p _ => .distribution p
  | .waterfall _ => .waterfall

namespace Account

/-! ## What the loops take -/

/-- The loops went from `d` to `d'`: what is no longer left was taken from entries and from the
balances of their types alike. -/
structure Drained (d d' : Drain) : Prop where
  left_nonneg : 0 ≤ d'.left
  escrowedCredits : d'.account.escrowedCredits = d.account.escrowedCredits
  typedTotal : d'.account.typedTotal = d.account.typedTotal - (d.left - d'.left)
  byType_le : ∀ t, d'.account.escrowedCreditsByType t ≤ d.account.escrowedCreditsByType t
  itemized_le : ∀ e, d'.account.itemized e ≤ d.account.itemized e
  itemized_nonneg : ∀ e, 0 ≤ d.account.itemized e → 0 ≤ d'.account.itemized e
  support : d.account.itemized.HasFiniteSupport → d'.account.itemized.HasFiniteSupport
  total : d.account.itemized.HasFiniteSupport →
    ∑ᶠ e, d'.account.itemized e = ∑ᶠ e, d.account.itemized e - (d.left - d'.left)
  gap : d.account.itemized.HasFiniteSupport → ∀ t,
    d'.account.escrowedCreditsByType t - d'.account.itemizedOf t
      = d.account.escrowedCreditsByType t - d.account.itemizedOf t

variable {d d' : Drain} {e : Entry} {l : List Entry} {a a' : Account} {periodCount : Nat}
  {amount : Int} {kind : CreditKind}

theorem Drained.refl (hleft : 0 ≤ d.left) : Drained d d where
  left_nonneg := hleft
  escrowedCredits := rfl
  typedTotal := by ring
  byType_le := fun _ => le_refl _
  itemized_le := fun _ => le_refl _
  itemized_nonneg := fun _ h => h
  support := fun h => h
  total := fun _ => by ring
  gap := fun _ _ => rfl

theorem Drained.trans {d₁ d₂ : Drain} (h : Drained d d₁) (h' : Drained d₁ d₂) : Drained d d₂ where
  left_nonneg := h'.left_nonneg
  escrowedCredits := h'.escrowedCredits.trans h.escrowedCredits
  typedTotal := by
    rw [h'.typedTotal, h.typedTotal]
    ring
  byType_le := fun t => le_trans (h'.byType_le t) (h.byType_le t)
  itemized_le := fun e => le_trans (h'.itemized_le e) (h.itemized_le e)
  itemized_nonneg := fun e he => h'.itemized_nonneg e (h.itemized_nonneg e he)
  support := fun hs => h'.support (h.support hs)
  total := fun hs => by
    rw [h'.total (h.support hs), h.total hs]
    ring
  gap := fun hs t => (h'.gap (h.support hs) t).trans (h.gap hs t)

/-- Taking `x` from an entry that has it. -/
theorem Drained.take {x : Int} (he : e.creditType ∈ paidTypes) (hpos : 0 < x)
    (hentry : x ≤ d.account.itemized e) (hleft : x ≤ d.left) :
    Drained d ⟨d.account.post e (-x), d.left - x⟩ where
  left_nonneg := by
    show 0 ≤ d.left - x
    omega
  escrowedCredits := rfl
  typedTotal := by
    show (d.account.post e (-x)).typedTotal = d.account.typedTotal - (d.left - (d.left - x))
    rw [post_typedTotal _ he]
    ring
  byType_le := fun t => by
    show (d.account.post e (-x)).escrowedCreditsByType t ≤ _
    rw [post_byType]
    split <;> omega
  itemized_le := fun e' => by
    show (d.account.post e (-x)).itemized e' ≤ _
    rw [post_itemized]
    split <;> omega
  itemized_nonneg := fun e' he' => by
    show 0 ≤ (d.account.post e (-x)).itemized e'
    rw [post_itemized]
    split
    · next heq =>
        subst heq
        omega
    · omega
  support := fun hs => post_support hs e _
  total := fun hs => by
    show ∑ᶠ e', (d.account.post e (-x)).itemized e' = _ - (d.left - (d.left - x))
    rw [post_total hs]
    ring
  gap := fun hs t => by
    show (d.account.post e (-x)).escrowedCreditsByType t - (d.account.post e (-x)).itemizedOf t = _
    rw [post_byType, post_itemizedOf hs]
    ring

theorem drain_drained (he : e.creditType ∈ paidTypes) (hleft : 0 ≤ d.left) (h : drain d e = .ok d') :
    Drained d d' := by
  rcases drain_ok h hleft with ⟨rfl, -⟩ | ⟨x, hpos, hentry, hx, -, rfl⟩
  · exact .refl hleft
  · exact .take he hpos hentry hx

theorem foldlM_drained (hl : ∀ e ∈ l, e.creditType ∈ paidTypes) (hleft : 0 ≤ d.left)
    (h : l.foldlM drain d = .ok d') : Drained d d' := by
  induction l generalizing d with
  | nil =>
      simp only [foldlM_nil, pure_ok_iff] at h
      subst h
      exact .refl hleft
  | cons e l ih =>
      simp only [foldlM_cons, bind_ok_iff] at h
      obtain ⟨d₁, hdrain, hrest⟩ := h
      have h₁ := drain_drained (hl e mem_cons_self) hleft hdrain
      exact h₁.trans (ih (fun e he => hl e (mem_cons_of_mem _ he)) h₁.left_nonneg hrest)

/-- **What `consume_credits` does to an account**: everything goes down by the amount. -/
theorem consume_drained (hpos : 0 < amount) (h : a.consume periodCount amount = .ok a') :
    amount ≤ a.escrowedCredits ∧
      Drained ⟨{ a with escrowedCredits := a.escrowedCredits - amount }, amount⟩ ⟨a', 0⟩ := by
  obtain ⟨hle, d, hloop, hleft, rfl⟩ := consume_ok h
  have hd := foldlM_drained (fun e he => creditType_of_mem_entries he) (le_of_lt hpos) hloop
  have heq : d = ⟨d.account, 0⟩ := by rw [← hleft]
  rw [heq] at hd
  exact ⟨hle, hd⟩

/-! ## Which types the loops take from -/

/-- What an entry has to give. -/
def available (a : Account) (e : Entry) : Int := max 0 (a.itemized e)

/-- The first `amount` credits in the order of the entries have none of the type: every entry of the
type that has credits comes after entries that hold the amount. -/
def Spared (a : Account) (l : List Entry) (amount : Int) (t : CreditType) : Prop :=
  ∀ before e after, l = before ++ e :: after → e.creditType = t → 0 < a.itemized e →
    amount ≤ (before.map a.available).sum

theorem available_nonneg (a : Account) (e : Entry) : 0 ≤ a.available e := le_max_left _ _

theorem sum_available_nonneg (a : Account) (l : List Entry) : 0 ≤ (l.map a.available).sum := by
  refine sum_nonneg fun x hx => ?_
  obtain ⟨e, -, rfl⟩ := mem_map.mp hx
  exact a.available_nonneg e

theorem spared_of_nonpos (a : Account) (l : List Entry) (h : amount ≤ 0) (t : CreditType) :
    a.Spared l amount t :=
  fun before _ _ _ _ _ => le_trans h (a.sum_available_nonneg before)

theorem spared_cons (a : Account) (e : Entry) (l : List Entry) (amount : Int) (t : CreditType) :
    a.Spared (e :: l) amount t ↔
      (e.creditType = t → 0 < a.itemized e → amount ≤ 0) ∧ a.Spared l (amount - a.available e) t := by
  constructor
  · intro h
    refine ⟨fun ht hpos => h [] e l rfl ht hpos, ?_⟩
    rintro before e' after rfl ht hpos
    have hle := h (e :: before) e' after rfl ht hpos
    rw [map_cons, sum_cons] at hle
    omega
  · rintro ⟨hhead, htail⟩ before e' after hsplit ht hpos
    cases before with
    | nil =>
        obtain ⟨rfl, rfl⟩ := cons.inj hsplit
        exact hhead ht hpos
    | cons e₀ before =>
        obtain ⟨rfl, rfl⟩ := cons.inj hsplit
        have hle := htail before e' after rfl ht hpos
        rw [map_cons, sum_cons]
        omega

theorem spared_congr (h : ∀ e ∈ l, a'.itemized e = a.itemized e) (amount : Int) (t : CreditType) :
    a'.Spared l amount t ↔ a.Spared l amount t := by
  induction l generalizing amount with
  | nil =>
      refine iff_of_true ?_ ?_ <;>
        exact fun before e after hsplit => absurd hsplit (by simp)
  | cons e l ih =>
      have he := h e mem_cons_self
      rw [spared_cons, spared_cons, he, available, he, ih fun e' he' => h e' (mem_cons_of_mem _ he')]
      rfl

/-- **The loops leave a typed balance alone exactly when the credits that come first have none of the
type.** -/
theorem foldlM_byType_eq_iff (hnodup : l.Nodup) (hl : ∀ e ∈ l, e.creditType ∈ paidTypes)
    (hleft : 0 ≤ d.left) (h : l.foldlM drain d = .ok d') (t : CreditType) :
    d'.account.escrowedCreditsByType t = d.account.escrowedCreditsByType t ↔
      d.account.Spared l d.left t := by
  induction l generalizing d with
  | nil =>
      simp only [foldlM_nil, pure_ok_iff] at h
      subst h
      exact iff_of_true rfl fun before e after hsplit => absurd hsplit (by simp)
  | cons e l ih =>
      simp only [foldlM_cons, bind_ok_iff] at h
      obtain ⟨d₁, hdrain, hrest⟩ := h
      obtain ⟨hnotin, hnodup⟩ := nodup_cons.mp hnodup
      have hl' : ∀ e' ∈ l, e'.creditType ∈ paidTypes := fun e' he' =>
        hl e' (mem_cons_of_mem _ he')
      rw [spared_cons]
      rcases drain_ok hdrain hleft with ⟨rfl, hskip⟩ | ⟨x, hpos, hentry, hx, hall, rfl⟩
      · -- the entry is skipped: nothing is left to take, or it has nothing
        rw [ih hnodup hl' hleft hrest]
        rcases hskip with hzero | hempty
        · refine iff_of_true (spared_of_nonpos _ _ (le_of_eq hzero) t) ⟨fun _ _ => le_of_eq hzero, ?_⟩
          have := d₁.account.available_nonneg e
          exact spared_of_nonpos _ _ (by omega) t
        · have hnone : d₁.account.available e = 0 := max_eq_left hempty
          rw [hnone, sub_zero]
          exact ⟨fun hspared => ⟨fun _ hpos => absurd hpos (not_lt.mpr hempty), hspared⟩, And.right⟩
      · have hleft₁ : 0 ≤ d.left - x := by omega
        have hd := ih hnodup hl' hleft₁ hrest
        have hle := (foldlM_drained hl' hleft₁ hrest).byType_le t
        have hsame : ∀ e' ∈ l, (d.account.post e (-x)).itemized e' = d.account.itemized e' := by
          intro e' he'
          have hne : e ≠ e' := fun heq => hnotin (heq ▸ he')
          rw [post_itemized, if_neg hne, add_zero]
        rw [spared_congr hsame] at hd
        simp only [post_byType] at hd hle
        by_cases ht : e.creditType = t
        · rw [if_pos ht] at hle
          refine iff_of_false (by omega) fun hspared => ?_
          have := hspared.1 ht (by omega)
          omega
        · rw [if_neg ht, add_zero] at hd
          have havailable : d.account.available e = d.account.itemized e := max_eq_right (by omega)
          rw [hd, havailable]
          refine Iff.trans ?_ (and_iff_right fun heq => absurd heq ht).symm
          rcases hall with rfl | rfl
          · exact Iff.rfl
          · exact iff_of_true (spared_of_nonpos _ _ (by omega) t) (spared_of_nonpos _ _ (by omega) t)

/-- What `consume_credits` does to the balance of one type. -/
theorem consume_byType_eq_iff (hpos : 0 < amount) (h : a.consume periodCount amount = .ok a')
    (t : CreditType) :
    a'.escrowedCreditsByType t = a.escrowedCreditsByType t ↔
      a.Spared (entries periodCount) amount t := by
  obtain ⟨-, d, hloop, -, rfl⟩ := consume_ok h
  exact foldlM_byType_eq_iff (nodup_entries periodCount)
    (fun e he => creditType_of_mem_entries he) (le_of_lt hpos) hloop t

/-- The loops know two types. -/
theorem spared_of_unpaid (a : Account) (periodCount : Nat) (amount : Int) {t : CreditType}
    (ht : t ∉ paidTypes) : a.Spared (entries periodCount) amount t := by
  rintro before e after hsplit rfl -
  have hmem : e ∈ entries periodCount := by
    rw [hsplit]
    exact mem_append_right _ mem_cons_self
  exact absurd (creditType_of_mem_entries hmem) ht

/-! ## When the loops find enough -/

/-- The typed balances cover what is left to take, so no subtraction in the loops underflows. -/
def Drain.Covered (d : Drain) : Prop :=
  d.left ≤ d.account.typedTotal ∧ ∀ t, d.account.escrowedCreditsByType t ≤ i128Max

/-- A round succeeds, and leaves what the entry does not cover. -/
theorem drain_succeeds (he : e.creditType ∈ paidTypes) (hleft : 0 ≤ d.left)
    (hentry : 0 ≤ d.account.itemized e) (hd : d.Covered) :
    ∃ d', drain d e = .ok d' ∧ d'.left = max 0 (d.left - d.account.itemized e) ∧ d'.Covered ∧
      ∀ e', e' ≠ e → d'.account.itemized e' = d.account.itemized e' := by
  obtain ⟨hcover, hmax⟩ := hd
  by_cases hskip : d.left = 0 ∨ d.account.itemized e ≤ 0
  · refine ⟨d, if_pos hskip, ?_, ⟨hcover, hmax⟩, fun _ _ => rfl⟩
    rcases hskip with h0 | h0
    · rw [max_eq_left (by omega), h0]
    · rw [max_eq_right (by omega)]
      omega
  · set x := min (d.account.itemized e) d.left with hx
    have hxe : x ≤ d.account.itemized e := min_le_left _ _
    have hxl : x ≤ d.left := min_le_right _ _
    -- the other typed balance is at most the maximum, so this one cannot fall below its negative
    have hin : InI128 (d.account.escrowedCreditsByType e.creditType - x) := by
      have htype : e.creditType = .carbon ∨ e.creditType = .biodiversity := by
        simpa [paidTypes] using he
      have hc := hmax .carbon
      have hb := hmax .biodiversity
      have hxnonneg : 0 ≤ x := le_min hentry hleft
      unfold typedTotal at hcover
      unfold InI128 i128Min
      unfold i128Max at *
      rcases htype with h | h
      · rw [h]
        constructor <;> omega
      · rw [h]
        constructor <;> omega
    refine ⟨⟨d.account.post e (-x), d.left - x⟩, ?_, ?_, ?_, ?_⟩
    · unfold drain
      simp only [if_neg hskip, ← hx, i128_of hin, okOr_some, ok_bind, pure_eq_ok]
      rfl
    · show d.left - x = max 0 (d.left - d.account.itemized e)
      rcases min_choice (d.account.itemized e) d.left with h | h
      · rw [hx, h, max_eq_right (by omega)]
      · rw [hx, h, max_eq_left (by omega)]
        omega
    · refine ⟨?_, fun t => ?_⟩
      · show d.left - x ≤ (d.account.post e (-x)).typedTotal
        rw [post_typedTotal _ he]
        omega
      · show (d.account.post e (-x)).escrowedCreditsByType t ≤ i128Max
        have hxnonneg : 0 ≤ x := le_min hentry hleft
        have := hmax t
        rw [post_byType]
        split <;> omega
    · intro e' hne
      show (d.account.post e (-x)).itemized e' = _
      rw [post_itemized, if_neg (fun h => hne h.symm), add_zero]

/-- The loops succeed, and leave what the entries together do not cover. -/
theorem foldlM_drain_succeeds (hnodup : l.Nodup) (hl : ∀ e ∈ l, e.creditType ∈ paidTypes)
    (hleft : 0 ≤ d.left) (hentries : ∀ e ∈ l, 0 ≤ d.account.itemized e) (hd : d.Covered) :
    ∃ d', l.foldlM drain d = .ok d' ∧
      d'.left = max 0 (d.left - (l.map d.account.itemized).sum) := by
  induction l generalizing d with
  | nil =>
      refine ⟨d, rfl, ?_⟩
      rw [map_nil, sum_nil, sub_zero, max_eq_right hleft]
  | cons e l ih =>
      obtain ⟨hnotin, hnodup⟩ := nodup_cons.mp hnodup
      obtain ⟨d₁, hdrain, hleft₁, hd₁, hother⟩ := drain_succeeds (hl e mem_cons_self) hleft
        (hentries e mem_cons_self) hd
      -- the rest of the list is untouched by the first round
      have hsame : ∀ e' ∈ l, d₁.account.itemized e' = d.account.itemized e' := by
        intro e' he'
        exact hother e' (fun h => hnotin (h ▸ he'))
      have hnonneg : ∀ e' ∈ l, 0 ≤ d.account.itemized e' := fun e' he' =>
        hentries e' (mem_cons_of_mem _ he')
      obtain ⟨d', hloop, hleft'⟩ := ih hnodup (fun e' he' => hl e' (mem_cons_of_mem _ he'))
        (by rw [hleft₁]; exact le_max_left _ _) (fun e' he' => by
          rw [hsame e' he']
          exact hnonneg e' he') hd₁
      refine ⟨d', ?_, ?_⟩
      · rw [foldlM_cons, hdrain, ok_bind, hloop]
      · have hmap : l.map d₁.account.itemized = l.map d.account.itemized :=
          map_congr_left hsame
        have hsum : 0 ≤ (l.map d.account.itemized).sum := by
          refine sum_nonneg fun y hy => ?_
          obtain ⟨e', he', rfl⟩ := mem_map.mp hy
          exact hnonneg e' he'
        rw [hleft', hmap, hleft₁, map_cons, sum_cons]
        rcases le_total 0 (d.left - d.account.itemized e) with h | h
        · rw [max_eq_right h, sub_sub]
        · rw [max_eq_left h, max_eq_left (by omega), max_eq_left (by omega)]

/-! ## Regular accounts -/

/-- The combined balance is the sum of the typed ones, and nothing is negative but possibly a typed
balance. -/
structure Regular (a : Account) : Prop where
  support : a.itemized.HasFiniteSupport
  itemized_nonneg : ∀ e, 0 ≤ a.itemized e
  unpaid : ∀ e, e.creditType ∉ paidTypes → a.itemized e = 0
  combined : a.escrowedCredits = a.typedTotal
  escrowed_nonneg : 0 ≤ a.escrowedCredits
  byType_le : ∀ t, a.escrowedCreditsByType t ≤ i128Max

theorem regular_empty : empty.Regular where
  support := hasFiniteSupport_zero
  itemized_nonneg := fun _ => le_refl _
  unpaid := fun _ _ => rfl
  combined := rfl
  escrowed_nonneg := le_refl _
  byType_le := fun _ => by
    show (0 : Int) ≤ i128Max
    decide

theorem Regular.credit (ha : a.Regular) (he : e.creditType ∈ paidTypes) (hpos : 0 < amount)
    (h : a.credit e amount = .ok a') : a'.Regular := by
  obtain ⟨htype, -, rfl⟩ := credit_ok h
  have hcombined := ha.combined
  have hnonneg := ha.escrowed_nonneg
  refine ⟨post_support ha.support e amount, fun e' => ?_, fun e' he' => ?_, ?_, ?_, fun t => ?_⟩
  · show 0 ≤ (a.post e amount).itemized e'
    have := ha.itemized_nonneg e'
    rw [post_itemized]
    split <;> omega
  · show (a.post e amount).itemized e' = 0
    have hne : e ≠ e' := fun h => he' (h ▸ he)
    rw [post_itemized, if_neg hne, add_zero]
    exact ha.unpaid e' he'
  · show a.escrowedCredits + amount = (a.post e amount).typedTotal
    rw [post_typedTotal _ he]
    omega
  · show 0 ≤ a.escrowedCredits + amount
    omega
  · show (a.post e amount).escrowedCreditsByType t ≤ i128Max
    have := ha.byType_le t
    rw [post_byType]
    split
    · next heq =>
        subst heq
        exact htype.2
    · omega

theorem Regular.claim (ha : a.Regular) (periodCount : Nat) : (a.claim periodCount).Regular := by
  by_cases hpos : 0 < a.escrowedCredits
  · have hitem := claim_itemized hpos periodCount
    refine ⟨?_, fun e => ?_, fun e he => ?_, ?_, ?_, fun t => ?_⟩
    · refine ha.support.subset fun e he => ?_
      rw [mem_support, hitem] at he
      intro h0
      rw [h0, ite_self] at he
      exact he rfl
    · rw [hitem]
      split
      · exact le_refl _
      · exact ha.itemized_nonneg e
    · rw [hitem]
      split
      · rfl
      · exact ha.unpaid e he
    · unfold typedTotal
      rw [claim_escrowedCredits, claim_byType hpos _ (by decide), claim_byType hpos _ (by decide)]
      rfl
    · rw [claim_escrowedCredits]
    · by_cases ht : t ∈ paidTypes
      · rw [claim_byType hpos _ ht]
        decide
      · have hsame : (a.claim periodCount).escrowedCreditsByType t
            = a.escrowedCreditsByType t := by
          have hc : t ≠ .carbon := fun h => ht (by rw [h]; decide)
          have hb : t ≠ .biodiversity := fun h => ht (by rw [h]; decide)
          unfold Account.claim
          rw [if_pos hpos]
          show update (update a.escrowedCreditsByType .carbon 0) .biodiversity 0 t = _
          rw [update_of_ne hb, update_of_ne hc]
        rw [hsame]
        exact ha.byType_le t
  · -- with nothing accrued the call writes the balance that is already there
    have hzero : a.escrowedCredits = 0 := le_antisymm (not_lt.mp hpos) ha.escrowed_nonneg
    have hsame : a.claim periodCount = a := by
      rw [claim_of_nonpos hpos, ← hzero]
    rw [hsame]
    exact ha

theorem Regular.consume (ha : a.Regular) (hpos : 0 < amount)
    (h : a.consume periodCount amount = .ok a') : a'.Regular := by
  obtain ⟨hle, hd⟩ := consume_drained hpos h
  have hescrow : a'.escrowedCredits = a.escrowedCredits - amount := hd.escrowedCredits
  have htyped : a'.typedTotal = a.typedTotal - (amount - 0) := hd.typedTotal
  have hcombined := ha.combined
  refine ⟨hd.support ha.support, fun e => hd.itemized_nonneg e (ha.itemized_nonneg e),
    fun e he => ?_, by omega, by omega, fun t => le_trans (hd.byType_le t) (ha.byType_le t)⟩
  have h0 := ha.unpaid e he
  have hdown : a'.itemized e ≤ a.itemized e := hd.itemized_le e
  have hnonneg : 0 ≤ a'.itemized e := hd.itemized_nonneg e (ha.itemized_nonneg e)
  omega

theorem debitCombined_zero (h : a.debitCombined 0 = .ok a') : a' = a := by
  obtain ⟨-, rfl⟩ := debitCombined_ok h
  rw [sub_zero]

/-- Regular accounts stay regular under everything but a correction by a non-zero amount. -/
theorem Regular.step (ha : a.Regular) (hkind : ∀ amount, kind = .correction amount → amount = 0)
    (h : AccountStep periodCount kind a a') : a'.Regular := by
  cases h with
  | @escrow _ _ p t _ ht hpos h => exact ha.credit (e := .period p t) ht hpos h
  | @accrue _ _ t _ ht hpos h => exact ha.credit (e := .waterfall t) ht hpos h
  | claim => exact ha.claim periodCount
  | consume hpos h => exact ha.consume hpos h
  | @correct _ _ amount h =>
      have hzero := hkind amount rfl
      subst hzero
      rw [debitCombined_zero h]
      exact ha

theorem Regular.moves (ha : a.Regular) (hkind : ∀ amount, kind = .correction amount → amount = 0)
    (h : AccountMoves periodCount kind a a') : a'.Regular := by
  induction h with
  | refl => exact ha
  | tail _ hstep ih => exact ih.step hkind hstep

/-- An empty entry stays empty under every kind of step but the one that credits it. -/
theorem Regular.itemized_stays_zero (ha : a.Regular)
    (hcorrect : ∀ amount, kind ≠ .correction amount) (hkind : kind ≠ e.source)
    (h : AccountMoves periodCount kind a a') (h0 : a.itemized e = 0) : a'.itemized e = 0 := by
  induction h with
  | refl => exact h0
  | @tail x y hmoves hstep ih =>
      have hx : x.Regular := ha.moves (fun amount h => absurd h (hcorrect amount)) hmoves
      cases hstep with
      | @escrow _ _ p t _ _ _ hcredit =>
          have hne : Entry.period p t ≠ e := by
            rintro rfl
            exact hkind rfl
          rw [credit_itemized hcredit, if_neg hne, ih, add_zero]
      | @accrue _ _ t _ _ _ hcredit =>
          have hne : Entry.waterfall t ≠ e := by
            rintro rfl
            exact hkind rfl
          rw [credit_itemized hcredit, if_neg hne, ih, add_zero]
      | claim =>
          by_cases hpos : 0 < x.escrowedCredits
          · rw [claim_itemized hpos, ih, ite_self]
          · rw [claim_of_nonpos hpos]
            exact ih
      | consume hpos hconsume =>
          obtain ⟨-, hd⟩ := consume_drained hpos hconsume
          have hle : y.itemized e ≤ x.itemized e := hd.itemized_le e
          have hnonneg : 0 ≤ y.itemized e := hd.itemized_nonneg e (hx.itemized_nonneg e)
          omega
      | correct => exact absurd rfl (hcorrect _)

/-- Coupons of a period raise the balance of each type by what they put on its entry, and the combined
balance by both. -/
theorem moves_rise {p : Nat} (h : AccountMoves periodCount (.distribution p) a a') :
    (∀ t, a'.escrowedCreditsByType t - a.escrowedCreditsByType t
        = a'.periodHolder p t - a.periodHolder p t) ∧
      a'.escrowedCredits - a.escrowedCredits = a'.typedTotal - a.typedTotal := by
  induction h with
  | refl => simp
  | @tail x _ _ hstep ih =>
      cases hstep with
      | @escrow _ _ _ t amount ht _ hcredit =>
          obtain ⟨-, -, rfl⟩ := credit_ok hcredit
          refine ⟨fun t' => ?_, ?_⟩
          · show (x.post (.period p t) amount).escrowedCreditsByType t' - _
              = (x.post (.period p t) amount).itemized (.period p t') - a.periodHolder p t'
            have hbefore := ih.1 t'
            rw [post_byType, post_itemized]
            unfold periodHolder at hbefore ⊢
            by_cases htype : t = t'
            · simp only [htype, Entry.creditType, if_true]
              omega
            · simp only [Entry.period.injEq, Entry.creditType, htype, and_false, if_false]
              omega
          · have htotal := post_typedTotal x (e := .period p t) ht amount
            simp only [typedTotal] at htotal ih ⊢
            omega

/-- **When credits can be consumed.** On a regular account, `consume_credits` finds an amount the
balance covers exactly when the entries its loops visit hold that much. -/
theorem Regular.consume_succeeds_iff (ha : a.Regular) (hpos : 0 < amount)
    (hle : amount ≤ a.escrowedCredits) :
    (∃ a', a.consume periodCount amount = .ok a') ↔
      amount ≤ ((entries periodCount).map a.itemized).sum := by
  set a₀ : Account := { a with escrowedCredits := a.escrowedCredits - amount } with ha₀
  have hcovered : Drain.Covered ⟨a₀, amount⟩ := by
    refine ⟨?_, ha.byType_le⟩
    show amount ≤ a.typedTotal
    rw [← ha.combined]
    exact hle
  obtain ⟨d, hloop, hleft⟩ := foldlM_drain_succeeds (nodup_entries periodCount)
    (fun e he => creditType_of_mem_entries he) (le_of_lt hpos)
    (fun e _ => ha.itemized_nonneg e) hcovered
  have hleft : d.left = max 0 (amount - ((entries periodCount).map a.itemized).sum) := hleft
  constructor
  · rintro ⟨a', h⟩
    obtain ⟨-, d', hloop', hzero, -⟩ := consume_ok h
    rw [hloop] at hloop'
    cases hloop'
    rw [hzero] at hleft
    have := le_max_right 0 (amount - ((entries periodCount).map a.itemized).sum)
    omega
  · intro hcover
    refine ⟨d.account, ?_⟩
    have hzero : ¬ d.left ≠ 0 := by
      rw [hleft, max_eq_left (by omega)]
      exact fun h => h rfl
    unfold Account.consume
    rw [reject_of_not (not_lt.mpr hle), ok_bind, hloop, ok_bind, reject_of_not hzero, ok_bind]
    rfl

end Account

end VerdantBond
