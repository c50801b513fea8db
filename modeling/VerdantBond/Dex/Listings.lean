import VerdantBond.Lib.Window
import VerdantBond.Dex.Steps

set_option autoImplicit false

/-! # DEXRouter: listings and their escrow

The escrow of a seller in a bond follows the seller's orders: a listing adds to it, a fill and a
cancellation take from it. The sweep of expired orders does not touch it. What the escrow equals, in
every run, is therefore the amount left in the orders that are live *or expired*
(`Listings.Sound.escrow`), and it equals the amount of the live ones exactly as long as no sweep
has met an expired order of the seller.
-/

namespace VerdantBond

open Function DEXRouter

/-! ## Totals of a seller's orders -/

/-- The statuses whose amount stays in escrow. -/
def OrderStatus.Locked (status : OrderStatus) : Prop := status.Live ∨ status = .expired

instance OrderStatus.decidableLocked (status : OrderStatus) : Decidable status.Locked :=
  inferInstanceAs (Decidable (_ ∨ _))

section Totals

variable (p : OrderStatus → Prop) [DecidablePred p] (bondId : Nat) (seller : Address)

/-- What is left in an order, if it is one of the seller's in the bond and its status counts. -/
def shareIn : Option Order → Int
  | some o => if o.bondId = bondId ∧ o.seller = seller ∧ p o.status then o.amount else 0
  | none => 0

/-- What is left in the seller's orders of the bond whose status counts. -/
def Listings.total (b : Listings) : Int :=
  windowSum (fun id => shareIn p bondId seller (b.order id)) 1 b.orderCount

variable {p bondId seller}

variable {o : Order}

theorem shareIn_of_counts (h : p o.status) :
    shareIn p bondId seller (some o)
      = if o.bondId = bondId ∧ o.seller = seller then o.amount else 0 := by
  simp only [shareIn, h, and_true]

theorem shareIn_of_not (h : ¬ p o.status) : shareIn p bondId seller (some o) = 0 := by
  simp only [shareIn, h, and_false, if_false]

/-- An order after a fill counts with what is left of it. -/
theorem shareIn_fillOrder {left : Int} (hpart : p .partiallyFilled) (hfilled : ¬ p .filled) :
    shareIn p bondId seller (some (fillOrder o left))
      = if o.bondId = bondId ∧ o.seller = seller then left else 0 := by
  by_cases hleft : left = 0
  · have hstatus : (fillOrder o left).status = .filled := if_pos hleft
    rw [shareIn_of_not (by rw [hstatus]; exact hfilled), hleft, ite_self]
  · have hstatus : (fillOrder o left).status = .partiallyFilled := if_neg hleft
    rw [shareIn_of_counts (by rw [hstatus]; exact hpart)]
    rfl

/-- Rewriting an order moves the total by the difference. -/
theorem Listings.total_write {b : Listings} {id : Nat} (h : 1 ≤ id ∧ id ≤ b.orderCount) (o : Order)
    (escrow : Int) :
    (b.write id o escrow).total p bondId seller = b.total p bondId seller
      + (shareIn p bondId seller (some o) - shareIn p bondId seller (b.order id)) := by
  have hchange := windowSum_change (f := fun i => shareIn p bondId seller (b.order i))
    (g := fun i => shareIn p bondId seller ((b.write id o escrow).order i)) h.1 h.2
    (fun j hj => by simp only [write, update_of_ne hj])
  simp only [write, update_self] at hchange
  exact hchange

/-- A new order adds to the total. -/
theorem Listings.total_list (b : Listings) (o : Order) :
    (b.list o).total p bondId seller
      = b.total p bondId seller + shareIn p bondId seller (some o) := by
  have hpush := windowSum_push (f := fun i => shareIn p bondId seller (b.order i))
    (g := fun i => shareIn p bondId seller ((b.list o).order i))
    (show 1 ≤ b.orderCount + 1 by omega)
    (fun j hj => by
      have hne : j ≠ b.orderCount + 1 := by omega
      simp only [list, write, update_of_ne hne])
  simp only [list, write, update_self] at hpush
  exact hpush

end Totals

theorem Listings.escrow_write (b : Listings) (id : Nat) (o : Order) (escrow : Int) (bondId : Nat)
    (seller : Address) :
    (b.write id o escrow).escrow bondId seller
      = if o.bondId = bondId ∧ o.seller = seller then escrow else b.escrow bondId seller := by
  show update b.escrow o.bondId (update (b.escrow o.bondId) o.seller escrow) bondId seller = _
  by_cases hbond : o.bondId = bondId
  · subst hbond
    rw [update_self]
    by_cases hseller : o.seller = seller
    · subst hseller
      rw [update_self, if_pos ⟨rfl, rfl⟩]
    · rw [update_of_ne (Ne.symm hseller), if_neg (fun h => hseller h.2)]
  · rw [update_of_ne (Ne.symm hbond), if_neg (fun h => hbond h.1)]

theorem Listings.escrow_list (b : Listings) (o : Order) (bondId : Nat) (seller : Address) :
    (b.list o).escrow bondId seller
      = if o.bondId = bondId ∧ o.seller = seller then b.escrow o.bondId o.seller + o.amount
        else b.escrow bondId seller :=
  b.escrow_write (b.orderCount + 1) o _ bondId seller

/-! ## The sweep -/

/-- What the sweep makes of an order it scans. -/
def Order.swept (clock : Clock) (o : Order) : Order :=
  if o.status.Live ∧ o.IsExpired clock then { o with status := .expired } else o

/-- A swept order is swept. -/
theorem Order.swept_swept (clock : Clock) (o : Order) :
    (o.swept clock).swept clock = o.swept clock := by
  by_cases h : o.status.Live ∧ o.IsExpired clock
  · have hswept : o.swept clock = { o with status := .expired } := if_pos h
    have hlive : ¬ OrderStatus.Live .expired := by decide
    rw [hswept]
    exact if_neg (fun h' => hlive h'.1)
  · have hswept : o.swept clock = o := if_neg h
    rw [hswept, hswept]

theorem DEXRouter.sweepOrder_apply (clock : Clock) (r : (Nat → Option Order) × Nat) (i id : Nat) :
    (sweepOrder clock r i).1 id
      = if id = i then (r.1 id).map (Order.swept clock) else r.1 id := by
  unfold sweepOrder
  by_cases hid : id = i
  · subst hid
    rw [if_pos rfl]
    cases ho : r.1 id with
    | none => simp only [ho, Option.map_none]
    | some o =>
        simp only [Option.map_some, Order.swept]
        split
        · exact update_self ..
        · exact ho
  · rw [if_neg hid]
    cases ho : r.1 i with
    | none => rfl
    | some o =>
        simp only
        split
        · exact update_of_ne hid ..
        · rfl

/-- **The sweep as a map.** The scanned orders are swept, in whatever order the loop met them. -/
theorem Listings.sweep_order (clock : Clock) (b : Listings) (ids : List Nat) (id : Nat) :
    (b.sweep clock ids).order id
      = if id ∈ ids then (b.order id).map (Order.swept clock) else b.order id := by
  have hfold : ∀ (ids : List Nat) (r : (Nat → Option Order) × Nat),
      (ids.foldl (sweepOrder clock) r).1 id
        = if id ∈ ids then (r.1 id).map (Order.swept clock) else r.1 id := by
    intro ids
    induction ids with
    | nil =>
        intro r
        rw [if_neg List.not_mem_nil]
        rfl
    | cons i ids ih =>
        intro r
        rw [List.foldl_cons, ih, sweepOrder_apply]
        by_cases hhead : id = i
        · -- scanned here; a later round changes nothing
          have hmem : id ∈ i :: ids := hhead ▸ List.mem_cons_self
          rw [if_pos hhead, if_pos hmem, Option.map_map]
          have hidem : Order.swept clock ∘ Order.swept clock = Order.swept clock :=
            funext (Order.swept_swept clock)
          rw [hidem, ite_self]
        · have hmem : id ∈ i :: ids ↔ id ∈ ids := by
            rw [List.mem_cons]
            exact or_iff_right hhead
          simp only [if_neg hhead, hmem]
  exact hfold ids (b.order, 0)

/-- Sweeping moves amounts among the locked statuses only. -/
theorem shareIn_swept (clock : Clock) (bondId : Nat) (seller : Address) (o : Option Order) :
    shareIn OrderStatus.Locked bondId seller (o.map (Order.swept clock))
      = shareIn OrderStatus.Locked bondId seller o := by
  cases o with
  | none => rfl
  | some o =>
      rw [Option.map_some]
      unfold Order.swept
      split
      · next h =>
          rw [shareIn_of_counts (o := o) (.inl h.1),
            shareIn_of_counts (o := { o with status := .expired }) (.inr rfl)]
      · rfl

/-! ## The invariant -/

/-- **The listings invariant.** Orders are numbered and priced, what is locked is positive, and the
escrow is what is locked. -/
structure Listings.Sound (b : Listings) : Prop where
  numbered : ∀ id o, b.order id = some o → 1 ≤ id ∧ id ≤ b.orderCount
  priced : ∀ id o, b.order id = some o → 0 < o.pricePerToken
  positive : ∀ id o, b.order id = some o → o.status.Locked → 0 < o.amount
  escrow : ∀ bondId seller, b.escrow bondId seller = b.total OrderStatus.Locked bondId seller
  fits : ∀ bondId seller, InI128 (b.escrow bondId seller)

namespace Listings

theorem sound_empty : Listings.Sound ⟨fun _ => none, 0, fun _ _ => 0⟩ where
  numbered := by simp
  priced := by simp
  positive := by simp
  escrow := fun _ _ => (windowSum_empty (by decide)).symm
  fits := fun _ _ => inI128_zero

variable {b : Listings}

/-- What an order has left is not negative, whichever of the locked statuses count. -/
theorem Sound.shareIn_nonneg (h : b.Sound) {p : OrderStatus → Prop} [DecidablePred p]
    (hp : ∀ status, p status → status.Locked) (bondId : Nat) (seller : Address) (id : Nat) :
    0 ≤ shareIn p bondId seller (b.order id) := by
  cases ho : b.order id with
  | none => exact le_refl 0
  | some o =>
      by_cases hcounts : p o.status
      · rw [shareIn_of_counts hcounts]
        have hpos := h.positive id o ho (hp o.status hcounts)
        split
        · omega
        · exact le_refl 0
      · rw [shareIn_of_not hcounts]

variable {id : Nat} {o : Order}

/-- A locked order is covered by the escrow. -/
theorem Sound.amount_le_escrow (h : b.Sound) (ho : b.order id = some o) (hlocked : o.status.Locked) :
    o.amount ≤ b.escrow o.bondId o.seller := by
  obtain ⟨hlo, hhi⟩ := h.numbered id o ho
  have hle := le_windowSum (f := fun id => shareIn OrderStatus.Locked o.bondId o.seller (b.order id))
    (fun i _ _ => h.shareIn_nonneg (fun _ hlocked => hlocked) o.bondId o.seller i) hlo hhi
  have hshare : shareIn OrderStatus.Locked o.bondId o.seller (b.order id) = o.amount := by
    rw [ho, shareIn_of_counts hlocked, if_pos ⟨rfl, rfl⟩]
  rw [hshare] at hle
  rw [h.escrow]
  exact hle

/-- Rewriting an order keeps the invariant if the escrow moves with what the order locks. -/
theorem Sound.write (h : b.Sound) {o' : Order} {escrow : Int} (ho : b.order id = some o)
    (hprice : o'.pricePerToken = o.pricePerToken) (hpos : o'.status.Locked → 0 < o'.amount)
    (hescrow : ∀ bondId seller, (b.write id o' escrow).escrow bondId seller
      = b.escrow bondId seller + (shareIn OrderStatus.Locked bondId seller (some o')
        - shareIn OrderStatus.Locked bondId seller (some o)))
    (hfits : InI128 escrow) : (b.write id o' escrow).Sound where
  numbered := fun j x hx => by
    by_cases hj : j = id
    · subst hj
      exact h.numbered j o ho
    · exact h.numbered j x ((update_of_ne hj ..).symm.trans hx)
  priced := fun j x hx => by
    by_cases hj : j = id
    · subst hj
      have hx' : x = o' := Option.some.inj (hx.symm.trans (update_self ..))
      rw [hx', hprice]
      exact h.priced j o ho
    · exact h.priced j x ((update_of_ne hj ..).symm.trans hx)
  positive := fun j x hx hlocked => by
    by_cases hj : j = id
    · subst hj
      have hx' : x = o' := Option.some.inj (hx.symm.trans (update_self ..))
      rw [hx'] at hlocked ⊢
      exact hpos hlocked
    · exact h.positive j x ((update_of_ne hj ..).symm.trans hx) hlocked
  escrow := fun bondId seller => by
    rw [hescrow, total_write (h.numbered id o ho), ho, h.escrow]
  fits := fun bondId seller => by
    rw [escrow_write]
    split
    · exact hfits
    · exact h.fits bondId seller

/-- The escrow of the seller goes down by what was bought or withdrawn. -/
theorem escrow_write_sub (o' : Order) (id : Nat) (amount : Int) (bondId : Nat) (seller : Address) :
    (b.write id o' (b.escrow o'.bondId o'.seller - amount)).escrow bondId seller
      = b.escrow bondId seller
        - if o'.bondId = bondId ∧ o'.seller = seller then amount else 0 := by
  rw [escrow_write]
  by_cases hthis : o'.bondId = bondId ∧ o'.seller = seller
  · obtain ⟨rfl, rfl⟩ := hthis
    simp only [and_self, if_true]
  · simp only [if_neg hthis, sub_zero]

/-- A fill. -/
theorem Sound.fill (h : b.Sound) {amount : Int} (ho : b.order id = some o) (hlive : o.status.Live)
    (hpos : 0 < amount) (hle : amount ≤ o.amount) : (b.fill id o amount).Sound := by
  have hcovered := h.amount_le_escrow ho (.inl hlive)
  refine h.write ho rfl (fun hlocked => ?_) (fun bondId seller => ?_) ?_
  · -- an order with nothing left is filled, which locks nothing
    by_cases hleft : o.amount - amount = 0
    · have hstatus : (fillOrder o (o.amount - amount)).status = .filled := if_pos hleft
      rw [hstatus] at hlocked
      exact absurd hlocked (by decide)
    · show 0 < o.amount - amount
      omega
  · rw [shareIn_fillOrder (.inl (.inr rfl)) (by decide), shareIn_of_counts (.inl hlive)]
    refine (escrow_write_sub _ id amount bondId seller).trans ?_
    show _ - (if o.bondId = bondId ∧ o.seller = seller then amount else 0) = _
    split <;> ring
  · exact InI128.of_nonneg_le (by omega) (by omega) (h.fits o.bondId o.seller)

/-- A cancellation. The subtraction never falls back to zero. -/
theorem Sound.cancel_eq (h : b.Sound) (ho : b.order id = some o) (hlive : o.status.Live) :
    b.cancel id o = b.write id { o with status := .cancelled }
      (b.escrow o.bondId o.seller - o.amount) := by
  have hcovered := h.amount_le_escrow ho (.inl hlive)
  have hpos := h.positive id o ho (.inl hlive)
  have hfits : InI128 (b.escrow o.bondId o.seller - o.amount) :=
    InI128.of_nonneg_le (by omega) (by omega) (h.fits o.bondId o.seller)
  unfold cancel
  rw [i128_of hfits, Option.getD_some]

theorem Sound.cancel (h : b.Sound) (ho : b.order id = some o) (hlive : o.status.Live) :
    (b.cancel id o).Sound := by
  have hcovered := h.amount_le_escrow ho (.inl hlive)
  have hpos := h.positive id o ho (.inl hlive)
  have hcancelled : ¬ OrderStatus.Locked .cancelled := by decide
  rw [h.cancel_eq ho hlive]
  refine h.write ho rfl (fun hlocked => absurd hlocked hcancelled) (fun bondId seller => ?_) ?_
  · rw [shareIn_of_not hcancelled, shareIn_of_counts (.inl hlive)]
    refine (escrow_write_sub _ id o.amount bondId seller).trans ?_
    show _ - (if o.bondId = bondId ∧ o.seller = seller then o.amount else 0) = _
    split <;> ring
  · exact InI128.of_nonneg_le (by omega) (by omega) (h.fits o.bondId o.seller)

/-- A new listing. -/
theorem Sound.list (h : b.Sound) (hopen : o.status = .open) (hpos : 0 < o.amount)
    (hprice : 0 < o.pricePerToken) (hfits : InI128 (b.escrow o.bondId o.seller + o.amount)) :
    (b.list o).Sound where
  numbered := fun j x hx => by
    show 1 ≤ j ∧ j ≤ b.orderCount + 1
    by_cases hj : j = b.orderCount + 1
    · omega
    · obtain ⟨hlo, hhi⟩ := h.numbered j x ((update_of_ne hj ..).symm.trans hx)
      omega
  priced := fun j x hx => by
    by_cases hj : j = b.orderCount + 1
    · subst hj
      rw [Option.some.inj (hx.symm.trans (update_self ..))]
      exact hprice
    · exact h.priced j x ((update_of_ne hj ..).symm.trans hx)
  positive := fun j x hx hlocked => by
    by_cases hj : j = b.orderCount + 1
    · subst hj
      rw [Option.some.inj (hx.symm.trans (update_self ..))]
      exact hpos
    · exact h.positive j x ((update_of_ne hj ..).symm.trans hx) hlocked
  escrow := fun bondId seller => by
    have hlocked : o.status.Locked := .inl (.inl hopen)
    rw [total_list, shareIn_of_counts hlocked, ← h.escrow, escrow_list]
    by_cases hthis : o.bondId = bondId ∧ o.seller = seller
    · obtain ⟨rfl, rfl⟩ := hthis
      simp only [and_self, if_true]
    · simp only [if_neg hthis, add_zero]
  fits := fun bondId seller => by
    rw [escrow_list]
    split
    · exact hfits
    · exact h.fits bondId seller

/-- A sweep. -/
theorem Sound.sweep (h : b.Sound) (clock : Clock) (ids : List Nat) : (b.sweep clock ids).Sound := by
  -- an order after the sweep comes from one before it, with the same data but for the status
  have horigin : ∀ j x, (b.sweep clock ids).order j = some x →
      ∃ o, b.order j = some o ∧ (x = o ∨ x = o.swept clock) := by
    intro j x hx
    rw [sweep_order] at hx
    split at hx
    · obtain ⟨o, ho, heq⟩ := Option.map_eq_some_iff.mp hx
      exact ⟨o, ho, .inr heq.symm⟩
    · exact ⟨x, hx, .inl rfl⟩
  have hswept : ∀ o : Order, (o.swept clock).pricePerToken = o.pricePerToken ∧
      (o.swept clock).amount = o.amount ∧ ((o.swept clock).status.Locked → o.status.Locked) := by
    intro o
    unfold Order.swept
    split
    · next hmark => exact ⟨rfl, rfl, fun _ => .inl hmark.1⟩
    · exact ⟨rfl, rfl, id⟩
  refine ⟨fun j x hx => ?_, fun j x hx => ?_, fun j x hx hlocked => ?_, fun bondId seller => ?_,
    h.fits⟩
  · obtain ⟨o, ho, -⟩ := horigin j x hx
    exact h.numbered j o ho
  · obtain ⟨o, ho, rfl | rfl⟩ := horigin j x hx
    · exact h.priced j x ho
    · rw [(hswept o).1]
      exact h.priced j o ho
  · obtain ⟨o, ho, rfl | rfl⟩ := horigin j x hx
    · exact h.positive j x ho hlocked
    · rw [(hswept o).2.1]
      exact h.positive j o ho ((hswept o).2.2 hlocked)
  · rw [show (b.sweep clock ids).escrow bondId seller = b.escrow bondId seller from rfl, h.escrow]
    refine (windowSum_congr (fun j _ _ => ?_)).symm
    show shareIn OrderStatus.Locked bondId seller ((b.sweep clock ids).order j) = _
    rw [sweep_order]
    split
    · exact shareIn_swept clock bondId seller (b.order j)
    · rfl

end Listings

/-- **Every move keeps the listings invariant.** -/
theorem DexMove.listings_sound {env : DexEnv} {clock : Clock} {q q' : QuoteBook} {b b' : Listings}
    {issuer issuer' : BondIssuer} {call : DexCall} {reply : DexReply} (hb : b.Sound)
    (h : DexMove env clock q b issuer call reply q' b' issuer') : b'.Sound := by
  cases h with
  | administer | deposit | withdraw | commit | forfeit => exact hb
  | reveal _ _ _ _ _ hfill | execute hfill =>
      rw [hfill.listings]
      exact hb.fill hfill.found hfill.live hfill.positive hfill.available
  | list hpositive hpriced _ hfits => exact hb.list rfl hpositive hpriced hfits
  | cancel hfound hlive => exact hb.cancel hfound hlive
  | sweep => exact hb.sweep clock _

theorem DexStep.listings_sound {w w' : DexWorld} {i : DexInput} {reply : Option DexReply}
    (h : DexStep w i w' reply) (hw : w.dex.listings.Sound) : w'.dex.listings.Sound := by
  cases h with
  | outside | failed => exact hw
  | moved _ hmove => exact hmove.listings_sound hw

/-- The invariant holds in every run. -/
theorem dexRun_listings_sound (base : IssuerWorld) (admin : Address) (l : List DexInput) :
    (dexRun base admin l).dex.listings.Sound :=
  dexMachine.run_invariant (s := DexWorld.deploy base admin)
    (P := fun w => w.dex.listings.Sound) Listings.sound_empty
    (fun w i hw => (w.step_cases i).listings_sound hw) l

end VerdantBond
