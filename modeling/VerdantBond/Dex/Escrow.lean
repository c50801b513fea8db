import VerdantBond.Dex.Listings
import VerdantBond.Issuer.Supply

set_option autoImplicit false

/-! # DEXRouter: when the escrow matches the live orders

`cancel_listing` releases the escrow of the order it closes. `clean_expired_orders` closes an order
too, and does not: what was left in the order stays in the seller's escrow for good, since an
expired order can be neither filled nor cancelled. The escrow is what the live orders have left
exactly in the runs without such a sweep.
-/

namespace VerdantBond

open Function

namespace Listings

/-- What is left in the seller's live orders of the bond. -/
def liveTotal (b : Listings) (bondId : Nat) (seller : Address) : Int :=
  b.total OrderStatus.Live bondId seller

/-- What is left in the seller's expired orders of the bond. -/
def expiredTotal (b : Listings) (bondId : Nat) (seller : Address) : Int :=
  b.total (fun status => status = .expired) bondId seller

/-- An order of the seller in the bond. -/
def Owns (bondId : Nat) (seller : Address) (o : Order) : Prop :=
  o.bondId = bondId ∧ o.seller = seller

/-- The seller has an expired order of the bond. -/
def HasExpired (b : Listings) (bondId : Nat) (seller : Address) : Prop :=
  ∃ id o, b.order id = some o ∧ Owns bondId seller o ∧ o.status = .expired

theorem shareIn_locked (bondId : Nat) (seller : Address) (o : Option Order) :
    shareIn OrderStatus.Locked bondId seller o = shareIn OrderStatus.Live bondId seller o
      + shareIn (fun status => status = .expired) bondId seller o := by
  cases o with
  | none => rfl
  | some o =>
      simp only [shareIn, OrderStatus.Locked, OrderStatus.Live]
      cases o.status <;> simp

variable {b : Listings} {o : Order}

/-- The escrow is what the live and the expired orders have left. -/
theorem Sound.escrow_eq (h : b.Sound) (bondId : Nat) (seller : Address) :
    b.escrow bondId seller = b.liveTotal bondId seller + b.expiredTotal bondId seller := by
  rw [h.escrow]
  unfold liveTotal expiredTotal total windowSum
  rw [← Finset.sum_add_distrib]
  exact Finset.sum_congr rfl (fun id _ => shareIn_locked bondId seller (b.order id))

/-- Nothing is left in expired orders exactly when there are none. -/
theorem Sound.expiredTotal_eq_zero (h : b.Sound) (bondId : Nat) (seller : Address) :
    b.expiredTotal bondId seller = 0 ↔ ¬ b.HasExpired bondId seller := by
  constructor
  · rintro hzero ⟨id, o, ho, howns, hexpired⟩
    obtain ⟨hlo, hhi⟩ := h.numbered id o ho
    have hle : shareIn (fun status => status = .expired) bondId seller (b.order id)
        ≤ b.expiredTotal bondId seller :=
      le_windowSum (f := fun id => shareIn (fun status => status = .expired) bondId seller
        (b.order id)) (fun i _ _ => h.shareIn_nonneg (fun _ => .inr) bondId seller i) hlo hhi
    have hshare : shareIn (fun status => status = .expired) bondId seller (b.order id) = o.amount := by
      rw [ho, shareIn_of_counts (p := fun status => status = .expired) hexpired]
      exact if_pos howns
    have hpos := h.positive id o ho (.inr hexpired)
    omega
  · intro hnone
    unfold expiredTotal total
    refine Finset.sum_eq_zero (fun id _ => ?_)
    cases ho : b.order id with
    | none => rfl
    | some o =>
        by_cases hexpired : o.status = .expired
        · rw [shareIn_of_counts (p := fun status => status = .expired) hexpired]
          exact if_neg (fun howns => hnone ⟨id, o, ho, howns, hexpired⟩)
        · exact shareIn_of_not (p := fun status => status = .expired) hexpired

/-- Rewriting a live order with one that is not expired neither adds nor removes an expired one. -/
theorem hasExpired_write {id : Nat} {o' : Order} {escrow : Int} (ho : b.order id = some o)
    (hlive : o.status.Live) (hnew : o'.status ≠ .expired) (bondId : Nat) (seller : Address) :
    (b.write id o' escrow).HasExpired bondId seller ↔ b.HasExpired bondId seller := by
  have hold : o.status ≠ .expired := by
    intro hexpired
    rw [hexpired] at hlive
    exact absurd hlive (by decide)
  constructor
  · rintro ⟨j, x, hx, howns, hexpired⟩
    by_cases hj : j = id
    · subst hj
      have hx' : x = o' := Option.some.inj (hx.symm.trans (update_self ..))
      exact absurd (hx' ▸ hexpired) hnew
    · exact ⟨j, x, (update_of_ne hj ..).symm.trans hx, howns, hexpired⟩
  · rintro ⟨j, x, hx, howns, hexpired⟩
    by_cases hj : j = id
    · subst hj
      have hx' : x = o := Option.some.inj (hx.symm.trans ho)
      exact absurd (hx' ▸ hexpired) hold
    · exact ⟨j, x, (update_of_ne hj ..).trans hx, howns, hexpired⟩

theorem hasExpired_list (h : b.Sound) (hopen : o.status = .open) (bondId : Nat) (seller : Address) :
    (b.list o).HasExpired bondId seller ↔ b.HasExpired bondId seller := by
  constructor
  · rintro ⟨j, x, hx, howns, hexpired⟩
    by_cases hj : j = b.orderCount + 1
    · subst hj
      have hx' : x = o := Option.some.inj (hx.symm.trans (update_self ..))
      rw [hx', hopen] at hexpired
      cases hexpired
    · exact ⟨j, x, (update_of_ne hj ..).symm.trans hx, howns, hexpired⟩
  · rintro ⟨j, x, hx, howns, hexpired⟩
    have hj : j ≠ b.orderCount + 1 := by
      have hnumbered := h.numbered j x hx
      omega
    exact ⟨j, x, (update_of_ne hj ..).trans hx, howns, hexpired⟩

/-- A sweep leaves the seller with an expired order if there was one, or if it met one. -/
theorem hasExpired_sweep (clock : Clock) (b : Listings) (ids : List Nat) (bondId : Nat)
    (seller : Address) :
    (b.sweep clock ids).HasExpired bondId seller ↔ b.HasExpired bondId seller ∨
      ∃ id ∈ ids, ∃ o, b.order id = some o ∧ Owns bondId seller o ∧ o.status.Live ∧
        o.IsExpired clock := by
  constructor
  · rintro ⟨id, x, hx, howns, hexpired⟩
    rw [sweep_order] at hx
    by_cases hmem : id ∈ ids
    · rw [if_pos hmem] at hx
      obtain ⟨o, ho, rfl⟩ := Option.map_eq_some_iff.mp hx
      by_cases hmark : o.status.Live ∧ o.IsExpired clock
      · have hswept : o.swept clock = { o with status := .expired } := if_pos hmark
        rw [hswept] at howns
        exact .inr ⟨id, hmem, o, ho, howns, hmark.1, hmark.2⟩
      · have hswept : o.swept clock = o := if_neg hmark
        rw [hswept] at howns hexpired
        exact .inl ⟨id, o, ho, howns, hexpired⟩
    · rw [if_neg hmem] at hx
      exact .inl ⟨id, x, hx, howns, hexpired⟩
  · rintro (⟨id, o, ho, howns, hexpired⟩ | ⟨id, hmem, o, ho, howns, hlive, hdue⟩)
    · -- an expired order is not live, so the sweep leaves it alone
      have hmark : ¬ (o.status.Live ∧ o.IsExpired clock) := by
        rintro ⟨hlive, -⟩
        rw [hexpired] at hlive
        exact absurd hlive (by decide)
      have hswept : o.swept clock = o := if_neg hmark
      refine ⟨id, o, ?_, howns, hexpired⟩
      rw [sweep_order, ho, Option.map_some, hswept, ite_self]
    · have hswept : o.swept clock = { o with status := .expired } := if_pos ⟨hlive, hdue⟩
      refine ⟨id, o.swept clock, ?_, ?_, ?_⟩
      · rw [sweep_order, if_pos hmem, ho, Option.map_some]
      · rw [hswept]
        exact howns
      · rw [hswept]

end Listings

/-! ## Runs -/

/-- The call sweeps a live order of the seller that is past its time. -/
def DexCall.Sweeps (clock : Clock) (b : Listings) (bondId : Nat) (seller : Address) :
    DexCall → Prop
  | .cleanExpiredOrders _ startId limit _ =>
      ∃ id ∈ scannedIds startId limit b.orderCount, ∃ o, b.order id = some o ∧
        Listings.Owns bondId seller o ∧ o.status.Live ∧ o.IsExpired clock
  | _ => False

/-- An event in which the sweep succeeded and met a live order of the seller past its time. -/
def SweepsListing (bondId : Nat) (seller : Address) (e : DexEvent) : Prop :=
  match e.input, e.output with
  | .dex _ call, some _ => call.Sweeps e.pre.base.clock e.pre.dex.listings bondId seller
  | _, _ => False

/-- Expired orders come from sweeps only, and stay. -/
theorem DexMove.hasExpired {env : DexEnv} {clock : Clock} {q q' : QuoteBook} {b b' : Listings}
    {issuer issuer' : BondIssuer} {call : DexCall} {reply : DexReply} (hb : b.Sound)
    (h : DexMove env clock q b issuer call reply q' b' issuer') (bondId : Nat) (seller : Address) :
    b'.HasExpired bondId seller ↔
      b.HasExpired bondId seller ∨ call.Sweeps clock b bondId seller := by
  cases h with
  | administer h =>
      cases call with
      | setAdmin | configureMarket | updateOracleReference => exact (or_iff_left not_false).symm
      | _ => cases h
  | deposit | withdraw | commit | forfeit => exact (or_iff_left not_false).symm
  | reveal _ _ _ _ _ hfill | execute hfill =>
      rw [hfill.listings]
      refine (Listings.hasExpired_write hfill.found hfill.live ?_ bondId seller).trans
        (or_iff_left not_false).symm
      show (if _ then OrderStatus.filled else .partiallyFilled) ≠ .expired
      split <;> decide
  | list => exact (Listings.hasExpired_list hb rfl bondId seller).trans (or_iff_left not_false).symm
  | cancel hfound hlive =>
      refine (Listings.hasExpired_write hfound hlive ?_ bondId seller).trans (or_iff_left not_false).symm
      show OrderStatus.cancelled ≠ .expired
      decide
  | sweep => exact Listings.hasExpired_sweep clock b _ bondId seller

theorem DexStep.hasExpired {w w' : DexWorld} {i : DexInput} {reply : Option DexReply}
    (h : DexStep w i w' reply) (hw : w.dex.listings.Sound) (bondId : Nat) (seller : Address) :
    w'.dex.listings.HasExpired bondId seller ↔
      w.dex.listings.HasExpired bondId seller ∨ SweepsListing bondId seller ⟨w, i, reply, w'⟩ := by
  cases h with
  | outside h =>
      subst h
      exact (or_iff_left not_false).symm
  | failed h =>
      subst h
      exact (or_iff_left not_false).symm
  | moved h hmove =>
      subst h
      exact hmove.hasExpired hw bondId seller

/-- The seller has an expired order exactly when a sweep of the run made one. -/
theorem dexRun_hasExpired (base : IssuerWorld) (admin : Address) (l : List DexInput) (bondId : Nat)
    (seller : Address) :
    (dexRun base admin l).dex.listings.HasExpired bondId seller ↔
      ∃ e ∈ dexHistory base admin l, SweepsListing bondId seller e := by
  refine dexHistory_induct base admin
    (P := fun es w => w.dex.listings.HasExpired bondId seller ↔
      ∃ e ∈ es, SweepsListing bondId seller e) ?_ (fun l i h => ?_) l
  · constructor
    · rintro ⟨id, o, ho, -⟩
      cases ho
    · rintro ⟨e, he, -⟩
      cases he
  · have hstep := ((dexRun base admin l).step_cases i).hasExpired
      (dexRun_listings_sound base admin l) bondId seller
    refine hstep.trans ?_
    rw [h]
    constructor
    · rintro (⟨e, he, hsweeps⟩ | hsweeps)
      · exact ⟨e, List.mem_append_left _ he, hsweeps⟩
      · exact ⟨_, List.mem_append_right _ List.mem_cons_self, hsweeps⟩
    · rintro ⟨e, he, hsweeps⟩
      rcases List.mem_append.mp he with he | he
      · exact .inl ⟨e, he, hsweeps⟩
      · rw [List.mem_singleton] at he
        subst he
        exact .inr hsweeps

/-- **The escrow matches the live orders exactly when no sweep met an expired order of the seller**,
in every run. -/
theorem escrow_matches_live_iff (base : IssuerWorld) (admin : Address) (l : List DexInput)
    (bondId : Nat) (seller : Address) :
    (dexRun base admin l).dex.bondEscrow bondId seller
        = (dexRun base admin l).dex.listings.liveTotal bondId seller ↔
      ∀ e ∈ dexHistory base admin l, ¬ SweepsListing bondId seller e := by
  have hsound := dexRun_listings_sound base admin l
  have hescrow : (dexRun base admin l).dex.bondEscrow bondId seller
      = (dexRun base admin l).dex.listings.liveTotal bondId seller
        + (dexRun base admin l).dex.listings.expiredTotal bondId seller :=
    hsound.escrow_eq bondId seller
  have hzero := hsound.expiredTotal_eq_zero bondId seller
  rw [dexRun_hasExpired] at hzero
  push Not at hzero
  rw [← hzero, hescrow]
  constructor
  · intro h
    omega
  · intro h
    omega

/-! ## A sweep that keeps the escrow -/

/-- The DEX over the issuer of the sample subscription, whose investor holds five units of bond one. -/
def sampleMarket : IssuerWorld := issuerRun ⟨10, 100⟩ ⟨0⟩ ⟨1⟩ sampleSubscription

def sampleDexEnv : DexEnv := { sampleEnv with commitmentHash := fun _ _ _ _ salt => salt }

/-- The investor lists all five units for ten seconds, the time passes, and the admin sweeps. -/
def sampleSweep : List DexInput :=
  [.dex sampleDexEnv (.listBondTokens ⟨2⟩ 1 5 7 "USDC" 10 0), .issuer (.close 1 10),
    .dex sampleDexEnv (.cleanExpiredOrders ⟨1⟩ 0 10 0)]

/-- The order is gone and its five units are still in escrow. -/
theorem sweep_keeps_escrow :
    (dexRun sampleMarket ⟨1⟩ sampleSweep).dex.bondEscrow 1 ⟨2⟩ = 5 ∧
      (dexRun sampleMarket ⟨1⟩ sampleSweep).dex.listings.liveTotal 1 ⟨2⟩ = 0 := by
  decide

end VerdantBond
