import VerdantBond.Dex.Escrow

set_option autoImplicit false

/-! # DEXRouter: when listings are covered by the seller's balance

`list_bond_tokens` compares the seller's balance in the issuer with the amount of the new order
alone, not with what the seller's other live orders already promise. While the balances move through
fills only, a fill takes the same amount from both sides, a cancellation and a sweep take from the
orders only; so the orders stay covered exactly as long as every listing leaves them covered.
-/

namespace VerdantBond

open Function

/-! ## What a fill moves in the issuer -/

variable {clock : Clock} {bondId : Nat} {amount : Int} {env : DexEnv} {q q' : QuoteBook}
  {b b' : Listings} {issuer issuer' : BondIssuer} {call : DexCall} {reply : DexReply}
  {seller : Address} {i : DexInput}

/-- The balances after a transfer. -/
theorem BondIssuer.transfer_balance {env : Env} {s s' : BondIssuer} {source target : Address}
    {nonce : Nat} (h : s.transfer env clock source target bondId amount nonce = .ok s') (id : Nat)
    (holder : Address) :
    s'.getHolderBalance id holder = s.getHolderBalance id holder
      - (if bondId = id ∧ source = holder then amount else 0)
      + (if bondId = id ∧ target = holder then amount else 0) := by
  obtain ⟨-, -, b, hb, rfl⟩ := BondIssuer.transfer_ok h
  obtain ⟨_, _, _, _, -, hne, -, -, -, -, -, -, -, -, -, -, rfl⟩ := Bond.transfer_ok hb
  unfold BondIssuer.getHolderBalance
  by_cases hid : bondId = id
  · subst hid
    simp only [update_self, true_and]
    by_cases htarget : target = holder
    · subst htarget
      rw [update_self, if_neg (Ne.symm hne), if_pos rfl]
      ring
    · rw [update_of_ne (Ne.symm htarget), update_sub_apply, if_neg htarget]
      ring
  · simp only [update_of_ne (Ne.symm hid), hid, false_and, if_false]
    ring

/-! ## One move -/

namespace Listings

variable {b : Listings}

variable {o : Order}

theorem Sound.liveTotal_fill (h : b.Sound) {id : Nat} {amount : Int} (ho : b.order id = some o)
    (hlive : o.status.Live) (bondId : Nat) (seller : Address) :
    (b.fill id o amount).liveTotal bondId seller = b.liveTotal bondId seller
      - if o.bondId = bondId ∧ o.seller = seller then amount else 0 := by
  unfold liveTotal Listings.fill
  rw [total_write (h.numbered id o ho), ho, shareIn_fillOrder (.inr rfl) (by decide),
    shareIn_of_counts hlive]
  split
  · ring
  · ring

theorem Sound.liveTotal_cancel_le (h : b.Sound) {id : Nat} (ho : b.order id = some o) (bondId : Nat)
    (seller : Address) : (b.cancel id o).liveTotal bondId seller ≤ b.liveTotal bondId seller := by
  have hcancelled : ¬ OrderStatus.Live .cancelled := by decide
  have hnonneg := h.shareIn_nonneg (p := OrderStatus.Live) (fun _ => .inl) bondId seller id
  unfold liveTotal Listings.cancel
  rw [total_write (h.numbered id o ho),
    shareIn_of_not (o := { o with status := .cancelled }) hcancelled]
  omega

theorem Sound.liveTotal_sweep_le (h : b.Sound) (clock : Clock) (ids : List Nat) (bondId : Nat)
    (seller : Address) :
    (b.sweep clock ids).liveTotal bondId seller ≤ b.liveTotal bondId seller := by
  unfold liveTotal total windowSum
  refine Finset.sum_le_sum (fun id _ => ?_)
  show shareIn OrderStatus.Live bondId seller ((b.sweep clock ids).order id) ≤ _
  rw [sweep_order]
  split
  · cases ho : b.order id with
    | none => exact le_refl 0
    | some o =>
        rw [Option.map_some]
        by_cases hmark : o.status.Live ∧ o.IsExpired clock
        · have hswept : o.swept clock = { o with status := .expired } := if_pos hmark
          have hexpired : ¬ OrderStatus.Live .expired := by decide
          have hnonneg :=
            h.shareIn_nonneg (p := OrderStatus.Live) (fun _ => .inl) bondId seller id
          rw [hswept, shareIn_of_not (o := { o with status := .expired }) hexpired, ← ho]
          exact hnonneg
        · have hswept : o.swept clock = o := if_neg hmark
          rw [hswept]
  · exact le_refl _

end Listings

/-- The amount a call lists for the seller in the bond, if any. -/
def DexCall.lists (bondId : Nat) (seller : Address) : DexCall → Option Int
  | .listBondTokens lister id amount _ _ _ _ =>
      if id = bondId ∧ lister = seller then some amount else none
  | _ => none

/-- A fill takes the same from the seller's orders and the seller's balance. -/
theorem Fill.covered {buyer : Address} {orderId : Nat} {maxPrice : Int} {order : Order}
    (hb : b.Sound) (h : Fill env clock buyer orderId maxPrice amount order q b issuer q' b' issuer')
    (bondId : Nat) (seller : Address)
    (hcovered : b.liveTotal bondId seller ≤ issuer.getHolderBalance bondId seller) :
    b'.liveTotal bondId seller ≤ issuer'.getHolderBalance bondId seller := by
  have hpositive := h.positive
  rw [h.listings, hb.liveTotal_fill h.found h.live, BondIssuer.transfer_balance h.transferred]
  split <;> split <;> omega

/-- A move keeps the seller's orders covered, if a listing finds room for the new order. -/
theorem DexMove.covered (hb : b.Sound) (h : DexMove env clock q b issuer call reply q' b' issuer')
    (hroom : ∀ amount, call.lists bondId seller = some amount →
      b.liveTotal bondId seller + amount ≤ issuer.getHolderBalance bondId seller)
    (hcovered : b.liveTotal bondId seller ≤ issuer.getHolderBalance bondId seller) :
    b'.liveTotal bondId seller ≤ issuer'.getHolderBalance bondId seller := by
  cases h with
  | administer | deposit | withdraw | commit | forfeit => exact hcovered
  | reveal _ _ _ _ _ hfill | execute hfill => exact hfill.covered hb bondId seller hcovered
  | @list lister id amount pricePerToken asset expiresAfterSeconds nonce =>
      unfold Listings.liveTotal at hroom hcovered ⊢
      rw [Listings.total_list, shareIn_of_counts (.inl rfl)]
      by_cases hthis : id = bondId ∧ lister = seller
      · have hlists := hroom amount (if_pos hthis)
        rw [if_pos hthis]
        exact hlists
      · rw [if_neg hthis, add_zero]
        exact hcovered
  | cancel hfound _ => exact le_trans (hb.liveTotal_cancel_le hfound bondId seller) hcovered
  | sweep => exact le_trans (hb.liveTotal_sweep_le clock _ bondId seller) hcovered

/-- A listing that succeeds adds its amount to the seller's orders and leaves the balance alone. -/
theorem DexMove.listed (h : DexMove env clock q b issuer call reply q' b' issuer')
    (hlists : call.lists bondId seller = some amount) :
    b'.liveTotal bondId seller = b.liveTotal bondId seller + amount ∧ issuer' = issuer := by
  cases h with
  | administer h =>
      cases call with
      | setAdmin | configureMarket | updateOracleReference => cases hlists
      | _ => cases h
  | list =>
      simp only [DexCall.lists, Option.ite_none_right_eq_some, Option.some.injEq] at hlists
      obtain ⟨⟨rfl, rfl⟩, rfl⟩ := hlists
      unfold Listings.liveTotal
      rw [Listings.total_list, shareIn_of_counts (.inl rfl)]
      exact ⟨congrArg _ (if_pos ⟨rfl, rfl⟩), rfl⟩
  | _ => cases hlists

/-! ## Runs -/

/-- The seller's live orders of the bond are within the seller's balance. -/
def DexWorld.Covers (w : DexWorld) (bondId : Nat) (seller : Address) : Prop :=
  w.dex.listings.liveTotal bondId seller ≤ w.base.issuer.getHolderBalance bondId seller

/-- The balances of the issuer move through the router only. -/
def MovesByRouter (e : DexEvent) : Prop :=
  match e.input with
  | .issuer _ => ∀ id holder,
      e.post.base.issuer.getHolderBalance id holder = e.pre.base.issuer.getHolderBalance id holder
  | .dex _ _ => True

/-- The amount an event lists for the seller in the bond, if any. -/
def listedIn (bondId : Nat) (seller : Address) (e : DexEvent) : Option Int :=
  match e.input, e.output with
  | .dex _ call, some _ => call.lists bondId seller
  | _, _ => none

/-- A listing finds room for the new order in the seller's balance. -/
def ListsWithin (bondId : Nat) (seller : Address) (e : DexEvent) : Prop :=
  ∀ amount, listedIn bondId seller e = some amount →
    e.pre.dex.listings.liveTotal bondId seller + amount
      ≤ e.pre.base.issuer.getHolderBalance bondId seller

theorem DexStep.covers {w w' : DexWorld} {reply : Option DexReply} (h : DexStep w i w' reply)
    (hw : w.dex.listings.Sound) (hmoves : MovesByRouter ⟨w, i, reply, w'⟩)
    (hroom : ListsWithin bondId seller ⟨w, i, reply, w'⟩) (hcovers : w.Covers bondId seller) :
    w'.Covers bondId seller := by
  cases h with
  | outside h =>
      subst h
      have hsame := hmoves bondId seller
      unfold DexWorld.Covers
      rw [hsame]
      exact hcovers
  | failed => exact hcovers
  | moved h hmove =>
      subst h
      exact hmove.covered hw hroom hcovers

theorem DexStep.listsWithin {w w' : DexWorld} {reply : Option DexReply} (h : DexStep w i w' reply)
    (hcovers : w'.Covers bondId seller) : ListsWithin bondId seller ⟨w, i, reply, w'⟩ := by
  intro amount hlisted
  cases h with
  | outside h =>
      subst h
      cases hlisted
  | failed h =>
      subst h
      cases hlisted
  | moved h hmove =>
      subst h
      obtain ⟨hlive, hissuer⟩ := hmove.listed hlisted
      unfold DexWorld.Covers at hcovers
      rw [hlive, hissuer] at hcovers
      exact hcovers

/-- **A seller's orders stay within the balance exactly when every listing finds room**, in every run
in which the balances move through fills only. -/
theorem listings_covered_iff (clock : Clock) (self issuerAdmin admin : Address)
    (before : List IssuerInput) (l : List DexInput) (bondId : Nat) (seller : Address)
    (hmoves : ∀ e ∈ dexHistory (issuerRun clock self issuerAdmin before) admin l, MovesByRouter e) :
    (∀ l₁, l₁ <+: l →
        (dexRun (issuerRun clock self issuerAdmin before) admin l₁).Covers bondId seller) ↔
      ∀ e ∈ dexHistory (issuerRun clock self issuerAdmin before) admin l,
        ListsWithin bondId seller e := by
  constructor
  · intro hcovers e he
    obtain ⟨l₁, i, l₂, rfl, rfl⟩ := exists_of_mem_dexHistory _ _ he
    refine ((dexRun _ admin l₁).step_cases i).listsWithin ?_
    rw [← dexRun_snoc]
    exact hcovers (l₁ ++ [i]) ⟨l₂, by simp⟩
  · intro hlists l₁ hprefix
    obtain ⟨l₂, rfl⟩ := hprefix
    have hpart : ∀ e ∈ dexHistory (issuerRun clock self issuerAdmin before) admin l₁,
        MovesByRouter e ∧ ListsWithin bondId seller e := by
      intro e he
      have hmem : e ∈ dexHistory (issuerRun clock self issuerAdmin before) admin (l₁ ++ l₂) := by
        unfold dexHistory
        rw [Machine.history_append]
        exact List.mem_append_left _ he
      exact ⟨hmoves e hmem, hlists e hmem⟩
    refine dexMachine.run_guarded (P := fun w => w.Covers bondId seller) ?_
      (fun l i hcovers hguard => ?_) l₁ hpart
    · -- nothing is listed yet, and nobody holds less than nothing
      have hsound := issuerRun_sound clock self issuerAdmin before bondId
      have hzero : (DexWorld.deploy (issuerRun clock self issuerAdmin before) admin).dex.listings.liveTotal
          bondId seller = 0 := windowSum_empty (show (0 : Nat) < 1 by decide)
      unfold DexWorld.Covers
      rw [hzero]
      exact hsound.ledger.nonneg seller
    · exact ((dexRun _ admin l).step_cases i).covers (dexRun_listings_sound _ admin l) hguard.1
        hguard.2 hcovers

/-- The investor lists two units and then the other three, of which one is sold. -/
def sampleOffers : List DexInput :=
  [.dex sampleDexEnv (.configureMarket ⟨1⟩ 1 "USDC" ⟨1, 100, 100, 100, 1000, 1000, 5000⟩ 0),
    .dex sampleDexEnv (.updateOracleReference ⟨1⟩ 1 "USDC" 7 10 1 1),
    .dex sampleDexEnv (.listBondTokens ⟨2⟩ 1 2 7 "USDC" 10 0),
    .dex sampleDexEnv (.listBondTokens ⟨2⟩ 1 3 7 "USDC" 10 1),
    .dex sampleDexEnv (.depositQuote ⟨3⟩ "USDC" 7 0), .dex sampleDexEnv (.executePurchase ⟨3⟩ 2 7 1 1)]

/-- Four units are left on offer, and covered. -/
theorem listings_covered_iff_sample :
    (dexRun sampleMarket ⟨1⟩ sampleOffers).dex.listings.liveTotal 1 ⟨2⟩ = 4 ∧
      (dexRun sampleMarket ⟨1⟩ sampleOffers).Covers 1 ⟨2⟩ := by
  refine ⟨by decide, (listings_covered_iff ⟨10, 100⟩ ⟨0⟩ ⟨1⟩ ⟨1⟩ sampleSubscription sampleOffers 1 ⟨2⟩
    fun e he => ?_).mpr (fun e he => ?_) _ List.prefix_rfl⟩
  all_goals
    simp only [dexHistory, sampleOffers, Machine.history, List.mem_cons, List.not_mem_nil,
      or_false] at he
    rcases he with rfl | rfl | rfl | rfl | rfl | rfl
  iterate 6 exact trivial
  all_goals
    intro amount hamount
    cases hamount <;> decide

/-- The investor lists the same five units twice. -/
def sampleDoubleListing : List DexInput :=
  [.dex sampleDexEnv (.listBondTokens ⟨2⟩ 1 5 7 "USDC" 10 0),
    .dex sampleDexEnv (.listBondTokens ⟨2⟩ 1 5 7 "USDC" 10 1)]

/-- Ten units are on offer, of five held. -/
theorem double_listing_uncovered :
    (dexRun sampleMarket ⟨1⟩ sampleDoubleListing).dex.listings.liveTotal 1 ⟨2⟩ = 10 ∧
      (dexRun sampleMarket ⟨1⟩ sampleDoubleListing).base.issuer.getHolderBalance 1 ⟨2⟩ = 5 := by
  decide

end VerdantBond
