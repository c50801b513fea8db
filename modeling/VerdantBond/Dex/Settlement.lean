import VerdantBond.Dex.Coverage

set_option autoImplicit false

/-! # DEXRouter: settlement is exact and isolated

A purchase, direct or revealed, moves the bond units in the issuer and the quote in the router, and
takes from one order and one escrow. `Settles` says all it does. Summed over the fills of an order:
what was bought of it and what is left of it are what was listed.
-/

namespace VerdantBond

open Function

/-! ## One purchase -/

theorem QuoteBook.credit_balance (q : QuoteBook) (asset : Symbol) (addr : Address) (v : Int)
    (asset' : Symbol) (a : Address) :
    (q.credit asset addr v).balance asset' a
      = q.balance asset' a + if asset = asset' ∧ addr = a then v else 0 := by
  show update q.balance asset (update (q.balance asset) addr (q.balance asset addr + v)) asset' a = _
  by_cases hasset : asset = asset'
  · subst hasset
    rw [update_self, update_add_apply]
    simp only [true_and]
  · rw [update_of_ne (Ne.symm hasset), if_neg (fun h => hasset h.1), add_zero]

/-- A purchase: who buys what, and the commit it reveals, if any. -/
structure Purchase where
  buyer : Address
  orderId : Nat
  maxPrice : Int
  amount : Int
  commitId : Option Nat
  deriving DecidableEq, Repr

/-- The purchase a call makes, if any. -/
def DexCall.purchase : DexCall → Option Purchase
  | .executePurchase buyer orderId maxPrice amount _ => some ⟨buyer, orderId, maxPrice, amount, none⟩
  | .revealPurchase buyer commitId orderId maxPrice amount _ _ =>
      some ⟨buyer, orderId, maxPrice, amount, some commitId⟩
  | _ => none

variable {call : DexCall} {env : DexEnv} {clock : Clock} {buyer : Address} {orderId id : Nat}
  {maxPrice amount : Int} {order : Order} {q q' : QuoteBook} {b b' : Listings}
  {issuer issuer' : BondIssuer} {w : DexWorld} {reply : DexReply} {p : Purchase} {e : DexEvent}

theorem DexCall.purchase_of_administers (h : call.administers = true) : call.purchase = none := by
  cases call with
  | setAdmin | configureMarket | updateOracleReference => rfl
  | _ => cases h

/-- The bond a purchase gets back with the commit it reveals. -/
def Purchase.refund (p : Purchase) : Int := if p.commitId.isSome = true then purchaseCommitBond else 0

/-- **What a purchase does**, and that it does nothing else. -/
structure Settles (p : Purchase) (order : Order) (w w' : DexWorld) : Prop where
  found : w.dex.order p.orderId = some order
  stranger : p.buyer ≠ order.seller
  price_le : order.pricePerToken ≤ p.maxPrice
  /-- The units move from the seller to the buyer; no other balance of any bond changes. -/
  bonds : ∀ id holder, w'.base.issuer.getHolderBalance id holder
    = w.base.issuer.getHolderBalance id holder
      - (if order.bondId = id ∧ order.seller = holder then p.amount else 0)
      + (if order.bondId = id ∧ p.buyer = holder then p.amount else 0)
  /-- The price moves from the buyer to the seller, and a revealed bond returns to the buyer; no
  other balance of any asset changes. -/
  quotes : ∀ asset holder, w'.dex.balance asset holder = w.dex.balance asset holder
    + (if order.quoteAsset = asset ∧ p.buyer = holder then
        p.refund - p.amount * order.pricePerToken else 0)
    + (if order.quoteAsset = asset ∧ order.seller = holder then p.amount * order.pricePerToken
        else 0)
  /-- The order shrinks by the amount; no other order changes. -/
  orders : w'.dex.order = update w.dex.order p.orderId
    (some (DEXRouter.fillOrder order (order.amount - p.amount)))
  /-- The seller's escrow shrinks by the amount; no other escrow changes. -/
  escrows : ∀ id holder, w'.dex.bondEscrow id holder = w.dex.bondEscrow id holder
    - if order.bondId = id ∧ order.seller = holder then p.amount else 0
  /-- No commit changes but the one that is revealed, which is the buyer's own. -/
  commits : ∀ id, some id ≠ p.commitId → w'.dex.purchaseCommit id = w.dex.purchaseCommit id
  revealed : ∀ id, some id = p.commitId → ∃ c, w.dex.purchaseCommit id = some c ∧
    c.buyer = p.buyer ∧ c.quoteAsset = order.quoteAsset ∧ c.revealed = false ∧
    w'.dex.purchaseCommit id = some { c with revealed := true }
  reserve : w'.dex.penaltyBalance = w.dex.penaltyBalance

section Fill

variable (h : Fill env clock buyer orderId maxPrice amount order q b issuer q' b' issuer')

include h

/-- What a fill leaves of the orders. -/
theorem Fill.orders :
    b'.order = update b.order orderId
      (some (DEXRouter.fillOrder order (order.amount - amount))) := by
  rw [h.listings]
  rfl

/-- What a fill leaves of the escrows. -/
theorem Fill.escrow (id : Nat) (holder : Address) :
    b'.escrow id holder = b.escrow id holder
      - if order.bondId = id ∧ order.seller = holder then amount else 0 := by
  rw [h.listings]
  exact Listings.escrow_write_sub (DEXRouter.fillOrder order (order.amount - amount)) orderId amount
    id holder

/-- What a fill leaves of the quote balances. -/
theorem Fill.balance (asset : Symbol) (holder : Address) :
    q'.balance asset holder = q.balance asset holder
      + (if order.quoteAsset = asset ∧ buyer = holder then -(amount * order.pricePerToken) else 0)
      + (if order.quoteAsset = asset ∧ order.seller = holder then amount * order.pricePerToken
          else 0) := by
  rw [h.quotes, QuoteBook.pay, QuoteBook.credit_balance, QuoteBook.credit_balance]

end Fill

/-- **Every successful purchase settles.** -/
theorem DexMove.settles {dex : DEXRouter}
    (h : DexMove env w.base.clock w.dex.quotes w.dex.listings w.base.issuer call reply dex.quotes
      dex.listings issuer) (hp : call.purchase = some p) :
    ∃ order, Settles p order w ⟨{ w.base with issuer := issuer }, dex⟩ := by
  -- the books of the router are its fields
  have hbalance : dex.balance = dex.quotes.balance := rfl
  have hcommit : dex.purchaseCommit = dex.quotes.commit := rfl
  have hpenalty : dex.penaltyBalance = dex.quotes.penalty := rfl
  have horder : dex.order = dex.listings.order := rfl
  have hescrow : dex.bondEscrow = dex.listings.escrow := rfl
  generalize dex.quotes = q' at h hbalance hcommit hpenalty
  generalize dex.listings = b' at h horder hescrow
  cases h with
  | administer hadministers =>
      rw [DexCall.purchase_of_administers hadministers] at hp
      cases hp
  | deposit | withdraw | commit | forfeit | list | cancel | sweep => cases hp
  | @execute buyer orderId maxPrice amount nonce order _ _ _ hfill =>
      cases hp
      refine ⟨order, hfill.found, hfill.stranger, hfill.price_le,
        BondIssuer.transfer_balance hfill.transferred, fun asset holder => ?_, ?_, fun id holder => ?_,
        fun id _ => ?_, fun id hid => ?_, ?_⟩
      · have hrefund : (0 : Int) - amount * order.pricePerToken = -(amount * order.pricePerToken) :=
          zero_sub _
        show dex.balance asset holder = _ + (if _ then (0 : Int) - _ else 0) + _
        rw [hbalance, hrefund]
        exact hfill.balance asset holder
      · exact horder.trans hfill.orders
      · show dex.bondEscrow id holder = _
        rw [hescrow]
        exact hfill.escrow id holder
      · show dex.purchaseCommit id = _
        rw [hcommit, hfill.quotes]
        rfl
      · cases hid
      · show dex.penaltyBalance = _
        rw [hpenalty, hfill.quotes]
        rfl
  | @reveal commitId orderId maxPrice amount salt nonce c order _ _ _ hfound hsealed _ _ hasset hfill =>
      cases hp
      refine ⟨order, hfill.found, hfill.stranger, hfill.price_le,
        BondIssuer.transfer_balance hfill.transferred, fun asset holder => ?_, ?_, fun id holder => ?_,
        fun id hid => ?_, fun id hid => ?_, ?_⟩
      · show dex.balance asset holder = _ + (if _ then purchaseCommitBond - _ else 0) + _
        rw [hbalance, hfill.balance asset holder, QuoteBook.refund, QuoteBook.credit_balance, hasset]
        show w.dex.balance asset holder + _ + _ + _ = _
        split
        · ring
        · ring
      · exact horder.trans hfill.orders
      · show dex.bondEscrow id holder = _
        rw [hescrow]
        exact hfill.escrow id holder
      · show dex.purchaseCommit id = _
        have hne : id ≠ commitId := fun heq => hid (congrArg some heq)
        rw [hcommit, hfill.quotes]
        exact update_of_ne hne ..
      · obtain rfl := Option.some.inj hid
        refine ⟨c, hfound, rfl, hasset.symm, hsealed, ?_⟩
        show dex.purchaseCommit id = _
        rw [hcommit, hfill.quotes]
        exact update_self ..
      · show dex.penaltyBalance = _
        rw [hpenalty, hfill.quotes]
        rfl

/-! ## The fills of an order -/

/-- What an event buys of an order. -/
def boughtIn (id : Nat) (e : DexEvent) : Int :=
  match e.input, e.output with
  | .dex _ call, some _ =>
      match call.purchase with
      | some p => if p.orderId = id then p.amount else 0
      | none => 0
  | _, _ => 0

/-- What was bought of an order. -/
def filled (id : Nat) (es : List DexEvent) : Int := (es.map (boughtIn id)).sum

/-- The amount an event lists under an id, if any. -/
def openedIn (id : Nat) (e : DexEvent) : Option Int :=
  match e.input, e.output with
  | .dex _ (.listBondTokens _ _ amount _ _ _ _), some (.number n) => if n = id then some amount else none
  | _, _ => none

theorem openedIn_failed (id : Nat) (env : DexEnv) (call : DexCall) (w w' : DexWorld) :
    openedIn id ⟨w, .dex env call, none, w'⟩ = none := by
  cases call <;> rfl

/-- What an event makes of the amount under an id. -/
inductive OrderStep (b b' : Listings) (e : DexEvent) (id : Nat) : Prop where
  | listed {o : Order} (h : openedIn id e = some o.amount) (new : b.order id = none)
      (order : b'.order id = some o) (unsold : boughtIn id e = 0)
  | kept {o o' : Order} (h : openedIn id e = none) (found : b.order id = some o)
      (order : b'.order id = some o') (left : o'.amount = o.amount - boughtIn id e)
  | absent (h : openedIn id e = none) (missing : b.order id = none) (order : b'.order id = none)
      (unsold : boughtIn id e = 0)

/-- Nothing is listed or bought, and the amounts of the orders stay. -/
theorem OrderStep.of_quiet (hlisted : openedIn id e = none) (hbought : boughtIn id e = 0)
    (horder : (b'.order id).map Order.amount = (b.order id).map Order.amount) :
    OrderStep b b' e id := by
  cases hb : b.order id with
  | none =>
      rw [hb, Option.map_none, Option.map_eq_none_iff] at horder
      exact .absent hlisted hb horder hbought
  | some o =>
      rw [hb, Option.map_some, Option.map_eq_some_iff] at horder
      obtain ⟨o', ho', hamount⟩ := horder
      exact .kept hlisted hb ho' (by rw [hamount, hbought, sub_zero])

/-- A fill. -/
theorem Fill.orderStep
    (h : Fill env clock buyer orderId maxPrice amount order q b issuer q' b' issuer')
    (hlisted : openedIn id e = none) (hbought : boughtIn id e = if orderId = id then amount else 0) :
    OrderStep b b' e id := by
  by_cases hid : orderId = id
  · subst hid
    rw [if_pos rfl] at hbought
    have hleft : b'.order orderId
        = some (DEXRouter.fillOrder order (order.amount - amount)) := by
      rw [h.listings]
      exact update_self ..
    refine .kept hlisted h.found hleft ?_
    rw [hbought]
    rfl
  · rw [if_neg hid] at hbought
    refine .of_quiet hlisted hbought ?_
    rw [h.listings]
    show (update b.order orderId _ id).map _ = _
    rw [update_of_ne (Ne.symm hid)]

theorem Order.swept_amount (clock : Clock) (o : Order) : (o.swept clock).amount = o.amount := by
  unfold Order.swept
  split <;> rfl

theorem DexMove.orderStep (hb : b.Sound) (h : DexMove env clock q b issuer call reply q' b' issuer')
    (w w' : DexWorld) (id : Nat) : OrderStep b b' ⟨w, .dex env call, some reply, w'⟩ id := by
  cases h with
  | administer hadministers =>
      cases call with
      | setAdmin | configureMarket | updateOracleReference => exact .of_quiet rfl rfl rfl
      | _ => cases hadministers
  | deposit | withdraw | commit | forfeit => exact .of_quiet rfl rfl rfl
  | reveal _ _ _ _ _ hfill | execute hfill => exact hfill.orderStep rfl rfl
  | @list seller bondId amount pricePerToken asset expiresAfterSeconds nonce =>
      by_cases hid : b.orderCount + 1 = id
      · subst hid
        have hnew : b.order (b.orderCount + 1) = none := by
          cases ho : b.order (b.orderCount + 1) with
          | none => rfl
          | some o =>
              have := (hb.numbered _ o ho).2
              omega
        refine .listed ?_ hnew (update_self ..) rfl
        exact if_pos rfl
      · refine .of_quiet (if_neg hid) rfl ?_
        show (update b.order (b.orderCount + 1) _ id).map _ = _
        rw [update_of_ne (Ne.symm hid)]
  | @cancel orderId nonce order hfound _ =>
      refine .of_quiet rfl rfl ?_
      show (update b.order orderId _ id).map _ = _
      by_cases hid : id = orderId
      · subst hid
        rw [update_self, hfound]
        rfl
      · rw [update_of_ne hid]
  | sweep =>
      refine .of_quiet rfl rfl ?_
      rw [Listings.sweep_order]
      split
      · rw [Option.map_map]
        congr 1
        funext o
        exact o.swept_amount clock
      · rfl

theorem DexWorld.orderStep (hw : w.dex.listings.Sound) (i : DexInput) (id : Nat) :
    OrderStep w.dex.listings (w.step i).1.dex.listings (dexMachine.event w i) id := by
  show OrderStep _ _ ⟨w, i, (w.step i).2, (w.step i).1⟩ id
  have hcases := w.step_cases i
  generalize (w.step i).1 = w' at hcases
  generalize (w.step i).2 = reply at hcases
  cases hcases with
  | outside h =>
      subst h
      exact .of_quiet rfl rfl rfl
  | failed h =>
      subst h
      exact .of_quiet (openedIn_failed ..) rfl rfl
  | moved h hmove =>
      subst h
      exact hmove.orderStep hw _ _ id

theorem filled_snoc (id : Nat) (es : List DexEvent) (e : DexEvent) :
    filled id (es ++ [e]) = filled id es + boughtIn id e := by
  unfold filled
  rw [List.map_append, List.sum_append, List.map_singleton, List.sum_singleton]

/-- **The books of the orders.** Every order was listed once, and what was bought of it is what was
listed less what is left. -/
structure OrderBooks (es : List DexEvent) (b : Listings) : Prop where
  listed : ∀ id o, b.order id = some o → ∃ e ∈ es, ∃ amount, openedIn id e = some amount
  drawn : ∀ e ∈ es, ∀ id amount, openedIn id e = some amount →
    ∃ o, b.order id = some o ∧ filled id es + o.amount = amount
  unlisted : ∀ id, b.order id = none → filled id es = 0

theorem OrderBooks.snoc {es : List DexEvent} (h : OrderBooks es b)
    (hstep : ∀ id, OrderStep b b' e id) : OrderBooks (es ++ [e]) b' := by
  refine ⟨fun id o ho => ?_, fun x hx id amount hlisted => ?_, fun id hnone => ?_⟩
  · cases hstep id with
    | listed hlisted _ _ _ => exact ⟨e, List.mem_append_right _ (List.mem_singleton.mpr rfl), _, hlisted⟩
    | kept _ hfound _ _ =>
        obtain ⟨x, hx, amount, hamount⟩ := h.listed id _ hfound
        exact ⟨x, List.mem_append_left _ hx, amount, hamount⟩
    | absent _ _ horder _ =>
        rw [horder] at ho
        cases ho
  · rw [filled_snoc]
    rcases List.mem_append.mp hx with hx | hx
    · -- listed before: the order is still there, with what this event left of it
      obtain ⟨o, ho, hdrawn⟩ := h.drawn x hx id amount hlisted
      cases hstep id with
      | listed _ hnew _ _ =>
          rw [hnew] at ho
          cases ho
      | kept _ hfound horder hleft =>
          obtain rfl := Option.some.inj (ho.symm.trans hfound)
          refine ⟨_, horder, ?_⟩
          rw [hleft]
          omega
      | absent _ hmissing _ _ =>
          rw [hmissing] at ho
          cases ho
    · obtain rfl := List.mem_singleton.mp hx
      cases hstep id with
      | listed hthis hnew horder hunsold =>
          obtain rfl := Option.some.inj (hthis.symm.trans hlisted)
          refine ⟨_, horder, ?_⟩
          rw [h.unlisted id hnew, hunsold]
          omega
      | kept hnot _ _ _ | absent hnot _ _ _ =>
          rw [hnot] at hlisted
          cases hlisted
  · rw [filled_snoc]
    cases hstep id with
    | listed _ _ horder _ | kept _ _ horder _ =>
        rw [horder] at hnone
        cases hnone
    | absent _ hmissing _ hunsold => rw [h.unlisted id hmissing, hunsold, add_zero]

theorem dexRun_orderBooks (base : IssuerWorld) (admin : Address) (l : List DexInput) :
    OrderBooks (dexHistory base admin l) (dexRun base admin l).dex.listings := by
  refine dexHistory_induct base admin (P := fun es w => OrderBooks es w.dex.listings) ?_
    (fun l i h => ?_) l
  · refine ⟨fun id o ho => ?_, fun e he => ?_, fun _ _ => rfl⟩
    · cases ho
    · cases he
  · exact h.snoc (DexWorld.orderStep (dexRun_listings_sound base admin l) i)

/-! ## Runs -/

/-- A purchase that succeeds settles, and one that fails changes nothing. -/
theorem DexWorld.step_purchase (w : DexWorld) (env : DexEnv) (hp : call.purchase = some p) :
    ((w.step (.dex env call)).2.isSome = true →
        ∃ order, Settles p order w (w.step (.dex env call)).1) ∧
      ((w.step (.dex env call)).2.isSome = false → (w.step (.dex env call)).1 = w) := by
  have hcases := w.step_cases (.dex env call)
  generalize (w.step (.dex env call)).1 = w' at hcases
  generalize (w.step (.dex env call)).2 = reply at hcases
  cases hcases with
  | outside h => cases h
  | failed h =>
      refine ⟨fun hout => ?_, fun _ => rfl⟩
      cases hout
  | moved h hmove =>
      cases h
      refine ⟨fun _ => hmove.settles hp, fun hout => ?_⟩
      cases hout

/-- What settlement promises of a run: a purchase that succeeds settles, one that fails changes
nothing, and the fills of an order and what is left of it are what was listed. -/
structure PurchasesExact (es : List DexEvent) (w : DexWorld) : Prop where
  settles : ∀ e ∈ es, ∀ env call p, e.input = .dex env call → call.purchase = some p →
    e.output.isSome = true → ∃ order, Settles p order e.pre e.post
  fails : ∀ e ∈ es, ∀ env call p, e.input = .dex env call → call.purchase = some p →
    e.output.isSome = false → e.post = e.pre
  listed : ∀ id o, w.dex.order id = some o → ∃ e ∈ es, ∃ amount, openedIn id e = some amount
  drawn : ∀ e ∈ es, ∀ id amount, openedIn id e = some amount →
    ∃ o, w.dex.order id = some o ∧ filled id es + o.amount = amount

/-- **Settlement is exact and isolated**, in every run. -/
theorem purchases_settle_exactly (base : IssuerWorld) (admin : Address) (l : List DexInput) :
    PurchasesExact (dexHistory base admin l) (dexRun base admin l) := by
  have hbooks := dexRun_orderBooks base admin l
  refine ⟨fun e he env call p hinput hp => ?_, fun e he env call p hinput hp => ?_, hbooks.listed,
    hbooks.drawn⟩
  · obtain ⟨l₁, i, l₂, -, rfl⟩ := exists_of_mem_dexHistory base admin he
    obtain rfl : i = .dex env call := hinput
    exact ((dexRun base admin l₁).step_purchase env hp).1
  · obtain ⟨l₁, i, l₂, -, rfl⟩ := exists_of_mem_dexHistory base admin he
    obtain rfl : i = .dex env call := hinput
    exact ((dexRun base admin l₁).step_purchase env hp).2

end VerdantBond
