import VerdantBond.Dex.Calls

set_option autoImplicit false

/-! # DEXRouter: what a call does

The router keeps two books. The quote book has the balances, the penalty reserve and the purchase
commits; the listings have the orders and the escrow. `DexMove` says once what a successful call
does to both and to the issuer, with the checks it passed (`exec_move`); every invariant is derived
from it.
-/

namespace VerdantBond

open Function

/-! ## The books -/

structure QuoteBook where
  balance : Symbol → Address → Int
  penalty : Symbol → Int
  commit : Nat → Option PurchaseCommit
  commitCount : Nat

structure Listings where
  order : Nat → Option Order
  orderCount : Nat
  escrow : Nat → Address → Int

def DEXRouter.quotes (s : DEXRouter) : QuoteBook :=
  ⟨s.balance, s.penaltyBalance, s.purchaseCommit, s.purchaseCommitCount⟩

def DEXRouter.listings (s : DEXRouter) : Listings := ⟨s.order, s.orderCount, s.bondEscrow⟩

namespace QuoteBook

/-- Add to a balance. -/
def credit (q : QuoteBook) (asset : Symbol) (addr : Address) (amount : Int) : QuoteBook :=
  { q with
    balance := update q.balance asset
      (update (q.balance asset) addr (q.balance asset addr + amount)) }

/-- Move an amount between two balances. -/
def pay (q : QuoteBook) (asset : Symbol) (buyer seller : Address) (amount : Int) : QuoteBook :=
  (q.credit asset buyer (-amount)).credit asset seller amount

/-- Lock the bond of a new commit. -/
def lock (q : QuoteBook) (c : PurchaseCommit) : QuoteBook :=
  { q.credit c.quoteAsset c.buyer (-purchaseCommitBond) with
    commit := update q.commit (q.commitCount + 1) (some c)
    commitCount := q.commitCount + 1 }

/-- Close a commit. -/
def close (q : QuoteBook) (commitId : Nat) (c : PurchaseCommit) : QuoteBook :=
  { q with commit := update q.commit commitId (some { c with revealed := true }) }

/-- Close a commit and give its bond back. -/
def refund (q : QuoteBook) (commitId : Nat) (c : PurchaseCommit) : QuoteBook :=
  (q.close commitId c).credit c.quoteAsset c.buyer purchaseCommitBond

/-- Close a commit and keep its bond. -/
def forfeit (q : QuoteBook) (commitId : Nat) (c : PurchaseCommit) : QuoteBook :=
  { q.close commitId c with
    penalty := update q.penalty c.quoteAsset (q.penalty c.quoteAsset + purchaseCommitBond) }

end QuoteBook

namespace Listings

/-- Write an order and the escrow of its seller. -/
def write (b : Listings) (orderId : Nat) (order : Order) (escrow : Int) : Listings :=
  { b with
    order := update b.order orderId (some order)
    escrow := update b.escrow order.bondId
      (update (b.escrow order.bondId) order.seller escrow) }

/-- A new order. -/
def list (b : Listings) (order : Order) : Listings :=
  { b.write (b.orderCount + 1) order (b.escrow order.bondId order.seller + order.amount) with
    orderCount := b.orderCount + 1 }

/-- Part of an order is bought. -/
def fill (b : Listings) (orderId : Nat) (order : Order) (amount : Int) : Listings :=
  b.write orderId (DEXRouter.fillOrder order (order.amount - amount))
    (b.escrow order.bondId order.seller - amount)

/-- An order is withdrawn. The subtraction falls back to zero where it would overflow. -/
def cancel (b : Listings) (orderId : Nat) (order : Order) : Listings :=
  b.write orderId { order with status := .cancelled }
    ((i128 (b.escrow order.bondId order.seller - order.amount)).getD 0)

/-- Orders past their time are marked; the escrow is left alone. -/
def sweep (clock : Clock) (b : Listings) (ids : List Nat) : Listings :=
  { b with order := (ids.foldl (DEXRouter.sweepOrder clock) (b.order, 0)).1 }

end Listings

/-! ## Purchases -/

/-- A purchase that settled: the checks it passed and what it left. -/
structure Fill (env : DexEnv) (clock : Clock) (buyer : Address) (orderId : Nat)
    (maxPrice amount : Int) (order : Order) (q : QuoteBook) (b : Listings) (issuer : BondIssuer)
    (q' : QuoteBook) (b' : Listings) (issuer' : BondIssuer) : Prop where
  found : b.order orderId = some order
  live : order.status.Live
  stranger : buyer ≠ order.seller
  unexpired : clock.timestamp < order.expiresAt
  positive : 0 < amount
  available : amount ≤ order.amount
  price_le : order.pricePerToken ≤ maxPrice
  escrowed : amount ≤ b.escrow order.bondId order.seller
  funded : amount * order.pricePerToken ≤ q.balance order.quoteAsset buyer
  quotes : q' = q.pay order.quoteAsset buyer order.seller (amount * order.pricePerToken)
  listings : b' = b.fill orderId order amount
  transferred : issuer.transfer env.toEnv clock order.seller buyer order.bondId amount
    (issuer.nonce order.seller) = .ok issuer'

namespace DEXRouter

variable {clock : Clock} {s s' : DEXRouter}

theorem recordMarketTrade_ok {bond : Nat} {asset : Symbol} {price proceeds : Int}
    (h : s.recordMarketTrade clock bond asset price proceeds = .ok s') :
    ∃ ledgers, s' = { s with marketLedger := ledgers } := by
  simp only [recordMarketTrade, bind_ok_iff, okOr_ok_iff, reject_ok_iff, i128_eq_some, pure_ok_iff,
    exists_unit_iff] at h
  obtain ⟨_, -, _, -, -, -, _, -, -, _, -, -, _, -, -, rfl⟩ := h
  exact ⟨_, rfl⟩

/-- **What a settled purchase did.** -/
theorem settlePurchase_ok {env : DexEnv} {issuer issuer' : BondIssuer} {buyer : Address}
    {orderId : Nat} {maxPrice amount : Int} {nonce : Nat}
    (h : s.settlePurchase env clock issuer buyer orderId maxPrice amount nonce
      = .ok (s', issuer')) :
    ∃ order, Fill env clock buyer orderId maxPrice amount order s.quotes s.listings issuer
      s'.quotes s'.listings issuer' := by
  obtain ⟨order, s₁, hpurchase, hmarket, rfl⟩ := settlePurchase_inv h
  obtain ⟨ledgers, rfl⟩ := recordMarketTrade_ok hmarket
  refine ⟨order, hpurchase.found, hpurchase.live, hpurchase.stranger, hpurchase.unexpired,
    hpurchase.positive, hpurchase.available, hpurchase.price_le, hpurchase.escrowed,
    hpurchase.funded, ?_, ?_, hpurchase.transferred⟩
  · -- the seller's balance was read before the buyer's was written
    have hseller : update (s.balance order.quoteAsset) buyer
        (s.balance order.quoteAsset buyer + -(amount * order.pricePerToken)) order.seller
        = s.balance order.quoteAsset order.seller := update_of_ne (Ne.symm hpurchase.stranger) ..
    simp only [QuoteBook.pay, QuoteBook.credit, quotes, settled, recordPriceObservation, setOrder,
      setBondEscrow, setBalance, setNonce, update_self, update_idem, hseller, sub_eq_add_neg]
  · simp only [Listings.fill, Listings.write, listings, settled, fillOrder, recordPriceObservation,
      setOrder, setBondEscrow, setBalance, setNonce]

end DEXRouter

/-! ## Calls -/

/-- The calls that only concern the admin and the market guard. -/
def DexCall.administers : DexCall → Bool
  | .setAdmin .. | .configureMarket .. | .updateOracleReference .. => true
  | _ => false

/-- **What a successful call does** to the books and the issuer, with the checks it passed. -/
inductive DexMove (env : DexEnv) (clock : Clock) (q : QuoteBook) (b : Listings)
    (issuer : BondIssuer) : DexCall → DexReply → QuoteBook → Listings → BondIssuer → Prop where
  | administer {call : DexCall} {reply : DexReply} (h : call.administers = true) :
      DexMove env clock q b issuer call reply q b issuer
  | deposit {caller : Address} {asset : Symbol} {amount : Int} {nonce : Nat}
      (positive : 0 < amount) :
      DexMove env clock q b issuer (.depositQuote caller asset amount nonce) .unit
        (q.credit asset caller amount) b issuer
  | withdraw {caller : Address} {asset : Symbol} {amount : Int} {nonce : Nat}
      (positive : 0 < amount) (covered : amount ≤ q.balance asset caller) :
      DexMove env clock q b issuer (.withdrawQuote caller asset amount nonce) .unit
        (q.credit asset caller (-amount)) b issuer
  | commit {buyer : Address} {commitment : Bytes32} {asset : Symbol} {nonce : Nat}
      (covered : purchaseCommitBond ≤ q.balance asset buyer)
      (numbered : q.commitCount + 1 ≤ u64Max) :
      DexMove env clock q b issuer (.commitPurchase buyer commitment asset nonce)
        (.number (q.commitCount + 1)) (q.lock ⟨buyer, commitment, asset, clock.sequence, false⟩) b
        issuer
  | forfeit {commitId : Nat} {c : PurchaseCommit} (found : q.commit commitId = some c)
      (sealed : c.revealed = false)
      (late : c.ledgerSequence + purchaseRevealWindow < clock.sequence) :
      DexMove env clock q b issuer (.forfeitPurchaseCommit commitId) .unit (q.forfeit commitId c) b
        issuer
  | reveal {commitId orderId : Nat} {maxPrice amount : Int} {salt : Bytes32} {nonce : Nat}
      {c : PurchaseCommit} {order : Order} {q' : QuoteBook} {b' : Listings} {issuer' : BondIssuer}
      (found : q.commit commitId = some c) (sealed : c.revealed = false)
      (early : c.ledgerSequence + purchaseRevealDelay ≤ clock.sequence)
      (due : clock.sequence ≤ c.ledgerSequence + purchaseRevealWindow)
      (asset : order.quoteAsset = c.quoteAsset)
      (fill : Fill env clock c.buyer orderId maxPrice amount order (q.refund commitId c) b issuer q'
        b' issuer') :
      DexMove env clock q b issuer
        (.revealPurchase c.buyer commitId orderId maxPrice amount salt nonce) .unit q' b' issuer'
  | execute {buyer : Address} {orderId : Nat} {maxPrice amount : Int} {nonce : Nat} {order : Order}
      {q' : QuoteBook} {b' : Listings} {issuer' : BondIssuer}
      (fill : Fill env clock buyer orderId maxPrice amount order q b issuer q' b' issuer') :
      DexMove env clock q b issuer (.executePurchase buyer orderId maxPrice amount nonce) .unit q' b'
        issuer'
  | list {seller : Address} {bondId : Nat} {amount pricePerToken : Int} {asset : Symbol}
      {expiresAfterSeconds nonce : Nat} (positive : 0 < amount) (priced : 0 < pricePerToken)
      (held : amount ≤ issuer.getHolderBalance bondId seller)
      (fits : InI128 (b.escrow bondId seller + amount)) :
      DexMove env clock q b issuer
        (.listBondTokens seller bondId amount pricePerToken asset expiresAfterSeconds nonce)
        (.number (b.orderCount + 1)) q
        (b.list ⟨b.orderCount + 1, seller, bondId, amount, pricePerToken, asset, .open,
          clock.timestamp, clock.timestamp + expiresAfterSeconds⟩) issuer
  | cancel {orderId nonce : Nat} {order : Order} (found : b.order orderId = some order)
      (live : order.status.Live) :
      DexMove env clock q b issuer (.cancelListing order.seller orderId nonce) .unit q
        (b.cancel orderId order) issuer
  | sweep {caller : Address} {startId limit nonce : Nat} {result : CleanExpiredResult} :
      DexMove env clock q b issuer (.cleanExpiredOrders caller startId limit nonce)
        (.cleaned result) q (b.sweep clock (scannedIds startId limit b.orderCount)) issuer

namespace DEXRouter

/-- **Every successful call is a move.** -/
theorem exec_move {env : DexEnv} {clock : Clock} {issuer issuer' : BondIssuer} {s s' : DEXRouter}
    {call : DexCall} {reply : DexReply}
    (h : s.exec env clock issuer call = .ok (s', issuer', reply)) :
    DexMove env clock s.quotes s.listings issuer call reply s'.quotes s'.listings issuer' := by
  obtain ⟨-, h⟩ := exec_ok_iff.mp h
  cases call with
  | setAdmin currentAdmin newAdmin =>
      obtain ⟨hok, rfl, rfl⟩ := ofUnit_ok h
      rw [setAdmin_ok hok]
      exact .administer rfl
  | configureMarket caller bondId quoteAsset config nonce =>
      obtain ⟨hok, rfl, rfl⟩ := ofUnit_ok h
      rw [configureMarket_ok hok]
      exact .administer rfl
  | updateOracleReference caller bondId quoteAsset twapPrice observedAt sampleVolume nonce =>
      obtain ⟨hok, rfl, rfl⟩ := ofUnit_ok h
      obtain ⟨config, pauseUntil, -, -, -, rfl⟩ := updateOracleReference_ok hok
      exact .administer rfl
  | commitPurchase buyer commitment quoteAsset nonce =>
      obtain ⟨id, hok, rfl, rfl⟩ := ofRouter_ok h
      obtain ⟨hcovered, hnumbered, rfl, rfl⟩ := commitPurchase_ok hok
      exact .commit hcovered hnumbered
  | revealPurchase buyer commitId orderId maxPrice amount salt nonce =>
      obtain ⟨hok, rfl⟩ := ofPurchase_ok h
      obtain ⟨c, order, hreveal, hsettle⟩ := revealPurchase_ok hok
      obtain rfl := hreveal.own
      obtain ⟨order', hfill⟩ := settlePurchase_ok hsettle
      have hsame : order' = order := Option.some.inj (hfill.found.symm.trans hreveal.listed)
      exact .reveal hreveal.found hreveal.sealed hreveal.early hreveal.due (hsame ▸ hreveal.asset)
        hfill
  | forfeitPurchaseCommit commitId =>
      obtain ⟨hok, rfl, rfl⟩ := ofUnit_ok h
      obtain ⟨c, hfound, hsealed, hlate, rfl⟩ := forfeitPurchaseCommit_ok hok
      exact .forfeit hfound hsealed hlate
  | listBondTokens seller bondId amount pricePerToken quoteAsset expiresAfterSeconds nonce =>
      obtain ⟨id, hok, rfl, rfl⟩ := ofRouter_ok h
      obtain ⟨hpositive, hpriced, hheld, hfits, rfl, rfl⟩ := listBondTokens_ok hok
      exact .list hpositive hpriced hheld hfits
  | cancelListing caller orderId nonce =>
      obtain ⟨hok, rfl, rfl⟩ := ofUnit_ok h
      obtain ⟨order, hfound, rfl, hlive, rfl⟩ := cancelListing_ok hok
      exact .cancel hfound hlive
  | executePurchase buyer orderId maxPrice amount nonce =>
      obtain ⟨hok, rfl⟩ := ofPurchase_ok h
      obtain ⟨order, hfill⟩ := settlePurchase_ok (executePurchase_ok hok)
      exact .execute hfill
  | depositQuote caller quoteAsset amount nonce =>
      obtain ⟨hok, rfl, rfl⟩ := ofUnit_ok h
      obtain ⟨hpositive, rfl⟩ := depositQuote_ok hok
      exact .deposit hpositive
  | withdrawQuote caller quoteAsset amount nonce =>
      obtain ⟨hok, rfl, rfl⟩ := ofUnit_ok h
      obtain ⟨hpositive, hcovered, rfl⟩ := withdrawQuote_ok hok
      exact .withdraw hpositive hcovered
  | cleanExpiredOrders caller startId limit nonce =>
      obtain ⟨result, hok, rfl, rfl⟩ := ofRouter_ok h
      rw [cleanExpiredOrders_ok hok]
      exact .sweep

end DEXRouter

/-! ## Steps -/

/-- The router's books after an input. -/
inductive DexStep (w : DexWorld) (i : DexInput) : DexWorld → Option DexReply → Prop where
  /-- Something happened to the issuer or the ledger. -/
  | outside {input : IssuerInput} (h : i = .issuer input) :
      DexStep w i { w with base := (w.base.step input).1 } none
  | failed {env : DexEnv} {call : DexCall} (h : i = .dex env call) : DexStep w i w none
  | moved {env : DexEnv} {call : DexCall} {reply : DexReply} {dex : DEXRouter} {issuer : BondIssuer}
      (h : i = .dex env call)
      (move : DexMove env w.base.clock w.dex.quotes w.dex.listings w.base.issuer call reply dex.quotes
        dex.listings issuer) :
      DexStep w i ⟨{ w.base with issuer := issuer }, dex⟩ (some reply)

theorem DexWorld.step_cases (w : DexWorld) (i : DexInput) :
    DexStep w i (w.step i).1 (w.step i).2 := by
  cases i with
  | issuer input => exact .outside rfl
  | dex env call =>
      rcases w.step_dex env call with hstep | ⟨dex, issuer, reply, hexec, hstep⟩
      · rw [hstep]
        exact .failed rfl
      · rw [hstep]
        exact .moved rfl (DEXRouter.exec_move hexec)

end VerdantBond
