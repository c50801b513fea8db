import VerdantBond.Dex.Escrow

set_option autoImplicit false

/-! # DEXRouter: a full pass of the expiry sweep

`clean_expired_orders` scans a window of order ids and answers where to go on, zero at the end of the
book. `SweepPass` is a sequence of calls that goes on where the one before stopped. While the ids stay
below the largest `u64`, the windows tile the book from the first id on (`SweepPass.tiles`): each call
starts after the last id of the one before, so a pass takes at most one call per order, every order
is scanned once, and the counts add up. A book whose last id is `u64::MAX` has no last window: the
end of a window is computed as `start + batch - 1` with a saturating addition, which never gets
there (`SweepPass.endless`).
-/

namespace VerdantBond

open Function DEXRouter List

/-! ## One call -/

/-- A call of the sweep, apart from where it starts. -/
structure SweepCall where
  env : DexEnv
  clock : Clock
  caller : Address
  limit : Nat
  nonce : Nat

def SweepCall.run (c : SweepCall) (s : DEXRouter) (startId : Nat) :
    Outcome DEXError (DEXRouter × CleanExpiredResult) :=
  s.cleanExpiredOrders c.env c.clock c.caller startId c.limit c.nonce

/-- How many of the orders `a..=b` have another status in `f'` than in `f`. -/
def changedStatuses (f f' : Nat → Option Order) (a b : Nat) : Nat :=
  (List.range' a (b + 1 - a)).countP fun id => (f' id).map Order.status ≠ (f id).map Order.status

variable {clock : Clock} {c : SweepCall} {s s' : DEXRouter} {r : CleanExpiredResult}
  {start next total : Nat} {f f' : Nat → Option Order} {calls : List SweepCall}

/-- A sweep changes the status of the orders it is for. -/
theorem Order.swept_status_ne {o : Order} :
    (o.swept clock).status ≠ o.status ↔ o.status.Live ∧ o.IsExpired clock := by
  by_cases h : o.status.Live ∧ o.IsExpired clock
  · rw [Order.swept, if_pos h]
    refine iff_of_true (fun heq => ?_) h
    have hlive := h.1
    rw [← heq] at hlive
    exact absurd hlive (show ¬ OrderStatus.expired.Live by decide)
  · rw [Order.swept, if_neg h]
    exact iff_of_false (not_not.mpr rfl) h

/-- The loop counts the orders it marks. -/
theorem foldl_sweepOrder_count {ids : List Nat} (hnodup : ids.Nodup) :
    ∀ (f : Nat → Option Order) (k : Nat), (ids.foldl (sweepOrder clock) (f, k)).2 =
      k + ids.countP fun id =>
        ((f id).map (Order.swept clock)).map Order.status ≠ (f id).map Order.status := by
  induction ids with
  | nil => simp
  | cons i ids ih =>
      intro f k
      rw [nodup_cons] at hnodup
      have hother : ∀ id ∈ ids, (sweepOrder clock (f, k) i).1 id = f id := by
        intro id hid
        rw [sweepOrder_apply, if_neg (ne_of_mem_of_not_mem hid hnodup.1)]
      have hcount : (sweepOrder clock (f, k) i).2 = k + if
          ((f i).map (Order.swept clock)).map Order.status ≠ (f i).map Order.status then 1 else 0 := by
        unfold sweepOrder
        cases hi : f i with
        | none => simp [hi]
        | some o =>
            simp only [hi, Option.map_some, ne_eq, Option.some.injEq]
            simp only [← ne_eq, Order.swept_status_ne]
            split <;> rfl
      rw [foldl_cons, ← Prod.mk.eta (p := sweepOrder clock (f, k) i), ih hnodup.2,
        hcount, countP_cons, countP_congr (fun id hid => by rw [hother id hid]), add_assoc,
        add_comm (countP _ _)]
      simp

/-- What a call that scans `start..=stop` did. -/
structure Scanned (clock : Clock) (s s' : DEXRouter) (start stop : Nat) (cleaned : Nat) : Prop where
  orderCount : s'.orderCount = s.orderCount
  order : ∀ id, s'.order id =
    if start ≤ id ∧ id ≤ stop then (s.order id).map (Order.swept clock) else s.order id
  cleaned : cleaned = changedStatuses s.order s'.order start stop

theorem SweepCall.run_ok {startId : Nat} (h : c.run s startId = .ok (s', r)) :
    c.limit ≠ 0 ∧
      (s.orderCount = 0 ∨ s.orderCount < sweepStart startId → s'.orderCount = s.orderCount ∧
        s'.order = s.order ∧ r = ⟨0, 0⟩) ∧
      (¬ (s.orderCount = 0 ∨ s.orderCount < sweepStart startId) →
        let stop := sweepEnd (sweepStart startId) c.limit s.orderCount
        Scanned c.clock s s' (sweepStart startId) stop r.cleaned ∧
          r.nextStartId = if s.orderCount ≤ stop then 0 else stop + 1) := by
  simp only [run, cleanExpiredOrders, bind_ok_iff, requireAuth_ok_iff, reject_ok_iff,
    exists_unit_iff] at h
  obtain ⟨-, s₁, hnonce, -, hlimit, h⟩ := h
  obtain ⟨-, rfl⟩ := consumeNonce_ok hnonce
  refine ⟨hlimit, fun hnone => ?_, fun hsome => ?_⟩
  · rw [if_pos hnone, pure_ok_iff, Prod.mk.injEq] at h
    obtain ⟨rfl, rfl⟩ := h
    exact ⟨rfl, rfl, rfl⟩
  · rw [if_neg hsome, pure_ok_iff, Prod.mk.injEq] at h
    obtain ⟨rfl, rfl⟩ := h
    set start := sweepStart startId
    set stop := sweepEnd start c.limit s.orderCount
    have horder : ∀ id, ((sweepIds start stop).foldl (sweepOrder c.clock) (s.order, 0)).1 id =
        if start ≤ id ∧ id ≤ stop then (s.order id).map (Order.swept c.clock) else s.order id := by
      intro id
      have hmem : id ∈ sweepIds start stop ↔ start ≤ id ∧ id ≤ stop := by
        rw [sweepIds, mem_range'_1]
        omega
      rw [show ((sweepIds start stop).foldl (sweepOrder c.clock)
        (s.order, 0)).1 id = (s.listings.sweep c.clock (sweepIds start stop)).order id from
        rfl, Listings.sweep_order]
      simp only [hmem]
      rfl
    refine ⟨⟨rfl, horder, ?_⟩, rfl⟩
    show ((sweepIds start stop).foldl (sweepOrder c.clock) (s.order, 0)).2 =
      changedStatuses s.order
        ((sweepIds start stop).foldl (sweepOrder c.clock) (s.order, 0)).1 start stop
    rw [sweepIds] at horder ⊢
    rw [foldl_sweepOrder_count nodup_range', zero_add, changedStatuses]
    refine countP_congr fun id hid => ?_
    rw [mem_range'_1] at hid
    rw [horder id, if_pos (by omega)]

/-- The last id of a window: after a batch, or the end of the book. -/
theorem sweepEnd_eq {limit count : Nat} (hlimit : limit ≠ 0) (hstart : 1 ≤ start)
    (hle : start ≤ count) (hcount : count < u64Max) :
    start ≤ sweepEnd start limit count ∧ sweepEnd start limit count ≤ count := by
  unfold sweepEnd maxCleanBatch
  simp only
  split <;> omega

/-! ## A pass -/

/-- A sequence of successful calls from `start`, each going on at the answer of the one before and
none after the answer zero; with the state it leads to, its last answer and its total count. -/
inductive SweepPass : DEXRouter → Nat → List SweepCall → DEXRouter → Nat → Nat → Prop where
  | one {s s' : DEXRouter} {start : Nat} {c : SweepCall} {r : CleanExpiredResult}
      (h : c.run s start = .ok (s', r)) : SweepPass s start [c] s' r.nextStartId r.cleaned
  | more {s s' s'' : DEXRouter} {start next total : Nat} {c : SweepCall} {calls : List SweepCall}
      {r : CleanExpiredResult} (h : c.run s start = .ok (s', r)) (hmore : r.nextStartId ≠ 0)
      (hrest : SweepPass s' r.nextStartId calls s'' next total) :
      SweepPass s start (c :: calls) s'' next (r.cleaned + total)

theorem changedStatuses_self {a b : Nat} (h : ∀ id, a ≤ id → id ≤ b → f' id = f id) :
    changedStatuses f f' a b = 0 := by
  rw [changedStatuses, countP_eq_zero]
  intro id hid
  rw [mem_range'_1] at hid
  simp [h id hid.1 (by omega)]

/-- The changes of adjacent windows add up. -/
theorem changedStatuses_split {a m b : Nat} (h1 : a ≤ m + 1) (h2 : m ≤ b) :
    changedStatuses f f' a b = changedStatuses f f' a m + changedStatuses f f' (m + 1) b := by
  unfold changedStatuses
  rw [range'_split h1 (show m + 1 ≤ b + 1 by omega), countP_append]

theorem changedStatuses_congr {g g' : Nat → Option Order} {a b : Nat}
    (h : ∀ id, a ≤ id → id ≤ b → f id = g id ∧ f' id = g' id) :
    changedStatuses f f' a b = changedStatuses g g' a b := by
  refine countP_congr fun id hid => ?_
  rw [mem_range'_1] at hid
  obtain ⟨h1, h2⟩ := h id hid.1 (by omega)
  rw [h1, h2]

/-- **The windows tile the book**, from `start` to the last answer. -/
structure Tiles (s : DEXRouter) (start : Nat) (calls : List SweepCall) (s' : DEXRouter)
    (next total : Nat) : Prop where
  orderCount : s'.orderCount = s.orderCount
  length : calls.length ≤ (if next = 0 then s.orderCount + 1 else next) - start
  answer : next ≤ s.orderCount
  outside : ∀ id, id < start ∨ next ≠ 0 ∧ next ≤ id → s'.order id = s.order id
  scanned : ∀ id, start ≤ id → id ≤ s.orderCount → next = 0 ∨ id < next →
    ∃ c ∈ calls, s'.order id = (s.order id).map (Order.swept c.clock)
  total : total = changedStatuses s.order s'.order start s.orderCount

/-- One call, from an id in the book. -/
theorem SweepCall.tiles (h : c.run s start = .ok (s', r)) (hstart : 1 ≤ start)
    (hle : start ≤ s.orderCount) (hcount : s.orderCount < u64Max) :
    Tiles s start [c] s' r.nextStartId r.cleaned ∧ (r.nextStartId = 0 ∨ start < r.nextStartId) := by
  have hfirst : sweepStart start = start := if_neg (by omega)
  obtain ⟨hlimit, -, hscan⟩ := c.run_ok h
  rw [hfirst] at hscan
  obtain ⟨hs, hnext⟩ := hscan (by omega)
  obtain ⟨h1, h2⟩ := sweepEnd_eq hlimit hstart hle hcount
  generalize sweepEnd start c.limit s.orderCount = stop at hs hnext h1 h2
  have hcases : r.nextStartId = 0 ∧ stop = s.orderCount ∨
      r.nextStartId = stop + 1 ∧ stop < s.orderCount := by
    split at hnext <;> omega
  refine ⟨⟨hs.orderCount, ?_, by omega, fun id hid => ?_, fun id h3 h4 h5 => ?_, ?_⟩, by omega⟩
  · rw [length_singleton]
    split <;> omega
  · rw [hs.order, if_neg (by omega)]
  · exact ⟨c, mem_singleton_self c, by rw [hs.order, if_pos (by omega)]⟩
  · rw [changedStatuses_split (m := stop) (by omega) h2, hs.cleaned,
      changedStatuses_self (a := stop + 1) fun id h3 _ => by rw [hs.order, if_neg (by omega)],
      add_zero]

theorem SweepPass.length_pos (h : SweepPass s start calls s' next total) : 0 < calls.length := by
  cases h with
  | one => exact Nat.one_pos
  | more => exact Nat.succ_pos _

/-- The changes of a window and those of the windows after it: the first call made those up to the id
it goes on at, the others made the rest. -/
theorem Tiles.changed_add {s'' : DEXRouter} {cleaned : Nat}
    (h : Tiles s start calls s' next cleaned) (hmore : next ≠ 0) (hadvance : start < next)
    (hlater : ∀ id < next, s''.order id = s'.order id) :
    cleaned + changedStatuses s'.order s''.order next s.orderCount =
      changedStatuses s.order s''.order start s.orderCount := by
  have hanswer := h.answer
  obtain ⟨m, rfl⟩ := Nat.exists_eq_succ_of_ne_zero hmore
  have hrest : ∀ id, m + 1 ≤ id → s'.order id = s.order id :=
    fun id hid => h.outside id (.inr ⟨hmore, hid⟩)
  calc cleaned + changedStatuses s'.order s''.order (m + 1) s.orderCount
      = changedStatuses s.order s'.order start m +
          changedStatuses s'.order s''.order (m + 1) s.orderCount := by
        rw [h.total, changedStatuses_split (m := m) (by omega) (by omega),
          changedStatuses_self fun id hid _ => hrest id hid, add_zero]
    _ = changedStatuses s.order s''.order start m +
          changedStatuses s.order s''.order (m + 1) s.orderCount := by
        congr 1
        · exact changedStatuses_congr fun id _ hid => ⟨rfl, (hlater id (by omega)).symm⟩
        · exact changedStatuses_congr fun id hid _ => ⟨hrest id hid, rfl⟩
    _ = changedStatuses s.order s''.order start s.orderCount :=
        (changedStatuses_split (by omega) (by omega)).symm

theorem SweepPass.tiles (h : SweepPass s start calls s' next total) (hstart : 1 ≤ start)
    (hle : start ≤ s.orderCount) (hcount : s.orderCount < u64Max) :
    Tiles s start calls s' next total := by
  induction h with
  | one h => exact (SweepCall.tiles h hstart hle hcount).1
  | @more s s' s'' start next total c calls r h hmore hrest ih =>
      obtain ⟨hfirst, hadvance⟩ := SweepCall.tiles h hstart hle hcount
      have hlength := hfirst.length
      have hrestTiles := ih (by omega) (hfirst.orderCount ▸ hfirst.answer)
        (hfirst.orderCount.symm ▸ hcount)
      obtain ⟨h1, h2, h3, h4, h5, h6⟩ := hrestTiles
      rw [hfirst.orderCount] at h1 h2 h3 h5 h6
      have hnext : next = 0 ∨ r.nextStartId ≤ next := by
        by_contra hlt
        push Not at hlt
        rw [if_neg hlt.1] at h2
        have hcalls := hrest.length_pos
        omega
      refine ⟨h1, ?_, h3, fun id hid => ?_, fun id h7 h8 h9 => ?_, ?_⟩
      · rw [length_singleton, if_neg hmore] at hlength
        rw [length_cons]
        split at h2 <;> split <;> omega
      · rw [h4 id (by omega), hfirst.outside id (by omega)]
      · -- the order is in this window or in a later one
        by_cases hwindow : id < r.nextStartId
        · obtain ⟨c', hc', hid⟩ := hfirst.scanned id h7 h8 (.inr hwindow)
          exact ⟨c', mem_cons.mpr (.inl (mem_singleton.mp hc')), (h4 id (.inl hwindow)).trans hid⟩
        · obtain ⟨c', hc', hid⟩ := h5 id (by omega) h8 h9
          exact ⟨c', mem_cons_of_mem c hc', by
            rw [hid, hfirst.outside id (.inr ⟨hmore, by omega⟩)]⟩
      · rw [h6]
        exact hfirst.changed_add hmore (by omega) fun id hid => h4 id (.inl hid)

/-- In a book that ends at `u64::MAX` a window ends before it, so the call answers with an id. -/
theorem SweepCall.endless (h : c.run s start = .ok (s', r)) (hcount : s.orderCount = u64Max)
    (hstart : start ≤ u64Max) :
    r.nextStartId ≠ 0 ∧ r.nextStartId ≤ u64Max ∧ s'.orderCount = u64Max := by
  have hmax : 1 ≤ u64Max := by decide
  have hin : ¬ (s.orderCount = 0 ∨ s.orderCount < sweepStart start) := by
    rw [hcount, sweepStart]
    split <;> omega
  obtain ⟨hs, hnext⟩ := (c.run_ok h).2.2 hin
  have hend : sweepEnd (sweepStart start) c.limit s.orderCount < u64Max := by
    unfold sweepEnd
    simp only
    omega
  rw [if_neg (by omega)] at hnext
  exact ⟨by omega, by omega, hs.orderCount.trans hcount⟩

/-- **A book that ends at `u64::MAX` has no last window**: no answer is ever zero. -/
theorem SweepPass.endless (h : SweepPass s start calls s' next total)
    (hcount : s.orderCount = u64Max) (hstart : start ≤ u64Max) : next ≠ 0 := by
  induction h with
  | one h => exact (SweepCall.endless h hcount hstart).1
  | more h _ _ ih =>
      obtain ⟨-, hle, hcount'⟩ := SweepCall.endless h hcount hstart
      exact ih hcount' hle

/-! ## What a pass is for -/

/-- **A complete and terminating sweep** of a book with `n` orders: following the answers takes at
most `max 1 n` calls, after which the answer is zero; no call scans more than 100 orders; at the end
every order that was live and expired at the first call is expired, no order that is unexpired at the
last call has changed, and the counts add up to the number of changed orders. -/
structure SweepsCompletely (s : DEXRouter) : Prop where
  bounded : ∀ {calls s' next total}, SweepPass s 0 calls s' next total →
    calls.length ≤ max 1 s.orderCount ∧ (calls.length = max 1 s.orderCount → next = 0)
  scans : ∀ start limit, (scannedIds start limit s.orderCount).length ≤ 100
  complete : ∀ {c calls s' total}, SweepPass s 0 (c :: calls) s' 0 total →
    ((c :: calls).map fun c => c.clock.timestamp).Pairwise (· ≤ ·) → ∀ id o, s.order id = some o →
    o.status.Live → o.IsExpired c.clock → s'.order id = some { o with status := .expired }
  keeps : ∀ {calls c s' next total}, SweepPass s 0 (calls ++ [c]) s' next total →
    ((calls ++ [c]).map fun c => c.clock.timestamp).Pairwise (· ≤ ·) → ∀ id o, s.order id = some o →
    ¬ o.IsExpired c.clock → s'.order id = some o
  counts : ∀ {calls s' next total}, SweepPass s 0 calls s' next total →
    total = changedStatuses s.order s'.order 1 s.orderCount

/-- A pass starts at the first order, or has nothing to do. -/
theorem SweepPass.from_zero (h : SweepPass s 0 calls s' next total) :
    (s.orderCount = 0 ∧ calls.length = 1 ∧ next = 0 ∧ total = 0 ∧ s'.order = s.order) ∨
      1 ≤ s.orderCount ∧ SweepPass s 1 calls s' next total := by
  by_cases h0 : s.orderCount = 0
  · have key : ∀ {c : SweepCall} {s' : DEXRouter} {r : CleanExpiredResult},
        c.run s 0 = .ok (s', r) → s'.order = s.order ∧ r = ⟨0, 0⟩ :=
      fun h => ((SweepCall.run_ok h).2.1 (.inl h0)).2
    left
    cases h with
    | one h =>
        obtain ⟨horder, rfl⟩ := key h
        exact ⟨h0, rfl, rfl, rfl, horder⟩
    | more h hmore =>
        obtain ⟨-, rfl⟩ := key h
        exact absurd rfl hmore
  · refine .inr ⟨by omega, ?_⟩
    cases h with
    | one h => exact .one h
    | more h hmore hrest => exact .more h hmore hrest

theorem length_scannedIds_le (start limit count : Nat) :
    (scannedIds start limit count).length ≤ 100 := by
  unfold scannedIds
  split
  · exact Nat.zero_le _
  · rw [sweepIds, length_range', sweepEnd]
    unfold maxCleanBatch
    split <;> omega

theorem sweepsCompletely_of_lt
    (hnumbered : ∀ id o, s.order id = some o → 1 ≤ id ∧ id ≤ s.orderCount)
    (hcount : s.orderCount < u64Max) : SweepsCompletely s where
  bounded := by
    intro calls s' next total h
    rcases h.from_zero with ⟨h0, hlength, hnext, -⟩ | ⟨h1, h⟩
    · exact ⟨by omega, fun _ => hnext⟩
    · have htiles := h.tiles le_rfl h1 hcount
      have hlength := htiles.length
      have hanswer := htiles.answer
      split at hlength
      · next hnext => exact ⟨by omega, fun _ => hnext⟩
      · omega
  scans := fun start limit => length_scannedIds_le start limit _
  complete := by
    intro c calls s' total h hclocks id o ho hlive hexpired
    obtain ⟨hid, hid'⟩ := hnumbered id o ho
    rcases h.from_zero with ⟨h0, -⟩ | ⟨h1, h⟩
    · omega
    · obtain ⟨c', hc', hswept⟩ := (h.tiles le_rfl h1 hcount).scanned id hid hid' (.inl rfl)
      have hlater : c.clock.timestamp ≤ c'.clock.timestamp := by
        rw [map_cons, pairwise_cons] at hclocks
        rcases mem_cons.mp hc' with rfl | hc'
        · exact le_rfl
        · exact hclocks.1 _ (mem_map_of_mem hc')
      have hthen : o.IsExpired c'.clock := le_trans hexpired hlater
      rw [hswept, ho, Option.map_some, Order.swept, if_pos ⟨hlive, hthen⟩]
  keeps := by
    intro calls c s' next total h hclocks id o ho hunexpired
    obtain ⟨hid, hid'⟩ := hnumbered id o ho
    rcases h.from_zero with ⟨-, -, -, -, horder⟩ | ⟨h1, h⟩
    · rw [horder, ho]
    · have htiles := h.tiles le_rfl h1 hcount
      by_cases hscanned : next = 0 ∨ id < next
      · obtain ⟨c', hc', hswept⟩ := htiles.scanned id hid hid' hscanned
        have hearlier : c'.clock.timestamp ≤ c.clock.timestamp := by
          rw [map_append, pairwise_append] at hclocks
          rcases mem_append.mp hc' with hc' | hc'
          · exact hclocks.2.2 _ (mem_map_of_mem hc') _ (by simp)
          · rw [mem_singleton.mp hc']
        have hthen : ¬ o.IsExpired c'.clock := fun hx => hunexpired (le_trans hx hearlier)
        rw [hswept, ho, Option.map_some, Order.swept, if_neg (fun hx => hthen hx.2)]
      · rw [htiles.outside id (.inr (by omega)), ho]
  counts := by
    intro calls s' next total h
    rcases h.from_zero with ⟨h0, -, -, rfl, horder⟩ | ⟨h1, h⟩
    · rw [horder, changedStatuses_self fun _ _ _ => rfl]
    · exact (h.tiles le_rfl h1 hcount).total

/-- **The expiry sweep**, for every router whose orders are those numbered up to its count. No call of
the admin is refused once authorization, nonce and limit are right. With fewer than `u64::MAX` orders
the sweep is complete and terminates; with that many, no sequence of calls ever ends. -/
theorem sweep_complete_iff (s : DEXRouter)
    (hnumbered : ∀ id o, s.order id = some o → 1 ≤ id ∧ id ≤ s.orderCount) :
    (∀ (t : DEXRouter) (c : SweepCall) (start : Nat), c.env.authorized c.caller = true →
      (∃ t', t.consumeNonce c.caller c.nonce = .ok t') → t.admin = some c.caller → c.limit ≠ 0 →
      ∃ r, c.run t start = .ok r) ∧
    (s.orderCount < u64Max → SweepsCompletely s) ∧
    (s.orderCount = u64Max → ∀ calls s' next total, SweepPass s 0 calls s' next total → next ≠ 0) := by
  refine ⟨?_, fun hlt => sweepsCompletely_of_lt hnumbered hlt,
    fun heq calls s' next total h => h.endless heq (Nat.zero_le _)⟩
  rintro t c start hauth ⟨t', ht'⟩ hadmin hlimit
  obtain ⟨-, ht⟩ := DEXRouter.consumeNonce_ok ht'
  have hadmin' : t'.requireAdmin c.caller = .ok () := by
    subst ht
    rw [DEXRouter.requireAdmin, show (t.setNonce c.caller _).admin = some c.caller from hadmin]
    simp [okOr_some, ok_bind, reject_of_not]
  rw [SweepCall.run, DEXRouter.cleanExpiredOrders, requireAuth, hostRequire_of hauth, ok_bind, ht',
    ok_bind, hadmin', ok_bind, reject_of_not hlimit, ok_bind]
  simp only
  split
  · exact ⟨_, rfl⟩
  · exact ⟨_, rfl⟩

/-- **The expiry sweep is complete and terminates** at every point of a run of the market, with
fewer than `u64::MAX` orders, and its calls are there. -/
theorem sweep_complete (base : IssuerWorld) (admin : Address) (l : List DexInput)
    (hcount : (dexRun base admin l).dex.orderCount < u64Max) :
    (∀ (t : DEXRouter) (c : SweepCall) (start : Nat), c.env.authorized c.caller = true →
      (∃ t', t.consumeNonce c.caller c.nonce = .ok t') → t.admin = some c.caller → c.limit ≠ 0 →
      ∃ r, c.run t start = .ok r) ∧
    SweepsCompletely (dexRun base admin l).dex := by
  obtain ⟨hcalls, hcomplete, -⟩ :=
    sweep_complete_iff _ (dexRun_listings_sound base admin l).numbered
  exact ⟨hcalls, hcomplete hcount⟩

/-- The admin sweeps one order at a time. -/
def sampleSweepCall : SweepCall where
  env := sampleDexEnv
  clock := ⟨11, 110⟩
  caller := ⟨1⟩
  limit := 1
  nonce := 0

/-- The investor lists two and three units for ten seconds, which pass. -/
def sampleExpiring : List DexInput :=
  [.dex sampleDexEnv (.listBondTokens ⟨2⟩ 1 2 7 "USDC" 10 0),
    .dex sampleDexEnv (.listBondTokens ⟨2⟩ 1 3 7 "USDC" 10 1), .issuer (.close 1 10)]

/-- The first call marks one of the two orders and answers the other. -/
theorem sweep_complete_sample :
    (dexRun sampleMarket ⟨1⟩ sampleExpiring).base.clock = sampleSweepCall.clock ∧
      (sampleSweepCall.run (dexRun sampleMarket ⟨1⟩ sampleExpiring).dex 0).toOption.map Prod.snd = some ⟨1, 2⟩ ∧
      SweepsCompletely (dexRun sampleMarket ⟨1⟩ sampleExpiring).dex :=
  ⟨by decide, by decide, (sweep_complete sampleMarket ⟨1⟩ sampleExpiring (by decide)).2⟩

/-- A router with `n` orders that expired at second 50. -/
def expiredBook (n : Nat) : DEXRouter :=
  { DEXRouter.deploy ⟨1⟩ ⟨0⟩ with
    orderCount := n
    order := fun id =>
      if 1 ≤ id ∧ id ≤ n then some ⟨id, ⟨2⟩, 1, 5, 7, "USDC", .open, 40, 50⟩ else none }

/-- **A book of `u64::MAX` expired orders**: the call at the last order scans nothing and answers that
same order, and no sequence of calls from the start gets the answer zero. -/
theorem full_book_never_ends :
    ((sampleSweepCall.run (expiredBook u64Max) u64Max).toOption.map Prod.snd = some ⟨0, u64Max⟩) ∧
      ∀ calls s' next total, SweepPass (expiredBook u64Max) 0 calls s' next total → next ≠ 0 :=
  ⟨by decide, fun _ _ _ _ h => h.endless rfl (Nat.zero_le _)⟩

end VerdantBond
