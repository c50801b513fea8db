import VerdantBond.Issuer.Hamilton

set_option autoImplicit false

/-! # BondIssuer: an auction never allocates more than the remaining supply

`apportion` hands out at most its capacity, in non-negative parts (`apportion_ok`). Settlement
applies it twice, over identities and over the wallets of each identity; the bound survives both
rounds (`allocateOrders_ok`) whatever the order book looks like, as long as no order was allocated
before.
-/

namespace VerdantBond

open Function List

/-! ## Apportionment -/

theorem addRequest_ok {total request total' : Int} (h : addRequest total request = .ok total') :
    0 ≤ request ∧ request ≤ maxSupply ∧ total' = total + request := by
  simp only [addRequest, bind_ok_iff, reject_ok_iff, okOr_ok_iff, i128_eq_some, exists_unit_iff,
    not_not] at h
  exact ⟨h.1.1, h.1.2, h.2.2.symm⟩

theorem foldlM_addRequest_ok {requests : List Int} :
    ∀ {start total : Int}, requests.foldlM addRequest start = .ok total →
      ∀ r ∈ requests, 0 ≤ r ∧ r ≤ maxSupply := by
  induction requests with
  | nil => simp
  | cons r requests ih =>
      intro start total h
      simp only [foldlM_cons, bind_ok_iff] at h
      obtain ⟨mid, h1, h2⟩ := h
      obtain ⟨hr, hr', -⟩ := addRequest_ok h1
      exact forall_mem_cons.mpr ⟨⟨hr, hr'⟩, ih h2⟩

variable {capacity faceValue : Int} {orders orders' : List AuctionOrder} {clock : Clock}
  {config : BondConfig} {state : BondState}

/-- **Apportionment stays within capacity**: a result is a Hamilton apportionment, since the
checks of the body are its premises. -/
theorem apportion_ok {requests amounts : List Int} (h : apportion requests capacity = .ok amounts) :
    0 ≤ capacity ∧ (∀ a ∈ amounts, 0 ≤ a) ∧ amounts.sum ≤ capacity := by
  have hchecks := h
  simp only [apportion, bind_ok_iff, reject_ok_iff, exists_unit_iff, not_or, not_lt] at hchecks
  obtain ⟨⟨hcap, hlen⟩, total, htotal, -⟩ := hchecks
  have hreq := foldlM_addRequest_ok htotal
  obtain ⟨result, hok, hcases⟩ := apportion_cases hcap hlen hreq
  obtain rfl : result = amounts := Except.ok.inj (hok.symm.trans h)
  have hmethod : Hamilton requests capacity result := by
    rcases hcases with ⟨hle, rfl⟩ | ⟨hlt, n, picked, hn, hpicked⟩
    · exact .of_covered hreq hle
    · exact .of_handedOut hcap hlt hreq hn hpicked
  refine ⟨hcap, fun a ha => ?_, hmethod.sum ▸ min_le_left _ _⟩
  obtain ⟨i, hi, rfl⟩ := mem_iff_getElem.mp ha
  have := (hmethod.bounded i (hmethod.length ▸ hi)).1
  rwa [getD_eq_getElem?_getD, getElem?_eq_getElem hi] at this

/-! ## Orders -/

/-- The units allocated to all orders. -/
def totalAllocated (orders : List AuctionOrder) : Int := (orders.map (·.allocated)).sum

/-- No order has a negative allocation. -/
def AllocatedNonneg (orders : List AuctionOrder) : Prop := ∀ o ∈ orders, 0 ≤ o.allocated

theorem assign_ok {identity : Bytes32} :
    ∀ {amounts : List Int} {orders' : List AuctionOrder}, AllocatedNonneg orders →
      (∀ a ∈ amounts, 0 ≤ a) → assign faceValue identity orders amounts = .ok orders' →
      AllocatedNonneg orders' ∧ totalAllocated orders' ≤ totalAllocated orders + amounts.sum := by
  induction orders with
  | nil =>
      intro amounts orders' _ hamounts h
      simp only [assign, Except.ok.injEq] at h
      subst h
      exact ⟨by simp [AllocatedNonneg], by simpa [totalAllocated] using sum_nonneg hamounts⟩
  | cons order orders ih =>
      intro amounts orders' hord hamounts h
      have hhead : 0 ≤ order.allocated := hord order mem_cons_self
      have htail : AllocatedNonneg orders := fun o ho => hord o (mem_cons_of_mem _ ho)
      by_cases hid : order.identity = identity
      · cases amounts with
        | nil => simp [assign, hid] at h
        | cons amount amounts =>
            simp only [assign, if_pos hid, bind_ok_iff, orTrap_ok_iff, okOr_ok_iff, i128_eq_some,
              pure_ok_iff] at h
            obtain ⟨_, -, _, -, rest, hrest, rfl⟩ := h
            obtain ⟨h1, h2⟩ := ih htail (fun a ha => hamounts a (mem_cons_of_mem _ ha)) hrest
            refine ⟨?_, ?_⟩
            · intro o ho
              rcases mem_cons.mp ho with rfl | ho
              · exact hamounts amount mem_cons_self
              · exact h1 o ho
            · simp only [totalAllocated, map_cons, sum_cons] at h2 ⊢
              linarith
      · simp only [assign, if_neg hid, bind_ok_iff, pure_ok_iff] at h
        obtain ⟨rest, hrest, rfl⟩ := h
        obtain ⟨h1, h2⟩ := ih htail hamounts hrest
        refine ⟨?_, ?_⟩
        · intro o ho
          rcases mem_cons.mp ho with rfl | ho
          · exact hhead
          · exact h1 o ho
        · simp only [totalAllocated, map_cons, sum_cons] at h2 ⊢
          linarith

theorem allocateIdentity_ok {share : Bytes32 × Int} (hord : AllocatedNonneg orders)
    (h : allocateIdentity faceValue orders share = .ok orders') :
    AllocatedNonneg orders' ∧ totalAllocated orders' ≤ totalAllocated orders + share.2 := by
  simp only [allocateIdentity, bind_ok_iff] at h
  obtain ⟨amounts, h1, h2⟩ := h
  obtain ⟨-, hnonneg, hsum⟩ := apportion_ok h1
  obtain ⟨h3, h4⟩ := assign_ok hord hnonneg h2
  exact ⟨h3, by linarith⟩

theorem foldlM_allocateIdentity_ok {shares : List (Bytes32 × Int)} :
    ∀ {orders orders' : List AuctionOrder}, AllocatedNonneg orders →
      shares.foldlM (allocateIdentity faceValue) orders = .ok orders' →
      AllocatedNonneg orders' ∧
        totalAllocated orders' ≤ totalAllocated orders + (shares.map Prod.snd).sum := by
  induction shares with
  | nil =>
      intro orders orders' hord h
      simp only [foldlM_nil, pure_ok_iff] at h
      subst h
      exact ⟨hord, by simp⟩
  | cons share shares ih =>
      intro orders orders' hord h
      simp only [foldlM_cons, bind_ok_iff] at h
      obtain ⟨mid, h1, h2⟩ := h
      obtain ⟨h3, h4⟩ := allocateIdentity_ok hord h1
      obtain ⟨h5, h6⟩ := ih h3 h2
      refine ⟨h5, ?_⟩
      rw [map_cons, sum_cons]
      linarith

theorem sum_zip_snd_le {α : Type} (l : List α) :
    ∀ (amounts : List Int), (∀ a ∈ amounts, 0 ≤ a) →
      ((l.zip amounts).map Prod.snd).sum ≤ amounts.sum := by
  induction l with
  | nil =>
      intro amounts h
      simpa using sum_nonneg h
  | cons a l ih =>
      intro amounts h
      cases amounts with
      | nil => simp
      | cons x xs =>
          have := ih xs (fun y hy => h y (mem_cons_of_mem _ hy))
          simpa using this

theorem capacityOf_ok (h : capacityOf clock config state = .ok capacity) :
    capacity = config.totalSupply - state.totalSubscribed ∨ capacity = 0 := by
  unfold capacityOf at h
  by_cases hact : state.status = .active ∧ clock.timestamp < config.maturityDate
  · rw [if_pos hact, orTrap_ok_iff, i128_eq_some] at h
    exact .inl h.2.symm
  · rw [if_neg hact, Except.ok.injEq] at h
    exact .inr h.symm

/-- **An auction allocates at most the remaining supply.** -/
theorem allocateOrders_ok (hzero : ∀ o ∈ orders, o.allocated = 0)
    (hsupply : state.totalSubscribed ≤ config.totalSupply)
    (h : allocateOrders clock config state orders = .ok orders') :
    AllocatedNonneg orders' ∧
      state.totalSubscribed + totalAllocated orders' ≤ config.totalSupply := by
  simp only [allocateOrders, bind_ok_iff] at h
  obtain ⟨demands, -, capacity, hcap, allocations, ha, hf⟩ := h
  obtain ⟨-, hnonneg, hsum⟩ := apportion_ok ha
  have hstart : totalAllocated orders = 0 := by
    refine sum_eq_zero (fun x hx => ?_)
    obtain ⟨o, ho, rfl⟩ := mem_map.mp hx
    exact hzero o ho
  obtain ⟨h1, h2⟩ := foldlM_allocateIdentity_ok (fun o ho => (hzero o ho).ge) hf
  have h3 := sum_zip_snd_le (demands.map Prod.fst) allocations hnonneg
  refine ⟨h1, ?_⟩
  rcases capacityOf_ok hcap with rfl | rfl <;> linarith

/-- Sorting the order book keeps its orders. -/
theorem mem_sortOrders {o : AuctionOrder} : o ∈ sortOrders orders ↔ o ∈ orders := by
  have key : ∀ (l acc : List AuctionOrder),
      o ∈ l.foldl (fun sorted x => sorted.orderedInsert (fun a b => orderLe b a) x) acc ↔
        o ∈ acc ∨ o ∈ l := by
    intro l
    induction l with
    | nil => simp
    | cons x l ih =>
        intro acc
        rw [foldl_cons, ih, mem_orderedInsert, mem_cons]
        tauto
  simp [sortOrders, key]

end VerdantBond
