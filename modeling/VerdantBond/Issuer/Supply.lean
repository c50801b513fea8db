import VerdantBond.Issuer.Allocation
import VerdantBond.Issuer.Steps
import VerdantBond.Lib.SnapshotLedger

set_option autoImplicit false

/-! # BondIssuer: supply conservation

Seen as a ledger (`Bond.ledger`), a bond moves by the steps of `Lib/SnapshotLedger.lean` only:
every elementary change leaves the ledger alone or is one move, that is, rewrites some holders
under the next version and logs the new total (`BondStep.ledger_step`). The four code paths that
move balances differ only in which holders they rewrite.

`Bond.Sound` adds what the ledger does not know, the supply cap, and the fact about order books
that the cap rests on.
-/

namespace VerdantBond

open Function SnapshotLedger Bond

namespace Bond

/-- `total_subscribed`, zero before issuance. -/
def totalSubscribed (b : Bond) : Int :=
  match b.state with
  | some state => state.totalSubscribed
  | none => 0

theorem totalSubscribed_eq {b : Bond} {state : BondState} (h : b.state = some state) :
    b.totalSubscribed = state.totalSubscribed := by
  simp only [totalSubscribed, h]

def book (b : Bond) : Book Address := ⟨b.holderBalance, b.holderLog⟩

/-- A bond's balances, total and checkpoints as a ledger with snapshots. -/
def ledger (b : Bond) : SnapshotLedger Address :=
  ⟨b.balanceVersion, b.book, b.totalSubscribed, b.supplyLog⟩

end Bond

/-! ## The minting loop -/

variable {env : Env} {self : Address} {version : Nat} {orders : List AuctionOrder} {clock : Clock}
  {kind : CallKind} {b b' : Bond}

/-- One order: at most its wallet is rewritten, by the allocation. -/
theorem mintAndRefund_ok {token : Address} {m m' : Minting} {order : AuctionOrder}
    (h : mintAndRefund env self token version m order = .ok m') :
    m'.bond = { m.bond with holderBalance := m'.bond.holderBalance
                            holderLog := m'.bond.holderLog } ∧
      Writes version m.bond.book (m'.total - m.total) m'.bond.book ∧
      (∀ h, m.bond.holderBalance h ≤ m'.bond.holderBalance h) ∧
      (0 ≤ order.allocated → m'.total = m.total + order.allocated) := by
  simp only [mintAndRefund, bind_ok_iff, pure_ok_iff] at h
  obtain ⟨m₁, h1, tokens, -, rfl⟩ := h
  unfold mintAllocated at h1
  by_cases hpos : 0 < order.allocated
  · simp only [if_pos hpos, mint, bind_ok_iff, okOr_ok_iff, i128_eq_some, pure_ok_iff] at h1
    obtain ⟨_, ⟨-, rfl⟩, b, hb, _, ⟨-, rfl⟩, rfl⟩ := h1
    obtain ⟨log, hlog, rfl⟩ := appendHolderCheckpoint_ok hb
    have hw : Writes version m.bond.book (m.bond.holderBalance order.wallet + order.allocated
        - m.bond.holderBalance order.wallet) _ := Writes.single hlog (fun h0 => by
      have : 0 ≤ m.bond.holderBalance order.wallet := h0
      omega)
    refine ⟨rfl, ?_, fun h => ?_, fun _ => rfl⟩
    · exact hw.congr (by show _ = m.total + order.allocated - m.total; ring)
    · by_cases hh : h = order.wallet
      · subst hh
        simp only [update_self]
        omega
      · simp only [update_of_ne hh, le_refl]
  · rw [if_neg hpos, pure_ok_iff] at h1
    subst h1
    refine ⟨rfl, ?_, fun _ => le_refl _, fun h0 => ?_⟩
    · exact (Writes.nil m.bond.book).congr (by simp)
    · have : order.allocated = 0 := by omega
      simp [this]

/-- The whole loop: only holders are rewritten, and the total rises by what was allocated. -/
theorem foldlM_mintAndRefund_ok {token : Address} :
    ∀ {m m' : Minting}, orders.foldlM (mintAndRefund env self token version) m = .ok m' →
      m'.bond = { m.bond with holderBalance := m'.bond.holderBalance
                              holderLog := m'.bond.holderLog } ∧
        Writes version m.bond.book (m'.total - m.total) m'.bond.book ∧
        (∀ h, m.bond.holderBalance h ≤ m'.bond.holderBalance h) ∧
        (AllocatedNonneg orders → m'.total = m.total + totalAllocated orders) := by
  induction orders with
  | nil =>
      intro m m' h
      simp only [List.foldlM_nil, pure_ok_iff] at h
      subst h
      exact ⟨rfl, (Writes.nil m.bond.book).congr (by ring), fun _ => le_refl _,
        fun _ => by simp [totalAllocated]⟩
  | cons order orders ih =>
      intro m m' h
      simp only [List.foldlM_cons, bind_ok_iff] at h
      obtain ⟨m₁, h1, h2⟩ := h
      obtain ⟨hframe, hw, hmono, htot⟩ := mintAndRefund_ok h1
      obtain ⟨hframe', hw', hmono', htot'⟩ := ih h2
      refine ⟨?_, (hw.append hw').congr (by ring), fun h => le_trans (hmono h) (hmono' h),
        fun hnn => ?_⟩
      · rw [hframe', hframe]
      · rw [htot' (fun o ho => hnn o (List.mem_cons_of_mem _ ho)),
          htot (hnn order List.mem_cons_self)]
        simp only [totalAllocated, List.map_cons, List.sum_cons]
        ring

/-! ## Every elementary change is a ledger step -/

namespace BondStep

variable {b b' : Bond} {clock : Clock} {amount : Int}

/-- A change of other fields. -/
theorem quiet_of_eq (hv : b'.balanceVersion = b.balanceVersion)
    (hbal : b'.holderBalance = b.holderBalance) (hlog : b'.holderLog = b.holderLog)
    (htot : b'.totalSubscribed = b.totalSubscribed) (hs : b'.supplyLog = b.supplyLog) :
    Step b.ledger b'.ledger :=
  .inl ⟨hv, by simp [Bond.ledger, Bond.book, hbal, hlog], htot, .inl hs⟩

/-- Issuance opens the supply log with the total zero. -/
theorem issued_quiet (clock : Clock) (config : BondConfig) :
    Quiet unissued.ledger (unissued.issued clock config).ledger :=
  ⟨rfl, rfl, rfl, .inr rfl⟩

theorem subscribe_move {investor : Address} (h : b.subscribe clock investor amount = .ok b') :
    Move b.ledger b'.ledger := by
  obtain ⟨config, state, hl, sl, hpos, -, hs, -, -, -, -, hhl, hsl, rfl⟩ := subscribe_ok h
  have htot := totalSubscribed_eq hs
  refine ⟨rfl, ?_, .inl ?_⟩
  · have hw : Writes (b.balanceVersion + 1) b.book _ _ := Writes.single hhl (fun h0 => by
      have : 0 ≤ b.holderBalance investor := h0
      omega)
    refine hw.congr ?_
    show b.holderBalance investor + amount - b.holderBalance investor
      = state.totalSubscribed + amount - b.totalSubscribed
    rw [htot]
    ring
  · show b.supplyLog.append _ b.totalSubscribed _ = some sl
    rw [htot]
    exact hsl

theorem transfer_move {blocked : Address → Bool} {source target : Address}
    (h : b.transfer blocked clock source target amount = .ok b') : Move b.ledger b'.ledger := by
  obtain ⟨config, state, ls, lt, hpos, hne, -, hs, -, -, hbal, -, -, -, hls, hlt, rfl⟩ :=
    transfer_ok h
  refine ⟨rfl, ?_, .inr ⟨rfl, rfl⟩⟩
  have hsource : Writes (b.balanceVersion + 1) b.book _ _ := Writes.single hls (fun _ => by omega)
  -- the recipient is another holder, so its balance and log are those before the transfer
  have hlt' : (update b.holderLog source ls target).append (b.balanceVersion + 1)
      (update b.holderBalance source (b.holderBalance source - amount) target)
      (b.holderBalance target + amount) = some lt := by
    simpa only [update_of_ne hne] using hlt
  have htarget : Writes (b.balanceVersion + 1)
      ⟨update b.holderBalance source (b.holderBalance source - amount),
        update b.holderLog source ls⟩ _ _ := Writes.single hlt' (fun h0 => by
      simp only [update_of_ne hne] at h0
      omega)
  refine (hsource.append htarget).congr ?_
  show b.holderBalance source - amount - b.holderBalance source
    + (b.holderBalance target + amount - update b.holderBalance source
      (b.holderBalance source - amount) target) = b.totalSubscribed - b.totalSubscribed
  rw [update_of_ne hne]
  ring

theorem settle_move {env : Env} {self : Address} {tokens tokens' : TokenBalances}
    {auction : AuctionState}
    (h : b.settleSubscription env clock self tokens = .ok (b', tokens', auction)) :
    Move b.ledger b'.ledger := by
  obtain ⟨_, config, state, orders, m, sl, -, -, -, -, hs, -, -, -, hm, hsl, rfl⟩ :=
    settleSubscription_ok h
  obtain ⟨hframe, hw, -, -⟩ := foldlM_mintAndRefund_ok hm
  have htot := totalSubscribed_eq hs
  have hversion : m.bond.balanceVersion = b.balanceVersion + 1 := by rw [hframe]
  have hlog : m.bond.supplyLog = b.supplyLog := by rw [hframe]
  refine ⟨hversion, ?_, .inl ?_⟩
  · show Writes m.bond.balanceVersion b.book (m.total - b.totalSubscribed) m.bond.book
    rw [hversion, htot]
    exact hw
  · show b.supplyLog.append m.bond.balanceVersion b.totalSubscribed m.total = some sl
    rw [hversion, htot, ← hlog]
    exact hsl

/-- **The ledger refinement.** -/
theorem ledger_step {kind : CallKind} (h : BondStep clock kind b b') : Step b.ledger b'.ledger := by
  cases h with
  | same => exact quiet_of_eq rfl rfl rfl rfl rfl
  | issue config _ _ _ => exact .inl (issued_quiet clock config)
  | issueAuction config _ _ _ _ => exact .inl (issued_quiet clock config)
  | subscribe _ h => exact .inr (subscribe_move h)
  | transfer h => exact .inr (transfer_move h)
  | grant h =>
      obtain ⟨_, -, -, -, -, -, -, rfl⟩ := grantSubscription_ok h
      exact quiet_of_eq rfl rfl rfl rfl rfl
  | commit h =>
      obtain ⟨_, _, _, -, -, -, -, -, -, -, -, rfl⟩ := commitSubscription_ok h
      exact quiet_of_eq rfl rfl rfl rfl rfl
  | settle h => exact .inr (settle_move h)
  | mature h =>
      obtain ⟨_, state, -, hs, -, -, rfl⟩ := mature_ok h
      exact quiet_of_eq rfl rfl rfl (totalSubscribed_eq hs).symm rfl
  | fund h =>
      obtain ⟨_, -, -, -, rfl⟩ := fund_ok h
      exact quiet_of_eq rfl rfl rfl rfl rfl
  | configureBudget _ h =>
      obtain ⟨_, -, -, -, -, rfl⟩ := configureBudget_ok h
      exact quiet_of_eq rfl rfl rfl rfl rfl
  | request _ _ h =>
      obtain ⟨-, rfl⟩ := push_ok h
      exact quiet_of_eq rfl rfl rfl rfl rfl
  | openCycle => exact quiet_of_eq rfl rfl rfl rfl rfl
  | @pay b config state usage request amount hl sl _ _ hs _ _ _ _ _ _ _ hpos hbal _ hhl hsl =>
      have htot := totalSubscribed_eq hs
      refine .inr ⟨rfl, ?_, .inl ?_⟩
      · have hw : Writes (b.balanceVersion + 1) b.book _ _ :=
          Writes.single hhl (fun _ => by omega)
        refine hw.congr ?_
        show b.holderBalance request.holder - amount - b.holderBalance request.holder
          = state.totalSubscribed - amount - b.totalSubscribed
        rw [htot]
        ring
      · show b.supplyLog.append _ b.totalSubscribed _ = some sl
        rw [htot]
        exact hsl

end BondStep

/-- The minting loop keeps the configuration; every other change visibly does. -/
theorem BondStep.persists (h : BondStep clock kind b b') : b.Persists b' := by
  cases h with
  | same => exact .refl _
  | issue => exact .of_unissued _
  | issueAuction => exact .of_unissued _
  | subscribe _ h =>
      obtain ⟨_, state, _, _, -, -, hs, -, -, -, -, -, -, rfl⟩ := subscribe_ok h
      exact .of_state rfl hs rfl id
  | transfer h =>
      obtain ⟨_, _, _, _, -, -, -, -, -, -, -, -, -, -, -, -, rfl⟩ := transfer_ok h
      exact .of_eq rfl rfl
  | grant h =>
      obtain ⟨_, -, -, -, -, -, -, rfl⟩ := grantSubscription_ok h
      exact .of_eq rfl rfl
  | commit h =>
      obtain ⟨_, _, _, -, -, -, -, -, -, -, -, rfl⟩ := commitSubscription_ok h
      exact .of_eq rfl rfl
  | settle h =>
      obtain ⟨_, _, state, _, m, _, -, -, -, -, hs, -, -, -, hm, -, rfl⟩ :=
        settleSubscription_ok h
      have hframe := (foldlM_mintAndRefund_ok hm).1
      exact .of_state (by rw [hframe]) hs rfl id
  | mature h =>
      obtain ⟨_, state, -, hs, -, -, rfl⟩ := mature_ok h
      exact .of_state rfl hs rfl (fun _ => rfl)
  | fund h =>
      obtain ⟨_, -, -, -, rfl⟩ := fund_ok h
      exact .of_eq rfl rfl
  | configureBudget _ h =>
      obtain ⟨_, -, -, -, -, rfl⟩ := configureBudget_ok h
      exact .of_eq rfl rfl
  | request _ _ h =>
      obtain ⟨-, rfl⟩ := push_ok h
      exact .of_eq rfl rfl
  | openCycle => exact .of_eq rfl rfl
  | pay _ _ hs => exact .of_state rfl hs rfl id

/-! ## The supply cap -/

/-- **The invariant of a bond's balances**: a consistent ledger whose total stays within the
supply, and no order of an unsettled auction has an allocation yet. -/
structure Bond.Sound (b : Bond) : Prop where
  ledger : b.ledger.Consistent
  cap : ∀ config, b.config = some config → b.totalSubscribed ≤ config.totalSupply
  unallocated : ∀ auction, b.subscriptionAuction = some auction → auction.settled = false →
    ∀ o ∈ auction.orders, o.allocated = 0

theorem Bond.sound_unissued : unissued.Sound where
  ledger :=
    { finiteSupport := hasFiniteSupport_zero
      nonneg := fun _ => le_refl 0
      sum := finsum_zero
      tracked := fun _ => VersionLog.tracks_empty 0 0
      totalTracked := VersionLog.tracks_empty 0 0 }
  cap := fun _ h => by cases h
  unallocated := fun _ h => by cases h

theorem addOrder_unallocated {wallet : Address} {identity : Bytes32} {amount : Int} :
    ∀ {orders' : List AuctionOrder}, (∀ o ∈ orders, o.allocated = 0) →
      addOrder wallet identity amount orders = .ok orders' → ∀ o ∈ orders', o.allocated = 0 := by
  induction orders with
  | nil =>
      intro orders' _ h o ho
      simp only [addOrder, Except.ok.injEq] at h
      subst h
      rw [List.mem_singleton.mp ho]
  | cons order orders ih =>
      intro orders' hzero h
      have hhead := hzero order List.mem_cons_self
      have htail : ∀ o ∈ orders, o.allocated = 0 := fun o ho => hzero o (List.mem_cons_of_mem _ ho)
      by_cases hw : order.wallet = wallet
      · simp only [addOrder, if_pos hw, bind_ok_iff, okOr_ok_iff, i128_eq_some, pure_ok_iff] at h
        obtain ⟨_, -, rfl⟩ := h
        exact List.forall_mem_cons.mpr ⟨hhead, htail⟩
      · simp only [addOrder, if_neg hw, bind_ok_iff, pure_ok_iff] at h
        obtain ⟨rest, hrest, rfl⟩ := h
        exact List.forall_mem_cons.mpr ⟨hhead, ih htail hrest⟩

/-- A settlement stays within the supply. -/
theorem BondStep.settle_cap {tokens tokens' : TokenBalances} {auction : AuctionState} (hb : b.Sound)
    (h : b.settleSubscription env clock self tokens = .ok (b', tokens', auction)) :
    ∀ config, b'.config = some config → b'.totalSubscribed ≤ config.totalSupply := by
  obtain ⟨before, config, state, orders, m, sl, ha, hset, -, hc, hs, ho, -, -, hm, -, rfl⟩ :=
    settleSubscription_ok h
  obtain ⟨hframe, -, -, htotal⟩ := foldlM_mintAndRefund_ok hm
  have hcap := hb.cap config hc
  rw [totalSubscribed_eq hs] at hcap
  obtain ⟨hnonneg, hle⟩ := allocateOrders_ok
    (fun o hmem => hb.unallocated before ha hset o (mem_sortOrders.mp hmem)) hcap ho
  intro config' hc'
  have hconfig : m.bond.config = b.config := by rw [hframe]
  obtain rfl : config' = config := by
    have : m.bond.config = some config' := hc'
    rw [hconfig, hc] at this
    exact (Option.some.inj this).symm
  show m.total ≤ config'.totalSupply
  rw [htotal hnonneg]
  exact hle

/-- Only a subscription and a settlement raise the total; the cap holds after both. -/
theorem BondStep.cap (hb : b.Sound) (h : BondStep clock kind b b') :
    ∀ config, b'.config = some config → b'.totalSubscribed ≤ config.totalSupply := by
  cases h with
  | same => exact hb.cap
  | issue config _ hpos _ =>
      rintro config' hc
      cases hc
      exact le_of_lt hpos
  | issueAuction config _ _ hpos _ =>
      rintro config' hc
      cases hc
      exact le_of_lt hpos
  | subscribe _ h =>
      obtain ⟨config, state, -, -, -, hc, -, -, -, hle, -, -, -, rfl⟩ := subscribe_ok h
      rintro config' hc'
      cases hc.symm.trans hc'
      exact hle
  | transfer h =>
      obtain ⟨_, _, _, _, -, -, -, -, -, -, -, -, -, -, -, -, rfl⟩ := transfer_ok h
      exact hb.cap
  | grant h =>
      obtain ⟨_, -, -, -, -, -, -, rfl⟩ := grantSubscription_ok h
      exact hb.cap
  | commit h =>
      obtain ⟨_, _, _, -, -, -, -, -, -, -, -, rfl⟩ := commitSubscription_ok h
      exact hb.cap
  | settle h => exact settle_cap hb h
  | mature h =>
      obtain ⟨_, state, -, hs, -, -, rfl⟩ := mature_ok h
      intro config hc
      have := hb.cap config hc
      rwa [totalSubscribed_eq hs] at this
  | fund h =>
      obtain ⟨_, -, -, -, rfl⟩ := fund_ok h
      exact hb.cap
  | configureBudget _ h =>
      obtain ⟨_, -, -, -, -, rfl⟩ := configureBudget_ok h
      exact hb.cap
  | request _ _ h =>
      obtain ⟨-, rfl⟩ := push_ok h
      exact hb.cap
  | openCycle => exact hb.cap
  | @pay b config state _ _ amount _ _ _ _ hs _ _ _ _ _ _ _ hpos _ _ _ _ =>
      intro config' hc
      have := hb.cap config' hc
      rw [totalSubscribed_eq hs] at this
      show state.totalSubscribed - amount ≤ config'.totalSupply
      omega

theorem BondStep.unallocated (hb : b.Sound) (h : BondStep clock kind b b') :
    ∀ auction, b'.subscriptionAuction = some auction → auction.settled = false →
      ∀ o ∈ auction.orders, o.allocated = 0 := by
  cases h with
  | same => exact hb.unallocated
  | issue =>
      intro auction ha
      cases ha
  | issueAuction =>
      rintro auction ha -
      cases ha
      simp
  | subscribe _ h =>
      obtain ⟨_, _, _, _, -, -, -, -, -, -, -, -, -, rfl⟩ := subscribe_ok h
      exact hb.unallocated
  | transfer h =>
      obtain ⟨_, _, _, _, -, -, -, -, -, -, -, -, -, -, -, -, rfl⟩ := transfer_ok h
      exact hb.unallocated
  | grant h =>
      obtain ⟨auction, ha, -, -, -, -, -, rfl⟩ := grantSubscription_ok h
      rintro auction' ha' hset
      cases ha'
      exact hb.unallocated auction ha hset
  | commit h =>
      obtain ⟨auction, orders, _, ha, hset, -, -, -, -, -, ho, rfl⟩ := commitSubscription_ok h
      rintro auction' ha' -
      cases ha'
      exact addOrder_unallocated (hb.unallocated auction ha hset) ho
  | settle h =>
      obtain ⟨_, _, _, orders, m, _, -, -, -, -, -, -, hres, -, hm, -, rfl⟩ :=
        settleSubscription_ok h
      have hframe := (foldlM_mintAndRefund_ok hm).1
      rintro auction' ha' hset
      have ha : m.bond.subscriptionAuction = some auction' := ha'
      rw [hframe] at ha
      cases ha
      rw [hres] at hset
      cases hset
  | mature h =>
      obtain ⟨_, _, -, -, -, -, rfl⟩ := mature_ok h
      exact hb.unallocated
  | fund h =>
      obtain ⟨_, -, -, -, rfl⟩ := fund_ok h
      exact hb.unallocated
  | configureBudget _ h =>
      obtain ⟨_, -, -, -, -, rfl⟩ := configureBudget_ok h
      exact hb.unallocated
  | request _ _ h =>
      obtain ⟨-, rfl⟩ := push_ok h
      exact hb.unallocated
  | openCycle => exact hb.unallocated
  | pay => exact hb.unallocated

theorem BondStep.sound (hb : b.Sound) (h : BondStep clock kind b b') : b'.Sound :=
  ⟨h.ledger_step.consistent hb.ledger, h.cap hb, h.unallocated hb⟩

/-- Every bond is sound after every run. -/
theorem issuerRun_sound (clock : Clock) (self admin : Address) (l : List IssuerInput) (id : Nat) :
    ((issuerRun clock self admin l).issuer.bond id).Sound :=
  bond_invariant clock self admin sound_unissued (fun _ _ _ _ hb h => h.sound hb) l id

/-- **Supply conservation.** After every run of the contract, whoever calls what in which order,
every holder's balance is non-negative, the balances sum to the subscribed total, and the total
lies between zero and the supply. -/
theorem supply_conserved (clock : Clock) (self admin : Address) (l : List IssuerInput) (id : Nat)
    (config : BondConfig) (state : BondState)
    (hconfig : ((issuerRun clock self admin l).issuer.bond id).config = some config)
    (hstate : ((issuerRun clock self admin l).issuer.bond id).state = some state) :
    (∀ h, 0 ≤ ((issuerRun clock self admin l).issuer.bond id).holderBalance h) ∧
      ((issuerRun clock self admin l).issuer.bond id).holderBalance.HasFiniteSupport ∧
      ∑ᶠ h, ((issuerRun clock self admin l).issuer.bond id).holderBalance h
        = state.totalSubscribed ∧
      0 ≤ state.totalSubscribed ∧ state.totalSubscribed ≤ config.totalSupply := by
  have hb := issuerRun_sound clock self admin l id
  have htotal := totalSubscribed_eq hstate
  have hsum := hb.ledger.sum
  refine ⟨hb.ledger.nonneg, hb.ledger.finiteSupport, hsum.trans htotal, ?_, ?_⟩
  · rw [← htotal]
    exact le_of_le_of_eq (finsum_nonneg hb.ledger.nonneg) hsum
  · rw [← htotal]
    exact hb.cap config hconfig

/-- Every signature is present, and no other contract is asked. -/
def sampleEnv : Env where
  authorized := fun _ => true
  sha256 := fun n => ⟨n⟩
  hasApprovedProject := fun _ _ => none
  getProjectMethodology := fun _ _ => none
  tokenAccepts := fun _ _ _ _ => true
  isProjectDisputed := fun _ => none
  getProjectStalenessState := fun _ _ => none
  getReport := fun _ => none
  getVerificationCount := fun _ => none

def sampleConfig : BondConfig where
  projectId := ⟨7⟩
  faceValue := 100
  couponSchedule := [200]
  creditType := .carbon
  maturityDate := 1000
  totalSupply := 50
  creditVintage := 2024
  serialNumberStart := 1
  serialNumberEnd := 50

/-- The admin issues a bond and an investor takes five units of it. -/
def sampleSubscription : List IssuerInput :=
  [.call sampleEnv (.issueBond ⟨1⟩ sampleConfig 0), .call sampleEnv (.subscribe ⟨2⟩ 1 5 0)]

theorem supply_conserved_sample :
    ∑ᶠ h, ((issuerRun ⟨10, 100⟩ ⟨0⟩ ⟨1⟩ sampleSubscription).issuer.bond 1).holderBalance h = 5 :=
  (supply_conserved ⟨10, 100⟩ ⟨0⟩ ⟨1⟩ sampleSubscription 1 sampleConfig ⟨5, .active, 100⟩
    (by decide) (by decide)).2.2.1

end VerdantBond
