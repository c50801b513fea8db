import VerdantBond.Protocol.Calculations

set_option autoImplicit false

/-! # Migration windows

While a window is open, the entry points that distribute, claim and consume are paused, and a rollback
compares the live totals with those the window recorded. Three entry points are not paused:
`sweep_undistributed` empties the total, after which the rollback fails for good, and
`confirm_retirement` and `revert_payout` change the balance of a holder. In every run in which these
three find nothing to change while a window is open, the ledgers stay and the rollback succeeds.
-/

namespace VerdantBond

open Function Machine CouponBond

/-! ## The pause -/

/-- The credit ledgers of a bond are the same. -/
structure CouponBond.SameLedgers (b b' : CouponBond) : Prop where
  escrowedCredits : ∀ holder, (b'.account holder).escrowedCredits
    = (b.account holder).escrowedCredits
  escrowedCreditsByType : ∀ holder t, (b'.account holder).escrowedCreditsByType t
    = (b.account holder).escrowedCreditsByType t
  undistributedTotal : b'.undistributedTotal = b.undistributedTotal

theorem CouponBond.SameLedgers.refl (b : CouponBond) : b.SameLedgers b :=
  ⟨fun _ => rfl, fun _ _ => rfl, rfl⟩

variable {b b' : CouponBond} {holder caller : Address} {env : Env} {clock : Clock}
  {issuer : BondIssuer} {s : CouponEngine} {id : Nat} {call : CouponCall}

theorem CouponBond.SameLedgers.trans {b'' : CouponBond} (h : b.SameLedgers b')
    (h' : b'.SameLedgers b'') : b.SameLedgers b'' where
  escrowedCredits := fun holder => (h'.escrowedCredits holder).trans (h.escrowedCredits holder)
  escrowedCreditsByType := fun holder t =>
    (h'.escrowedCreditsByType holder t).trans (h.escrowedCreditsByType holder t)
  undistributedTotal := h'.undistributedTotal.trans h.undistributedTotal

theorem CouponBond.SameLedgers.of_eq (haccount : b'.account = b.account)
    (htotal : b'.undistributedTotal = b.undistributedTotal) : b.SameLedgers b' :=
  ⟨fun holder => by rw [haccount], fun holder t => by rw [haccount], htotal⟩

/-- A call that is not paused finds nothing to change. -/
def CouponCall.Respects (b : CouponBond) : CouponCall → Prop
  | .sweepUndistributed _ _ _ => b.undistributedTotal = 0
  | .confirmRetirement _ _ _ amount _ => amount = 0
  | .revertPayout _ _ _ amount _ => amount = 0
  | _ => True

/-- A debit of nothing. -/
theorem CouponBond.debit_zero (h : b.debit holder 0 = .ok b') : b' = b := by
  obtain ⟨a, ha, rfl⟩ := debit_ok h
  obtain ⟨-, rfl⟩ := Account.debitCombined_ok ha
  rw [sub_zero, update_eq_self]

/-- The paused entry points fail while a window is open. -/
theorem CouponEngine.distribute_window {batch : CouponBatch} {r : CouponBond × CouponResult}
    (h : s.distribute env clock issuer batch = .ok r) :
    (s.bond batch.bondId).migrationWindow = none := by
  simp only [distribute, bind_ok_iff, requireNoMigrationWindow_ok_iff, exists_unit_iff] at h
  exact h.1

theorem CouponBond.settleWaterfall_window {tranches : List WaterfallTranche} {carbon bio : Int}
    {r : CouponBond × WaterfallResult} (h : b.settleWaterfall issuer tranches carbon bio = .ok r) :
    b.migrationWindow = none := by
  simp only [settleWaterfall, bind_ok_iff, requireNoMigrationWindow_ok_iff, exists_unit_iff] at h
  exact h.1

theorem CouponBond.claim_window {r : CouponBond × Int} (h : b.claim caller = .ok r) :
    b.migrationWindow = none := by
  simp only [claim, bind_ok_iff, requireNoMigrationWindow_ok_iff, exists_unit_iff] at h
  exact h.1

theorem CouponBond.consume_window {amount : Int} (h : b.consume holder amount = .ok b') :
    b.migrationWindow = none := by
  simp only [consume, bind_ok_iff, reject_ok_iff, requireNoMigrationWindow_ok_iff,
    exists_unit_iff] at h
  exact h.2.1

/-- **The pause.** A call that succeeds while a window is open, and finds nothing to change if it is
not paused, leaves the ledgers and the number of periods, and at most closes the window. -/
theorem CouponWrite.paused {reply : CouponReply}
    (h : CouponWrite env clock issuer s id call reply b b') (hopen : b.migrationWindow ≠ none)
    (hrespects : call.Respects b) :
    b.SameLedgers b' ∧ b'.periodCount = b.periodCount ∧
      (b'.migrationWindow = b.migrationWindow ∨ b'.migrationWindow = none) := by
  cases h with
  | register => exact ⟨.of_eq rfl rfl, rfl, .inl rfl⟩
  | trueUp h =>
      rw [addTrueUp_ok h]
      exact ⟨.of_eq rfl rfl, rfl, .inl rfl⟩
  | settle h => exact absurd (settleWaterfall_window h) hopen
  | claimWaterfall h => exact absurd (claimWaterfall_record h).1 hopen
  | distribute hcall hid h =>
      subst hid
      exact absurd (CouponEngine.distribute_window h) hopen
  | confirm h | revert h =>
      have hzero : _ = (0 : Int) := hrespects
      subst hzero
      rw [debit_zero h]
      exact ⟨.refl _, rfl, .inl rfl⟩
  | claim h => exact absurd (claim_window h) hopen
  | consume h => exact absurd (consume_window h) hopen
  | sweep => exact ⟨.of_eq rfl (Eq.symm hrespects), rfl, .inl rfl⟩
  | clearFlag h =>
      rw [clearFlag_ok h]
      exact ⟨.of_eq rfl rfl, rfl, .inl rfl⟩
  | beginMigration h => exact absurd (beginMigration_ok h).1 hopen
  | finalizeMigration h =>
      rw [finalizeMigration_ok h]
      exact ⟨.of_eq rfl rfl, rfl, .inr rfl⟩
  | rollbackMigration h =>
      rw [rollbackMigration_ok h]
      exact ⟨.of_eq rfl rfl, rfl, .inr rfl⟩
  | configure h =>
      rw [configureCovenant_ok h]
      exact ⟨.of_eq rfl rfl, rfl, .inl rfl⟩

/-! ## The recorded totals -/

/-- An open window recorded the totals the bond has. -/
def CouponBond.WindowExact (b : CouponBond) : Prop :=
  ∀ window, b.migrationWindow = some window →
    window.snapshotUndistributed = b.undistributedTotal ∧
      window.snapshotPeriodCount = b.periodCount

/-- A window that opens records the totals of the moment. -/
theorem RestStep.windowExact (h : RestStep env clock issuer s id call b b')
    (hnone : b.migrationWindow = none) : b'.WindowExact := by
  intro window hwindow
  -- all but one kind of call leave the bond without a window
  have hnew : b'.migrationWindow = none →
      window.snapshotUndistributed = b'.undistributedTotal ∧
        window.snapshotPeriodCount = b'.periodCount := by
    intro hclosed
    rw [hclosed] at hwindow
    cases hwindow
  cases h with
  | plain _ _ hrest => exact hnew (hrest.migrationWindow.trans hnone)
  | trueUp | sweep | configure => exact hnew hnone
  | migrate _ hopen =>
      obtain ⟨-, rfl⟩ := hopen window hwindow
      exact ⟨rfl, rfl⟩
  | distribute hcall hid hclosed houtcome =>
      subst hid
      cases houtcome with
      | flagged flag hb' =>
          subst hb'
          exact hnew hnone
      | paid _ _ _ _ hprepared _ hrest =>
          refine hnew (hrest.migrationWindow.trans ?_)
          rcases hprepared with hfirst | hlater
          · exact hfirst.aside.migrationWindow.trans hnone
          · exact hlater.aside.migrationWindow.trans hnone

/-- With the right totals, the admin's rollback succeeds. -/
theorem CouponEngine.exec_rollback (clock : Clock) (issuer : BondIssuer) {window : MigrationWindow}
    (hadmin : s.admin = some caller) (hauth : env.authorized caller = true) (hid : id ≤ u64Max)
    (hnonce : s.nonce caller + 1 ≤ u64Max) (hwindow : (s.bond id).migrationWindow = some window)
    (hexact : (s.bond id).WindowExact) :
    ∃ s', s.exec env clock issuer (.rollbackMigration caller id (s.nonce caller))
      = .ok (s', .window window) := by
  obtain ⟨htotal, hcount⟩ := hexact window hwindow
  have hnonce' : s.consumeNonce caller (s.nonce caller)
      = .ok { s with nonce := update s.nonce caller (s.nonce caller + 1) } := by
    unfold consumeNonce
    rw [reject_of_not (not_not.mpr rfl), u64_of hnonce]
    rfl
  have hhead : s.asAdmin env caller (s.nonce caller)
      = .ok { s with nonce := update s.nonce caller (s.nonce caller + 1) } := by
    simp only [asAdmin, requireAuth, hostRequire_of hauth, ok_bind, hnonce', requireAdmin, hadmin,
      okOr_some, reject_of_not (not_not.mpr rfl), pure_eq_ok]
  have hrecord : (s.bond id).rollbackMigration
      = .ok ({ s.bond id with migrationWindow := none }, window) := by
    unfold CouponBond.rollbackMigration
    rw [hwindow, okOr_some, ok_bind, reject_of_not]
    · rfl
    · rw [htotal, hcount]
      exact fun hne => hne.elim (fun hne => hne rfl) (fun hne => hne rfl)
  have htyped : (CouponCall.rollbackMigration caller id (s.nonce caller)).WellTyped :=
    ⟨hid, by omega⟩
  refine ⟨setBond { s with nonce := update s.nonce caller (s.nonce caller + 1) } id
    { s.bond id with migrationWindow := none }, ?_⟩
  simp only [exec, hostRequire_of htyped, dispatch, CouponReply.ofResult, rollbackMigration, hhead,
    hrecord, ok_bind, pure_eq_ok]

/-! ## Runs -/

/-- While a window of the bond is open, an event that sweeps or debits it finds nothing to change. -/
def PauseRespected (id : Nat) (e : ProtocolEvent) : Prop :=
  (e.pre.engine.bond id).migrationWindow ≠ none →
    ∀ env call, callOn id e = some (env, call) → call.Respects (e.pre.engine.bond id)

theorem protocolRun_windowExact (d : Deployment) (l : List ProtocolInput) (id : Nat)
    (hpause : ∀ e ∈ protocolHistory d l, PauseRespected id e) :
    ((protocolRun d l).engine.bond id).WindowExact := by
  refine protocolMachine.run_guarded (P := fun w => (w.engine.bond id).WindowExact) ?_
    (fun l i ih hguard => ?_) l hpause
  · intro window hwindow
    cases hwindow
  · rcases (protocolRun d l).event_write i id with ⟨-, hsame⟩ | ⟨env, call, reply, hcall, hwrite⟩
    · show ((protocolRun d l).step i).1.engine.bond id |>.WindowExact
      rw [hsame]
      exact ih
    · by_cases hopen : ((protocolRun d l).engine.bond id).migrationWindow = none
      · exact (hwrite.rest (protocolRun_couponSound d l id).pinned).windowExact hopen
      · obtain ⟨hledgers, hcount, hwindow⟩ := hwrite.paused hopen (hguard hopen env call hcall)
        intro window hsome
        have hpost : (((protocolRun d l).step i).1.engine.bond id).migrationWindow = some window :=
          hsome
        rcases hwindow with hkept | hclosed
        · show window.snapshotUndistributed
            = (((protocolRun d l).step i).1.engine.bond id).undistributedTotal ∧
              window.snapshotPeriodCount = (((protocolRun d l).step i).1.engine.bond id).periodCount
          rw [hledgers.undistributedTotal, hcount]
          exact ih window (hkept.symm.trans hpost)
        · rw [hclosed] at hpost
          cases hpost

/-- From a state with an open window on, the ledgers stay until the window is closed. -/
theorem protocolRun_ledgers (d : Deployment) (l l' : List ProtocolInput) (id : Nat)
    (hpause : ∀ e ∈ protocolHistory d (l ++ l'), PauseRespected id e)
    (hopen : ∀ l₁ i l₂, l' = l₁ ++ i :: l₂ →
      ((protocolRun d (l ++ l₁)).engine.bond id).migrationWindow ≠ none) :
    ((protocolRun d l).engine.bond id).SameLedgers ((protocolRun d (l ++ l')).engine.bond id) := by
  induction l' using List.reverseRecOn with
  | nil =>
      rw [List.append_nil]
      exact .refl _
  | append_singleton l' i ih =>
      rw [← List.append_assoc] at hpause ⊢
      have hhistory : protocolHistory d (l ++ l' ++ [i])
          = protocolHistory d (l ++ l') ++ [protocolMachine.event (protocolRun d (l ++ l')) i] :=
        protocolMachine.history_snoc _ _ _
      rw [hhistory] at hpause
      refine (ih (fun e he => hpause e (List.mem_append_left _ he)) (fun l₁ j l₂ heq => ?_)).trans ?_
      · refine hopen l₁ j (l₂ ++ [i]) ?_
        rw [heq, List.append_assoc, List.cons_append]
      · have hlast := hpause _ (List.mem_append_right _ (List.mem_singleton.mpr rfl))
        have hwindow := hopen l' i [] rfl
        rw [protocolRun_snoc]
        rcases (protocolRun d (l ++ l')).event_write i id with ⟨-, hsame⟩ |
          ⟨env, call, reply, hcall, hwrite⟩
        · rw [hsame]
          exact .refl _
        · exact (hwrite.paused hwindow (hlast hwindow env call hcall)).1

/-- **An open window can be rolled back.** In every run in which sweeps and debits of the bond find
nothing to change while its window is open: from any state with an open window on, the ledgers stay
until it is closed, by whatever calls, and as long as it is open the admin's rollback succeeds. -/
theorem open_window_rolls_back (d : Deployment) (l l' : List ProtocolInput) (id : Nat)
    (hpause : ∀ e ∈ protocolHistory d (l ++ l'), PauseRespected id e)
    (hopen : ∀ l₁ i l₂, l' = l₁ ++ i :: l₂ →
      ((protocolRun d (l ++ l₁)).engine.bond id).migrationWindow ≠ none) :
    ((protocolRun d l).engine.bond id).SameLedgers ((protocolRun d (l ++ l')).engine.bond id) ∧
      ∀ window env caller,
        ((protocolRun d (l ++ l')).engine.bond id).migrationWindow = some window →
        (protocolRun d (l ++ l')).engine.admin = some caller → env.authorized caller = true →
        id ≤ u64Max → (protocolRun d (l ++ l')).engine.nonce caller + 1 ≤ u64Max →
        ((protocolRun d (l ++ l')).step (.coupon env (.rollbackMigration caller id
          ((protocolRun d (l ++ l')).engine.nonce caller)))).2 = some (.coupon (.window window)) := by
  refine ⟨protocolRun_ledgers d l l' id hpause hopen, ?_⟩
  intro window env caller hwindow hadmin hauth hid hnonce
  obtain ⟨s', hexec⟩ := CouponEngine.exec_rollback (protocolRun d (l ++ l')).base.clock
    (protocolRun d (l ++ l')).base.issuer hadmin hauth hid hnonce hwindow
    (protocolRun_windowExact d (l ++ l') id hpause)
  simp only [ProtocolWorld.step, hexec]

/-! ## A sweep in an open window -/

/-- The only batch of a period pays nobody, and the window is opened. -/
def sampleWindow : List ProtocolInput :=
  sampleIssue ++ [.coupon sampleOracle (.distributeCoupon ⟨1⟩ 1 0 [⟨3⟩] 1 1),
    .coupon sampleOracle (.beginMigration ⟨1⟩ 1 2)]

/-- The admin sweeps and hands the contract over. -/
def sampleSwept : List ProtocolInput :=
  sampleWindow ++ [.coupon sampleOracle (.sweepUndistributed ⟨1⟩ 1 3),
    .coupon sampleOracle (.setAdmin ⟨1⟩ ⟨9⟩ 4)]

/-- A coupon is refused, and the contract is handed over. -/
def sampleQuiet : List ProtocolInput :=
  [.coupon sampleOracle (.distributeCoupon ⟨1⟩ 1 1 [⟨3⟩] 2 3), .coupon sampleOracle (.setAdmin ⟨1⟩ ⟨9⟩ 3)]

/-- Without the sweep the new admin can roll the window back. -/
theorem open_window_rolls_back_sample :
    ((protocolRun sampleDeployment (sampleWindow ++ sampleQuiet)).step
      (.coupon sampleOracle (.rollbackMigration ⟨9⟩ 1 0))).2
        = some (.coupon (.window ⟨100, 5000000, 1⟩)) := by
  refine (open_window_rolls_back sampleDeployment sampleWindow sampleQuiet 1 ?_ ?_).2
    ⟨100, 5000000, 1⟩ sampleOracle ⟨9⟩ (by decide) (by decide) rfl (by decide) (by decide)
  · intro e he
    simp only [protocolHistory, sampleQuiet, sampleWindow, sampleIssue, sampleSubscription, List.map_cons,
      List.map_nil, List.cons_append, List.nil_append, Machine.history, List.mem_cons,
      List.not_mem_nil, or_false] at he
    intro hopen env call hcall
    have hinput := couponCall_of_callOn hcall
    rcases he with rfl | rfl | rfl | rfl | rfl | rfl | rfl <;> cases hinput <;> trivial
  · rintro (_ | ⟨x, _ | ⟨y, l₁⟩⟩) i l₂ heq
    · decide
    · cases heq
      decide
    · simp [sampleQuiet] at heq

/-- The new admin can finalize, with another total than when the window opened, but not roll back. -/
theorem swept_window_stays :
    ((protocolRun sampleDeployment sampleWindow).engine.bond 1).undistributedTotal = 5000000 ∧
      ((protocolRun sampleDeployment sampleSwept).engine.bond 1).migrationWindow
        = some ⟨100, 5000000, 1⟩ ∧
      (protocolRun sampleDeployment sampleSwept).engine.admin = some ⟨9⟩ ∧
      (protocolRun sampleDeployment sampleSwept).engine.nonce ⟨9⟩ = 0 ∧
      ((protocolRun sampleDeployment sampleSwept).step
        (.coupon sampleOracle (.rollbackMigration ⟨9⟩ 1 0))).2 = none ∧
      ((protocolRun sampleDeployment sampleSwept).step
        (.coupon sampleOracle (.finalizeMigration ⟨9⟩ 1 0))).2 = some (.coupon .unit) ∧
      (((protocolRun sampleDeployment sampleSwept).step
        (.coupon sampleOracle (.finalizeMigration ⟨9⟩ 1 0))).1.engine.bond 1).undistributedTotal
          = 0 := by
  decide

end VerdantBond
