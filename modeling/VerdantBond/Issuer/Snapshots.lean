import VerdantBond.Issuer.Supply

set_option autoImplicit false

/-! # BondIssuer: historical balances

`get_holder_balance_at_version` and `total_subscribed_at_version` answer about an earlier balance
version. The answers are compared with the records the bond really had: `bondRecords` lists the
bond's record after every balance operation of a run, the rounds of the queue loop included.
-/

namespace VerdantBond

open Function Machine SnapshotLedger

/-! ## The reads -/

namespace Bond

/-- The bisection, and the fallback to the live balance, read the ledger at the version. -/
theorem holderBalanceAtVersion_eq {b : Bond} (hb : b.ledger.Consistent) (h : Address) (v : Nat) :
    b.holderBalanceAtVersion h v = .ok (b.ledger.balanceAt h v) := by
  unfold holderBalanceAtVersion
  by_cases hc : (b.holderLog h).count = 0
  · have hzero : ∀ v, (b.holderLog h).valueAt 0 v = 0 := fun v => by
      simp only [VersionLog.valueAt, hc, VersionLog.scan]
    have hbal : (b.holderLog h).valueAt 0 b.balanceVersion = b.holderBalance h :=
      (hb.tracked h).current
    rw [if_pos hc, ← hbal, hzero]
    exact congrArg Except.ok (hzero v).symm
  · rw [if_neg hc]
    exact VersionLog.search_eq_valueAt 0 (hb.tracked h).valid v

theorem totalSubscribedAtVersion_eq {b : Bond} (hb : b.ledger.Consistent) {state : BondState}
    (hs : b.state = some state) (v : Nat) :
    b.totalSubscribedAtVersion v = .ok (b.ledger.totalAt v) := by
  unfold totalSubscribedAtVersion
  by_cases hc : b.supplyLog.count = 0
  · have hzero : ∀ v, b.supplyLog.valueAt 0 v = 0 := fun v => by
      simp only [VersionLog.valueAt, hc, VersionLog.scan]
    have htot : b.supplyLog.valueAt 0 b.balanceVersion = b.totalSubscribed :=
      hb.totalTracked.current
    rw [totalSubscribed_eq hs] at htot
    rw [if_pos hc]
    rw [hs, okOr_some, ok_bind, pure_eq_ok, ← htot, hzero]
    exact congrArg Except.ok (hzero v).symm
  · rw [if_neg hc]
    exact VersionLog.search_eq_valueAt 0 hb.totalTracked.valid v

end Bond

namespace BondIssuer

variable {s : BondIssuer} {id : Nat} {state : BondState}

theorem getBalanceVersion_eq (hs : (s.bond id).state = some state) :
    s.getBalanceVersion id = .ok (s.bond id).balanceVersion := by
  rw [getBalanceVersion, reject_of_not (by simp [hs]), ok_bind, pure_eq_ok]

theorem getHolderBalanceAtVersion_eq {v : Nat} (hb : (s.bond id).ledger.Consistent)
    (hs : (s.bond id).state = some state) (hv : v ≤ (s.bond id).balanceVersion) (h : Address) :
    s.getHolderBalanceAtVersion id h v = .ok ((s.bond id).ledger.balanceAt h v) := by
  rw [getHolderBalanceAtVersion, getBalanceVersion_eq hs, ok_bind,
    reject_of_not (Nat.not_lt.mpr hv), ok_bind, Bond.holderBalanceAtVersion_eq hb]

theorem totalSubscribedAtVersion_eq {v : Nat} (hb : (s.bond id).ledger.Consistent)
    (hs : (s.bond id).state = some state) (hv : v ≤ (s.bond id).balanceVersion) :
    s.totalSubscribedAtVersion id v = .ok ((s.bond id).ledger.totalAt v) := by
  rw [totalSubscribedAtVersion, getBalanceVersion_eq hs, ok_bind,
    reject_of_not (Nat.not_lt.mpr hv), ok_bind, Bond.totalSubscribedAtVersion_eq hb hs]

end BondIssuer

/-! ## The records of a run -/

section Runs

variable (clock : Clock) (self admin : Address)

/-- The records of the bond `id` along a run: blank at first, then after each balance operation. -/
def bondRecords (l : List IssuerInput) (id : Nat) : List Bond :=
  Bond.unissued :: (issuerMachine.history (IssuerWorld.deploy clock self admin) l).flatMap
    (fun e => e.pre.visits id e.input)

theorem bondRecords_snoc (l : List IssuerInput) (i : IssuerInput) (id : Nat) :
    bondRecords clock self admin (l ++ [i]) id = bondRecords clock self admin l id ++
      (issuerRun clock self admin l).visits id i := by
  simp only [bondRecords, issuerMachine.history_snoc, List.flatMap_append, List.flatMap_singleton,
    List.cons_append]
  rfl

/-- A trail of elementary steps extends the records. -/
theorem recorded_trail {clock : Clock} {kind : CallKind} {b b' : Bond} {bs : List Bond}
    (ht : Trail (BondStep clock kind) b bs b') (records : List Bond) :
    b.Sound → Recorded (records.map Bond.ledger) b.ledger →
      Recorded ((records ++ bs).map Bond.ledger) b'.ledger := by
  induction ht generalizing records with
  | nil b =>
      intro _ hr
      simpa using hr
  | @cons b b₁ b' bs hstep _ ih =>
      intro hb hr
      have hr₁ := hr.step hb.ledger hstep.ledger_step
      have := ih (records ++ [b₁]) (hstep.sound hb) (by simpa using hr₁)
      simpa using this

theorem bond_recorded (l : List IssuerInput) (id : Nat) :
    Recorded ((bondRecords clock self admin l id).map Bond.ledger)
      ((issuerRun clock self admin l).issuer.bond id).ledger := by
  induction l using List.reverseRecOn with
  | nil => exact Recorded.start Bond.sound_unissued.ledger rfl
  | append_singleton l i ih =>
      rw [bondRecords_snoc, issuerRun_snoc]
      exact recorded_trail (IssuerWorld.step_trail (issuerRun_fresh clock self admin l) i id) _
        (issuerRun_sound clock self admin l id) ih

/-- Versions never go back, and what persists in one step persists in every run. -/
theorem bond_later (l l' : List IssuerInput) (id : Nat) :
    let b := (issuerRun clock self admin l).issuer.bond id
    let b' := (issuerRun clock self admin (l ++ l')).issuer.bond id
    b.Persists b' ∧ b.balanceVersion ≤ b'.balanceVersion ∧
      ∀ v ≤ b.balanceVersion, (∀ h, b'.ledger.balanceAt h v = b.ledger.balanceAt h v) ∧
        b'.ledger.totalAt v = b.ledger.totalAt v := by
  intro b
  induction l' using List.reverseRecOn with
  | nil =>
      rw [List.append_nil]
      exact ⟨.refl _, le_refl _, fun v _ => ⟨fun _ => rfl, rfl⟩⟩
  | append_singleton l' i ih =>
      have ht := IssuerWorld.step_trail (issuerRun_fresh clock self admin (l ++ l')) i id
      have hsound := issuerRun_sound clock self admin (l ++ l') id
      rw [← List.append_assoc, issuerRun_snoc]
      refine (ht.induct (P := fun x => x.Sound ∧ b.Persists x ∧
        b.balanceVersion ≤ x.balanceVersion ∧
        ∀ v ≤ b.balanceVersion, (∀ h, x.ledger.balanceAt h v = b.ledger.balanceAt h v) ∧
          x.ledger.totalAt v = b.ledger.totalAt v) ?_ ⟨hsound, ih⟩).2
      rintro x y ⟨hx, hp, hv, hpast⟩ hstep
      refine ⟨hstep.sound hx, hp.trans hstep.persists, le_trans hv hstep.ledger_step.version_le, ?_⟩
      intro v hvb
      obtain ⟨h1, h2⟩ := hstep.ledger_step.past hx.ledger (le_trans hvb hv)
      obtain ⟨h3, h4⟩ := hpast v hvb
      exact ⟨fun h => by rw [h1, h3], by rw [h2, h4]⟩

/-- The answers about one version are a ledger of their own: nobody is negative, and no holders
together hold more than the total. -/
theorem snapshot_sums (l : List IssuerInput) (id : Nat) {v : Nat}
    (hv : v ≤ ((issuerRun clock self admin l).issuer.bond id).balanceVersion) :
    let L := ((issuerRun clock self admin l).issuer.bond id).ledger
    (∀ h, 0 ≤ L.balanceAt h v) ∧ 0 ≤ L.totalAt v ∧
      ∀ holders : List Address, holders.Nodup →
        (holders.map fun h => L.balanceAt h v).sum ≤ L.totalAt v := by
  intro L
  have hrec := bond_recorded clock self admin l id
  obtain ⟨r, hr, rfl⟩ := hrec.complete v hv
  obtain ⟨hcons, -, hbal, htot⟩ := hrec.exact r hr
  refine ⟨fun h => ?_, ?_, fun holders hnodup => ?_⟩
  · rw [hbal]
    exact hcons.nonneg h
  · rw [htot, ← hcons.sum]
    exact finsum_nonneg hcons.nonneg
  · rw [htot, ← hcons.sum, List.map_congr_left fun h _ => hbal h]
    exact sum_le_finsum hcons.finiteSupport hcons.nonneg holders hnodup

end Runs

/-- **Historical snapshots are exact and immutable.** For every version `v` of an issued bond
there is a record of the run with that version; `r` is the first, the one the operation that set
the version left. The two reads return its balances and its total, now and after any further
inputs `l'`, and its balances sum to its total. At version zero all are zero. -/
theorem snapshots_exact (clock : Clock) (self admin : Address) (l : List IssuerInput) (id v : Nat)
    (hissued : ((issuerRun clock self admin l).issuer.bond id).state.isSome = true)
    (hv : v ≤ ((issuerRun clock self admin l).issuer.bond id).balanceVersion) :
    ∃ r, (bondRecords clock self admin l id).find? (fun r => r.balanceVersion = v) = some r ∧
      (v = 0 → (∀ h, r.holderBalance h = 0) ∧ r.totalSubscribed = 0) ∧
      ∑ᶠ h, r.holderBalance h = r.totalSubscribed ∧
      ∀ l', (∀ h, (issuerRun clock self admin (l ++ l')).issuer.getHolderBalanceAtVersion id h v
          = .ok (r.holderBalance h)) ∧
        (issuerRun clock self admin (l ++ l')).issuer.totalSubscribedAtVersion id v
          = .ok r.totalSubscribed := by
  have hrec := bond_recorded clock self admin l id
  obtain ⟨state, hstate⟩ := Option.isSome_iff_exists.mp hissued
  -- some record has the version, so the search for the first one succeeds
  have hsome : ((bondRecords clock self admin l id).find?
      (fun r => r.balanceVersion = v)).isSome = true := by
    obtain ⟨L, hL, hLv⟩ := hrec.complete v hv
    obtain ⟨r, hr, rfl⟩ := List.mem_map.mp hL
    exact List.find?_isSome.mpr ⟨r, hr, decide_eq_true hLv⟩
  obtain ⟨r, hfind⟩ := Option.isSome_iff_exists.mp hsome
  have hrv : r.balanceVersion = v := by
    have := List.find?_some hfind
    exact of_decide_eq_true this
  obtain ⟨hcons, -, hbal, htot⟩ := hrec.exact r.ledger
    (List.mem_map_of_mem (List.mem_of_find?_eq_some hfind))
  refine ⟨r, hfind, ?_, hcons.sum, ?_⟩
  · intro h0
    have hfirst : (bondRecords clock self admin l id).find? (fun r => r.balanceVersion = v)
        = some Bond.unissued := by
      rw [h0]
      rfl
    rw [hfind] at hfirst
    cases hfirst
    exact ⟨fun _ => rfl, rfl⟩
  · intro l'
    obtain ⟨hpersists, hle, hpast⟩ := bond_later clock self admin l l' id
    obtain ⟨state', hstate', -⟩ := hpersists.state state hstate
    have hsound := issuerRun_sound clock self admin (l ++ l') id
    obtain ⟨h1, h2⟩ := hpast v hv
    subst hrv
    refine ⟨fun h => ?_, ?_⟩
    · rw [BondIssuer.getHolderBalanceAtVersion_eq hsound.ledger hstate' (le_trans hv hle), h1]
      exact congrArg Except.ok (hbal h)
    · rw [BondIssuer.totalSubscribedAtVersion_eq hsound.ledger hstate' (le_trans hv hle), h2]
      exact congrArg Except.ok htot

/-- After five units were taken, version one answers five for the investor, whatever follows. -/
theorem snapshots_exact_sample :
    ∃ r, (bondRecords ⟨10, 100⟩ ⟨0⟩ ⟨1⟩ sampleSubscription 1).find?
        (fun r => r.balanceVersion = 1) = some r ∧ r.holderBalance ⟨2⟩ = 5 ∧
      ∀ l', (issuerRun ⟨10, 100⟩ ⟨0⟩ ⟨1⟩ (sampleSubscription ++ l')).issuer.getHolderBalanceAtVersion
        1 ⟨2⟩ 1 = .ok (r.holderBalance ⟨2⟩) := by
  obtain ⟨r, hfind, -, -, hread⟩ := snapshots_exact ⟨10, 100⟩ ⟨0⟩ ⟨1⟩ sampleSubscription 1 1
    (by decide) (by decide)
  have hbal : (((bondRecords ⟨10, 100⟩ ⟨0⟩ ⟨1⟩ sampleSubscription 1).find?
      (fun r => r.balanceVersion = 1)).map (·.holderBalance ⟨2⟩)) = some 5 := by decide
  rw [hfind] at hbal
  exact ⟨r, hfind, Option.some.inj hbal, fun l' => (hread l').1 ⟨2⟩⟩

end VerdantBond
