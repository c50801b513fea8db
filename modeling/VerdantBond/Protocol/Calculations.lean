import VerdantBond.Coupon.Outcomes
import VerdantBond.Protocol.System

set_option autoImplicit false

/-! # Pinned calculations and the issuer's snapshots

A pinned calculation names a balance version of the issuer and the total at it. In every run of the
protocol the version exists, its total is the issuer's answer, now and later, and the pools are
those of the credit type the issuer gave the bond.
-/

namespace VerdantBond

open Function Machine

/-- The calculation is about a snapshot of the issuer's bond `ib`, and fits its credit type. -/
structure CouponCalculation.OfBond (c : CouponCalculation) (ib : Bond) : Prop where
  issued : ib.state.isSome = true
  version : c.balanceVersion ≤ ib.balanceVersion
  total : c.totalSubscribed = ib.ledger.totalAt c.balanceVersion
  fits : ∃ config, ib.config = some config ∧ c.pools.Fits config.creditType

/-- The engine's record `b` of a bond, next to the issuer's `ib`. -/
structure CouponBond.Sound (b : CouponBond) (ib : Bond) : Prop where
  pinned : b.Pinned
  creditType : ∀ t, b.bondCreditType = some t → ∃ config, ib.config = some config ∧
    config.creditType = t
  calculation : ∀ p c, b.couponCalculation p = some c → c.OfBond ib

variable {c : CouponCalculation}

/-- The issuer moves on. -/
theorem CouponCalculation.OfBond.later {ib ib' : Bond} (h : c.OfBond ib)
    (hpersists : ib.Persists ib') (hversion : ib.balanceVersion ≤ ib'.balanceVersion)
    (htotal : ib'.ledger.totalAt c.balanceVersion = ib.ledger.totalAt c.balanceVersion) :
    c.OfBond ib' := by
  obtain ⟨state, hstate⟩ := Option.isSome_iff_exists.mp h.issued
  obtain ⟨state', hstate', -⟩ := hpersists.state state hstate
  obtain ⟨config, hconfig, hfits⟩ := h.fits
  exact ⟨by rw [hstate']; rfl, le_trans h.version hversion, by rw [h.total, htotal],
    config, hpersists.config config hconfig, hfits⟩

/-- A fresh calculation is about the issuer's bond of the moment. -/
theorem FreshCalculation.ofBond {issuer : BondIssuer} {s : CouponEngine} {bondId : Nat}
    {creditType : CreditType} {staleness : StalenessState} (hissuer : (issuer.bond bondId).Sound)
    (h : FreshCalculation issuer s bondId creditType staleness c) {config : BondConfig}
    (hconfig : (issuer.bond bondId).config = some config) (htype : config.creditType = creditType) :
    c.OfBond (issuer.bond bondId) := by
  have hversion := h.version
  simp only [BondIssuer.getBalanceVersion, bind_ok_iff, reject_ok_iff, pure_ok_iff,
    exists_unit_iff, Bool.not_eq_false] at hversion
  obtain ⟨hissued, hversion⟩ := hversion
  obtain ⟨state, hstate⟩ := Option.isSome_iff_exists.mp hissued
  have htotal := h.total
  rw [← hversion, BondIssuer.totalSubscribedAtVersion_eq hissuer.ledger hstate (le_refl _)] at htotal
  injection htotal with htotal
  refine ⟨hissued, le_of_eq hversion.symm, ?_, config, hconfig, htype ▸ h.fits⟩
  rw [← htotal, hversion]

namespace CouponBond.Sound

variable {env : Env} {clock : Clock} {issuer : BondIssuer} {s : CouponEngine} {id : Nat}
  {call : CouponCall} {reply : CouponReply} {b b' : CouponBond}

/-- A call keeps the record sound. -/
theorem step (hissuer : (issuer.bond id).Sound) (hb : b.Sound (issuer.bond id))
    (h : CouponStep env clock issuer s id call reply b b') : b'.Sound (issuer.bond id) := by
  have htype : ∀ t, b'.bondCreditType = some t →
      ∃ config, (issuer.bond id).config = some config ∧ config.creditType = t := by
    intro t ht
    rcases h.bondCreditType with hsame | ⟨config, hconfig, hset⟩
    · exact hb.creditType t (hsame ▸ ht)
    · simp only [BondIssuer.getBond, okOr_ok_iff] at hconfig
      rw [hset] at ht
      exact ⟨config, hconfig, Option.some.inj ht⟩
  cases hbatch : call.batch with
  | none =>
      have hsame := h.samePeriods hbatch
      refine ⟨hb.pinned.congr hsame, htype, fun p c hc => ?_⟩
      exact hb.calculation p c (hsame.couponCalculation ▸ hc)
  | some batch =>
      obtain ⟨hid, hbond, result, hdist⟩ := h.of_batch hbatch
      subst hid
      subst hbond
      obtain ⟨hpinned, ⟨-, hsame, -⟩ | ⟨-, c, payout, info, hpaid⟩⟩ :=
        CouponEngine.distribute_pinned hb.pinned hdist
      · refine ⟨hpinned, htype, fun p c hc => ?_⟩
        exact hb.calculation p c (hsame.couponCalculation ▸ hc)
      · refine ⟨hpinned, htype, fun p c' hc' => ?_⟩
        rw [hpaid.couponCalculation] at hc'
        by_cases hp : p = batch.periodIndex
        · subst hp
          rw [update_self] at hc'
          cases hc'
          obtain ⟨creditType, staleness, report, hct, -, hsource, -⟩ := hpaid.source
          rcases hsource with hold | ⟨-, hfresh⟩
          · exact hb.calculation _ c hold
          · obtain ⟨config, hconfig, heq⟩ := hb.creditType creditType hct
            exact hfresh.ofBond hissuer hconfig heq
        · rw [update_of_ne hp] at hc'
          exact hb.calculation p c' hc'

end CouponBond.Sound

/-- **Pinned calculations are about snapshots of the issuer**, in every run. -/
theorem protocolRun_couponSound (d : Deployment) (l : List ProtocolInput) (id : Nat) :
    ((protocolRun d l).engine.bond id).Sound ((protocolRun d l).base.issuer.bond id) := by
  induction l using List.reverseRecOn with
  | nil =>
      exact ⟨CouponBond.pinned_unregistered, (fun t h => by cases h), (fun p c h => by cases h)⟩
  | append_singleton l i ih =>
      -- first the call on the engine, then the issuer's move
      have hstep : ((protocolRun d (l ++ [i])).engine.bond id).Sound
          ((protocolRun d l).base.issuer.bond id) := by
        rw [protocolRun_snoc]
        rcases (protocolRun d l).step_record i id with heq | ⟨_, _, _, -, -, hstep⟩
        · rw [heq]
          exact ih
        · exact ih.step (protocolRun_issuer_sound d l id) hstep
      obtain ⟨hpersists, hversion, hpast⟩ := protocolRun_issuer_later d l i id
      refine ⟨hstep.pinned, fun t ht => ?_, fun p c hc => ?_⟩
      · obtain ⟨config, hconfig, heq⟩ := hstep.creditType t ht
        exact ⟨config, hpersists.config config hconfig, heq⟩
      · have hof := hstep.calculation p c hc
        exact hof.later hpersists hversion (hpast _ hof.version).2

/-- What an event does to the part of a record that holds no credits. -/
theorem protocolRun_rest (d : Deployment) (l : List ProtocolInput) (i : ProtocolInput) (id : Nat) :
    let w := protocolRun d l
    (callOn id (protocolMachine.event w i) = none ∧
        (w.step i).1.engine.bond id = w.engine.bond id) ∨
      ∃ env call, callOn id (protocolMachine.event w i) = some (env, call) ∧
        RestStep env w.base.clock w.base.issuer w.engine id call (w.engine.bond id)
          ((w.step i).1.engine.bond id) := by
  intro w
  rcases w.event_write i id with hidle | ⟨env, call, reply, hcall, hwrite⟩
  · exact .inl hidle
  · exact .inr ⟨env, call, hcall, hwrite.rest (protocolRun_couponSound d l id).pinned⟩

end VerdantBond
