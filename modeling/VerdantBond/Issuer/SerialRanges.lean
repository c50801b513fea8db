import Mathlib.Order.Interval.Set.Disjoint
import VerdantBond.Issuer.Moves
import VerdantBond.Issuer.Supply
import Mathlib.Order.CompletePartialOrder

set_option autoImplicit false

/-! # BondIssuer: serial ranges

Issuance compares the serial range of a new bond with the list stored for its project and
vintage. The list holds the range of every bond issued so far, and no other call touches the
list or a configuration, so the ranges of any two bonds of one project and vintage are disjoint.
-/

namespace VerdantBond

open Function Machine BondIssuer

/-- The serial numbers of a range. -/
def SerialRange.numbers (r : SerialRange) : Set Int := Set.Icc r.start r.end

/-- The test of `issue_bond` finds every common number. -/
theorem SerialRange.disjoint_of_not_overlaps {r r' : SerialRange} (h : ¬ r.Overlaps r') :
    Disjoint r.numbers r'.numbers := by
  rw [Set.disjoint_left]
  rintro n ⟨h1, h2⟩ ⟨h3, h4⟩
  apply h
  show max r.start r'.start ≤ min r.end r'.end
  omega

/-! ## Only issuance writes a configuration or a range -/

namespace Bond

variable {clock : Clock} {b b' : Bond} {amount : Int}

theorem subscribe_config {investor : Address} (h : b.subscribe clock investor amount = .ok b') :
    b'.config = b.config := by
  obtain ⟨_, _, _, _, -, -, -, -, -, -, -, -, -, rfl⟩ := subscribe_ok h
  rfl

theorem transfer_config {blocked : Address → Bool} {source target : Address}
    (h : b.transfer blocked clock source target amount = .ok b') : b'.config = b.config := by
  obtain ⟨_, _, _, _, -, -, -, -, -, -, -, -, -, -, -, -, rfl⟩ := transfer_ok h
  rfl

theorem settleSubscription_config {env : Env} {self : Address} {tokens tokens' : TokenBalances}
    {auction : AuctionState}
    (h : b.settleSubscription env clock self tokens = .ok (b', tokens', auction)) :
    b'.config = b.config := by
  obtain ⟨_, _, _, _, m, _, -, -, -, -, -, -, -, -, hm, -, rfl⟩ := settleSubscription_ok h
  obtain ⟨hframe, -⟩ := foldlM_mintAndRefund_ok hm
  show m.bond.config = b.config
  rw [hframe]

theorem process_config {limit completed : Nat} (h : b.process clock limit = .ok (b', completed)) :
    b'.config = b.config := by
  refine (process_trail h).induct (P := fun x => x.config = b.config) (fun x y hx hstep => ?_) rfl
  rw [← hx]
  cases hstep with
  | same => rfl
  | request _ _ h =>
      obtain ⟨-, rfl⟩ := push_ok h
      rfl
  | openCycle => rfl
  | pay => rfl

end Bond

variable {clock : Clock} {s s' : BondIssuer} {env : Env} {call : IssuerCall}

theorem BondIssuer.enqueue_config {holder : Address} {bondId n : Nat} {amount : Int}
    {requestKey : Bytes32} {nonce : Nat}
    (h : s.enqueue clock holder bondId amount requestKey nonce = .ok (s', n)) :
    s'.committedRanges = s.committedRanges ∧ ∀ id, (s'.bond id).config = (s.bond id).config := by
  rcases enqueue_ok h with ⟨-, rfl⟩ | ⟨-, -, s₁, b, hn, hb, rfl, -⟩
  · exact ⟨rfl, fun _ => rfl⟩
  · obtain ⟨-, rfl⟩ := consumeNonce_ok hn
    obtain ⟨-, rfl⟩ := Bond.push_ok hb
    refine ⟨rfl, fun id => ?_⟩
    by_cases hid : id = bondId
    · rw [hid, setBond_bond_same]
      rfl
    · rw [setBond_bond_other _ _ hid]

theorem BondIssuer.setBond_config {bondId : Nat} {b : Bond} (h : b.config = (s.bond bondId).config)
    (id : Nat) : ((s.setBond bondId b).bond id).config = (s.bond id).config := by
  by_cases hid : id = bondId
  · rw [hid, setBond_bond_same, h]
  · rw [setBond_bond_other _ _ hid]

/-- The next bond is issued with the configuration `config`. -/
structure BondIssuer.Issues (s s' : BondIssuer) (config : BondConfig) : Prop where
  range : config.serialNumberStart ≤ config.serialNumberEnd
  apart : ∀ r ∈ s.committedRanges config.projectId config.creditVintage,
    ¬ config.serialRange.Overlaps r
  ranges : s'.committedRanges = update s.committedRanges config.projectId
    (update (s.committedRanges config.projectId) config.creditVintage
      (s.committedRanges config.projectId config.creditVintage ++ [config.serialRange]))
  config : ∀ id, (s'.bond id).config
    = if id = s.bondCount + 1 then some config else (s.bond id).config

/-- A call issues a bond, or keeps every configuration and every list of ranges. -/
theorem IssuerMove.config_cases (h : IssuerMove env clock s call s') :
    (s'.committedRanges = s.committedRanges ∧ ∀ id, (s'.bond id).config = (s.bond id).config) ∨
      ∃ config, s.Issues s' config := by
  cases h with
  | setAdmin | proposeAdmin | acceptAdmin | cancelAdminProposal | setting =>
      exact .inl ⟨rfl, fun _ => rfl⟩
  | @issue call a config b _ _ hrange hapart hconfig =>
      refine .inr ⟨config, hrange, hapart, rfl, fun id => ?_⟩
      show (update s.bond (s.bondCount + 1) b id).config = _
      by_cases hid : id = s.bondCount + 1
      · rw [if_pos hid, hid, update_self, hconfig]
      · rw [if_neg hid, update_of_ne hid]
  | subscribe _ h => exact .inl ⟨rfl, setBond_config (Bond.subscribe_config h)⟩
  | transfer _ h => exact .inl ⟨rfl, setBond_config (Bond.transfer_config h)⟩
  | operation tokens _ _ hconfig => exact .inl ⟨rfl, setBond_config hconfig⟩
  | settle h => exact .inl ⟨rfl, setBond_config (Bond.settleSubscription_config h)⟩
  | request _ h => exact .inl (enqueue_config h)
  | process h => exact .inl ⟨rfl, setBond_config (Bond.process_config h)⟩
  | redeem _ _ h _ hpaid =>
      obtain ⟨hranges, hconfig⟩ := enqueue_config h
      refine .inl ⟨hranges, fun id => ?_⟩
      rw [setBond_config (Bond.process_config hpaid), hconfig]

/-! ## The invariant -/

/-- Every bond's range is on the list of its project and vintage. -/
def BondIssuer.RangesListed (s : BondIssuer) : Prop :=
  ∀ id c, (s.bond id).config = some c →
    c.serialRange ∈ s.committedRanges c.projectId c.creditVintage

/-- The serial ranges assigned at issuance: none is empty, and those of two bonds of one project
and vintage have no number in common. -/
structure BondIssuer.SerialRangesApart (s : BondIssuer) : Prop where
  nonempty : ∀ id c, (s.bond id).config = some c → c.serialRange.numbers.Nonempty
  disjoint : ∀ id id' c c', id ≠ id' → (s.bond id).config = some c →
    (s.bond id').config = some c' → c.projectId = c'.projectId →
    c.creditVintage = c'.creditVintage → Disjoint c.serialRange.numbers c'.serialRange.numbers

namespace BondIssuer.Issues

variable {s s' : BondIssuer} {config : BondConfig}

/-- A configuration after the issuance is the new one or an old one. -/
theorem config_cases (h : s.Issues s' config) {id : Nat} {c : BondConfig}
    (hc : (s'.bond id).config = some c) :
    (id = s.bondCount + 1 ∧ c = config) ∨ (s.bond id).config = some c := by
  rw [h.config] at hc
  by_cases hid : id = s.bondCount + 1
  · rw [if_pos hid] at hc
    exact .inl ⟨hid, (Option.some.inj hc).symm⟩
  · rw [if_neg hid] at hc
    exact .inr hc

/-- One list grows by the new range, every other one is kept. -/
theorem mem_ranges (h : s.Issues s' config) (p : Bytes32) (v : Nat) (r : SerialRange) :
    r ∈ s'.committedRanges p v ↔ r ∈ s.committedRanges p v ∨
      (p = config.projectId ∧ v = config.creditVintage ∧ r = config.serialRange) := by
  rw [h.ranges]
  by_cases hp : p = config.projectId
  · subst hp
    rw [update_self]
    by_cases hv : v = config.creditVintage
    · subst hv
      simp
    · simp [hv]
  · simp [hp]

theorem rangesListed (h : s.Issues s' config) (hs : s.RangesListed) : s'.RangesListed := by
  intro id c hc
  rw [h.mem_ranges]
  rcases h.config_cases hc with ⟨-, rfl⟩ | hold
  · exact .inr ⟨rfl, rfl, rfl⟩
  · exact .inl (hs id c hold)

theorem rangesApart (h : s.Issues s' config) (hlisted : s.RangesListed)
    (hs : s.SerialRangesApart) : s'.SerialRangesApart := by
  -- the new range was compared with the range of every older bond
  have hnew : ∀ id c, (s.bond id).config = some c → config.projectId = c.projectId →
      config.creditVintage = c.creditVintage →
      Disjoint config.serialRange.numbers c.serialRange.numbers := by
    intro id c hc hp hv
    apply SerialRange.disjoint_of_not_overlaps
    apply h.apart
    rw [hp, hv]
    exact hlisted id c hc
  constructor
  · intro id c hc
    rcases h.config_cases hc with ⟨-, rfl⟩ | hold
    · exact Set.nonempty_Icc.mpr h.range
    · exact hs.nonempty id c hold
  · intro id id' c c' hne hc hc' hp hv
    rcases h.config_cases hc with ⟨hid, rfl⟩ | hold
    · rcases h.config_cases hc' with ⟨hid', -⟩ | hold'
      · exact absurd (hid.trans hid'.symm) hne
      · exact hnew id' c' hold' hp hv
    · rcases h.config_cases hc' with ⟨-, rfl⟩ | hold'
      · exact (hnew id c hold hp.symm hv.symm).symm
      · exact hs.disjoint id id' c c' hne hold hold' hp hv

end BondIssuer.Issues

theorem IssuerMove.rangesApart (h : IssuerMove env clock s call s') (hlisted : s.RangesListed)
    (hs : s.SerialRangesApart) : s'.RangesListed ∧ s'.SerialRangesApart := by
  rcases h.config_cases with ⟨hranges, hconfig⟩ | ⟨config, hissues⟩
  · refine ⟨?_, ?_, ?_⟩
    · intro id c hc
      rw [hconfig] at hc
      rw [hranges]
      exact hlisted id c hc
    · intro id c hc
      rw [hconfig] at hc
      exact hs.nonempty id c hc
    · intro id id' c c' hne hc hc'
      rw [hconfig] at hc hc'
      exact hs.disjoint id id' c c' hne hc hc'
  · exact ⟨hissues.rangesListed hlisted, hissues.rangesApart hlisted hs⟩

/-- **Serial ranges are pairwise disjoint.** After every run, whatever the order of issuances by
`issue_bond` and `issue_auction`, no serial number belongs to two bonds of one project and
vintage. -/
theorem serial_ranges_disjoint (clock : Clock) (self admin : Address) (l : List IssuerInput) :
    (issuerRun clock self admin l).issuer.SerialRangesApart := by
  suffices h : (issuerRun clock self admin l).issuer.RangesListed ∧
      (issuerRun clock self admin l).issuer.SerialRangesApart from h.2
  refine issuerMachine.run_invariant
    (P := fun w => w.issuer.RangesListed ∧ w.issuer.SerialRangesApart) ⟨?_, ?_, ?_⟩ ?_ l
  · intro _ _ h
    cases h
  · intro _ _ h
    cases h
  · intro _ _ _ _ _ h
    cases h
  · rintro w i ⟨hlisted, hapart⟩
    rcases w.step_move i with ⟨hsame, -⟩ | ⟨env, call, rfl, hmove, -⟩
    · show (w.step i).1.issuer.RangesListed ∧ (w.step i).1.issuer.SerialRangesApart
      rw [hsame]
      exact ⟨hlisted, hapart.nonempty, hapart.disjoint⟩
    · exact hmove.rangesApart hlisted hapart

end VerdantBond
