import VerdantBond.Issuer.Moves
import VerdantBond.Issuer.Supply

set_option autoImplicit false

/-! # BondIssuer: the two-step admin handover

`propose_admin` and `accept_admin` hand the role over in two steps, `set_admin` in one.
Accepting and cancelling clear the pending proposal, but `set_admin` does not. A proposal can
therefore outlive the admin who made it: it stays acceptable until its expiry.

A proposal stands while the admin who made it has been the admin ever since. Live proposals stand
throughout a run exactly when no direct replacement finds a live proposal
(`handover_follows_proposal`).
-/

namespace VerdantBond

open Function Machine

/-! ## Handover events -/

abbrev IssuerEvent := Event IssuerWorld IssuerInput (Option IssuerReply)

namespace IssuerWorld

/-- Calls leave the clock alone. -/
theorem step_clock_eq (w : IssuerWorld) (env : Env) (call : IssuerCall) :
    (w.step (.call env call)).1.clock = w.clock := by
  rcases w.step_call env call with ⟨-, hstep⟩ | ⟨issuer, reply, -, hstep⟩ <;> rw [hstep]

theorem step_clock (w : IssuerWorld) (i : IssuerInput) :
    w.clock.sequence ≤ (w.step i).1.clock.sequence := by
  cases i with
  | call env call => rw [step_clock_eq]
  | close ledgers seconds => exact Nat.le_add_right _ _
  | tokens balances => exact le_refl _

end IssuerWorld

/-- What an entry point does about the admin role. -/
inductive Handover where
  | replace (currentAdmin newAdmin : Address)
  | propose (currentAdmin proposed : Address)
  | accept (proposed : Address)
  | cancel (currentAdmin : Address)
  deriving DecidableEq, Repr

def IssuerCall.handover : IssuerCall → Option Handover
  | .setAdmin currentAdmin newAdmin _ => some (.replace currentAdmin newAdmin)
  | .proposeAdmin currentAdmin proposed _ _ => some (.propose currentAdmin proposed)
  | .acceptAdmin proposed _ => some (.accept proposed)
  | .cancelAdminProposal currentAdmin _ => some (.cancel currentAdmin)
  | _ => none

/-- What a successful call does about the admin role. -/
def handoverIn (e : IssuerEvent) : Option Handover :=
  match e.input, e.output with
  | .call _ call, some _ => call.handover
  | _, _ => none

/-- The pending proposal, if any, is not expired. -/
def IssuerWorld.ProposalLive (w : IssuerWorld) : Prop :=
  ∃ expiry ∈ w.issuer.pendingAdminExpiry, w.clock.sequence ≤ expiry

/-- A step by what it does about the admin role. -/
inductive HandoverStep (w w' : IssuerWorld) : Option Handover → Prop where
  | none (hadmin : w'.issuer.admin = w.issuer.admin)
      (hpending : w'.issuer.pendingAdmin = w.issuer.pendingAdmin)
      (hlive : w'.ProposalLive → w.ProposalLive) : HandoverStep w w' none
  | replace {a b : Address} (hadmin : w.issuer.admin = some a) (hadmin' : w'.issuer.admin = some b)
      (hpending : w'.issuer.pendingAdmin = w.issuer.pendingAdmin)
      (hlive : w'.ProposalLive ↔ w.ProposalLive) : HandoverStep w w' (some (.replace a b))
  | propose {a p : Address} (hadmin : w.issuer.admin = some a) (hadmin' : w'.issuer.admin = some a)
      (hpending : w'.issuer.pendingAdmin = some p) : HandoverStep w w' (some (.propose a p))
  | accept {p : Address} (hpending : w.issuer.pendingAdmin = some p) (hlive : w.ProposalLive)
      (hdead : ¬ w'.ProposalLive) : HandoverStep w w' (some (.accept p))
  | cancel {a : Address} (hdead : ¬ w'.ProposalLive) : HandoverStep w w' (some (.cancel a))

variable {clock : Clock} {s s' : BondIssuer} {env : Env} {call : IssuerCall} {e : IssuerEvent}
  {w : IssuerWorld} {es : List IssuerEvent}

theorem BondIssuer.enqueue_office {holder : Address} {bondId n : Nat} {amount : Int}
    {requestKey : Bytes32} {nonce : Nat}
    (h : s.enqueue clock holder bondId amount requestKey nonce = .ok (s', n)) :
    s'.admin = s.admin ∧ s'.pendingAdmin = s.pendingAdmin ∧
      s'.pendingAdminExpiry = s.pendingAdminExpiry := by
  rcases enqueue_ok h with ⟨-, rfl⟩ | ⟨-, -, s₁, b, hn, -, rfl, -⟩
  · exact ⟨rfl, rfl, rfl⟩
  · obtain ⟨-, rfl⟩ := consumeNonce_ok hn
    exact ⟨rfl, rfl, rfl⟩

/-- The other calls leave the role and the proposal alone. -/
theorem IssuerMove.office (h : IssuerMove env clock s call s') (hcall : call.handover = none) :
    s'.admin = s.admin ∧ s'.pendingAdmin = s.pendingAdmin ∧
      s'.pendingAdminExpiry = s.pendingAdminExpiry := by
  cases h with
  | setAdmin | proposeAdmin | acceptAdmin | cancelAdminProposal => cases hcall
  | request _ h => exact BondIssuer.enqueue_office h
  | redeem _ _ h =>
      have hs₁ := BondIssuer.enqueue_office h
      exact hs₁
  | _ => exact ⟨rfl, rfl, rfl⟩

theorem handoverIn_of_failed (h : e.output = none) : handoverIn e = none := by
  unfold handoverIn
  split
  · rename_i hout
    rw [h] at hout
    cases hout
  · rfl

theorem handoverIn_call (h : (w.step (.call env call)).2.isSome = true) :
    handoverIn (issuerMachine.event w (.call env call)) = call.handover := by
  obtain ⟨reply, hreply⟩ := Option.isSome_iff_exists.mp h
  simp only [handoverIn, event, issuerMachine, hreply]

theorem IssuerMove.handover (h : IssuerMove env clock s call s') :
    HandoverStep ⟨clock, s⟩ ⟨clock, s'⟩ call.handover := by
  have hdead : ∀ s'' : BondIssuer, s''.pendingAdminExpiry = none →
      ¬ (IssuerWorld.mk clock s'').ProposalLive := by
    rintro s'' hnone ⟨expiry, hmem, -⟩
    rw [show s''.pendingAdminExpiry = none from hnone] at hmem
    cases hmem
  have hkept : call.handover = none → HandoverStep ⟨clock, s⟩ ⟨clock, s'⟩ call.handover := by
    intro hcall
    obtain ⟨hadmin, hpending, hexpiry⟩ := h.office hcall
    rw [hcall]
    refine .none hadmin hpending ?_
    rintro ⟨expiry, hmem, hle⟩
    exact ⟨expiry, hexpiry ▸ hmem, hle⟩
  cases h with
  | setAdmin _ hadmin => exact .replace hadmin rfl rfl Iff.rfl
  | proposeAdmin _ hadmin => exact .propose hadmin hadmin rfl
  | acceptAdmin _ hpending hlive => exact .accept hpending hlive (hdead _ rfl)
  | cancelAdminProposal => exact .cancel (hdead _ rfl)
  | setting _ _ hset => exact hkept (by cases call <;> first | rfl | cases hset)
  | issue hissue => exact hkept (by cases call <;> first | rfl | cases hissue)
  | operation _ hop => exact hkept (by cases call <;> first | rfl | cases hop)
  | _ => exact hkept rfl

theorem IssuerWorld.handover_step (w : IssuerWorld) (i : IssuerInput) :
    HandoverStep w (w.step i).1 (handoverIn (issuerMachine.event w i)) := by
  rcases w.step_move i with ⟨hsame, hout⟩ | ⟨env, call, rfl, hmove, hclock, hout⟩
  · rw [handoverIn_of_failed hout]
    refine .none (by rw [hsame]) (by rw [hsame]) ?_
    rintro ⟨expiry, hmem, hle⟩
    rw [hsame] at hmem
    exact ⟨expiry, hmem, le_trans (w.step_clock i) hle⟩
  · rw [handoverIn_call hout]
    have hpost : (w.step (.call env call)).1 = ⟨w.clock, (w.step (.call env call)).1.issuer⟩ := by
      rw [← hclock]
    rw [hpost]
    exact hmove.handover

/-! ## Standing proposals -/

/-- In the history `es`, `a` proposed `p` and has been the admin ever since. -/
def ProposalStands (es : List IssuerEvent) (a p : Address) : Prop :=
  ∃ before e after, es = before ++ e :: after ∧ handoverIn e = some (.propose a p) ∧
    ∀ e' ∈ after, e'.post.issuer.admin = some a

/-- Whoever accepts the role was proposed by the address that is still the admin. -/
def AcceptsStanding (before : List IssuerEvent) (e : IssuerEvent) : Prop :=
  ∀ p, handoverIn e = some (.accept p) →
    ∃ a, e.pre.issuer.admin = some a ∧ ProposalStands before a p

/-- A proposal that could be accepted now stands. -/
def LiveStands (es : List IssuerEvent) (w : IssuerWorld) : Prop :=
  w.ProposalLive → ∃ a p, w.issuer.admin = some a ∧ w.issuer.pendingAdmin = some p ∧
    ProposalStands es a p

/-- Where `set_admin` puts another address in the admin's place, no proposal is live. -/
def ReplacesCleanly (e : IssuerEvent) : Prop :=
  ∀ a b, handoverIn e = some (.replace a b) → a ≠ b → ¬ e.pre.ProposalLive

theorem not_proposalStands_nil (a p : Address) : ¬ ProposalStands [] a p := by
  rintro ⟨before, e, after, h, -⟩
  exact List.append_ne_nil_of_right_ne_nil before (List.cons_ne_nil e after) h.symm

theorem proposalStands_snoc {a p : Address} :
    ProposalStands (es ++ [e]) a p ↔ handoverIn e = some (.propose a p) ∨
      (ProposalStands es a p ∧ e.post.issuer.admin = some a) := by
  constructor
  · rintro ⟨before, e', after, h, hprop, hsince⟩
    -- the proposal is the new event, or an older one
    rcases List.eq_nil_or_concat after with rfl | ⟨after', last, rfl⟩
    · obtain ⟨-, hlast⟩ := List.append_inj' h rfl
      injection hlast with he
      rw [he]
      exact .inl hprop
    · rw [List.concat_eq_append] at h hsince
      have h' : es ++ [e] = (before ++ e' :: after') ++ [last] := by
        rw [h]
        simp
      obtain ⟨hes, hlast⟩ := List.append_inj' h' rfl
      injection hlast with he
      rw [he]
      refine .inr ⟨⟨before, e', after', hes, hprop, fun e'' hmem => ?_⟩, ?_⟩
      · exact hsince e'' (List.mem_append_left _ hmem)
      · exact hsince last (List.mem_append_right _ List.mem_cons_self)
  · rintro (hprop | ⟨⟨before, e', after, rfl, hprop, hsince⟩, hadmin⟩)
    · refine ⟨es, e, [], rfl, hprop, fun e' hmem => ?_⟩
      cases hmem
    · refine ⟨before, e', after ++ [e], by simp, hprop, fun e'' hmem => ?_⟩
      rcases List.mem_append.mp hmem with hmem | hmem
      · exact hsince e'' hmem
      · rw [List.mem_singleton.mp hmem]
        exact hadmin

/-- From a history whose live proposal stands, a step leads to such a history exactly when it
replaces cleanly. -/
theorem liveStands_step (i : IssuerInput)
    (hlast : ∀ a p, ProposalStands es a p → w.issuer.admin = some a) (h : LiveStands es w) :
    LiveStands (es ++ [issuerMachine.event w i]) (w.step i).1 ↔
      ReplacesCleanly (issuerMachine.event w i) := by
  have hstep := w.handover_step i
  generalize ho : handoverIn (issuerMachine.event w i) = o at hstep
  -- a standing proposal outlives a step that keeps its admin
  have hkept : (w.step i).1.issuer.admin = w.issuer.admin →
      (w.step i).1.issuer.pendingAdmin = w.issuer.pendingAdmin →
      ((w.step i).1.ProposalLive → w.ProposalLive) →
      LiveStands (es ++ [issuerMachine.event w i]) (w.step i).1 := by
    intro hadmin hpending hback hlive
    obtain ⟨a, p, ha, hp, hstands⟩ := h (hback hlive)
    exact ⟨a, p, hadmin.trans ha, hpending.trans hp,
      proposalStands_snoc.mpr (.inr ⟨hstands, hadmin.trans ha⟩)⟩
  -- only a replacement is asked to be clean
  have hclean : (∀ a b, o ≠ some (.replace a b)) → ReplacesCleanly (issuerMachine.event w i) :=
    fun hne a b hreplace => absurd (ho.symm.trans hreplace) (hne a b)
  cases hstep with
  | none hadmin hpending hlive =>
      exact iff_of_true (hkept hadmin hpending hlive) (hclean fun a b h => by cases h)
  | propose hadmin hadmin' hpending =>
      refine iff_of_true (fun _ => ?_) (hclean fun a b h => by cases h)
      exact ⟨_, _, hadmin', hpending, proposalStands_snoc.mpr (.inl ho)⟩
  | accept _ _ hdead =>
      exact iff_of_true (fun hlive => absurd hlive hdead) (hclean fun a b h => by cases h)
  | cancel hdead =>
      exact iff_of_true (fun hlive => absurd hlive hdead) (hclean fun a b h => by cases h)
  | @replace a b hadmin hadmin' hpending hlive =>
      by_cases hab : a = b
      · subst hab
        refine iff_of_true (hkept (hadmin'.trans hadmin.symm) hpending hlive.mp) ?_
        intro a' b' hreplace hne
        rw [ho] at hreplace
        cases hreplace
        exact absurd rfl hne
      · constructor
        · -- a live proposal would have to be the new admin's, who made none
          intro hstands a' b' _ _ hw
          obtain ⟨a₁, p, ha₁, -, hs⟩ := hstands (hlive.mpr hw)
          rcases proposalStands_snoc.mp hs with hprop | ⟨hold, -⟩
          · rw [ho] at hprop
            cases hprop
          · have hold' := hlast a₁ p hold
            rw [hadmin] at hold'
            rw [hadmin'] at ha₁
            exact absurd ((Option.some.inj hold').trans (Option.some.inj ha₁).symm) hab
        · exact fun hreplaces hlive' => absurd (hlive.mp hlive') (hreplaces a b ho hab)

section Runs

variable (clock : Clock) (self admin : Address)

/-- A proposal that stands is the present admin's. -/
theorem admin_of_proposalStands {l : List IssuerInput} {a p : Address}
    (h : ProposalStands (issuerMachine.history (IssuerWorld.deploy clock self admin) l) a p) :
    (issuerRun clock self admin l).issuer.admin = some a := by
  induction l using List.reverseRecOn with
  | nil => exact absurd h (not_proposalStands_nil a p)
  | append_singleton l i _ =>
      rw [history_snoc, proposalStands_snoc] at h
      rw [issuerRun_snoc]
      rcases h with hprop | ⟨-, hadmin⟩
      · -- only the admin proposes, and a proposal leaves the role alone
        have hstep := (issuerRun clock self admin l).handover_step i
        rw [show handoverIn (issuerMachine.event (issuerRun clock self admin l) i) = _ from hprop]
          at hstep
        cases hstep with
        | propose _ hadmin' => exact hadmin'
      · exact hadmin

theorem liveStands_iff (l : List IssuerInput) :
    (∀ l₁, l₁ <+: l → LiveStands (issuerMachine.history (IssuerWorld.deploy clock self admin) l₁)
      (issuerRun clock self admin l₁)) ↔
    ∀ e ∈ issuerMachine.history (IssuerWorld.deploy clock self admin) l, ReplacesCleanly e := by
  refine issuerMachine.always_history_iff (P := LiveStands) ?_ (fun l i h => ?_) l
  · rintro ⟨expiry, hmem, -⟩
    cases hmem
  · exact liveStands_step i (fun _ _ hs => admin_of_proposalStands clock self admin hs) h

/-- An accepted proposal was live. -/
theorem acceptsStanding_of_liveStands {es : List IssuerEvent} {w : IssuerWorld} (i : IssuerInput)
    (h : LiveStands es w) : AcceptsStanding es (issuerMachine.event w i) := by
  intro p haccept
  have hstep := w.handover_step i
  rw [haccept] at hstep
  cases hstep with
  | accept hpending hlive _ =>
      obtain ⟨a, p', ha, hp', hstands⟩ := h hlive
      rw [hpending] at hp'
      cases hp'
      exact ⟨a, ha, hstands⟩

/-- **Handover follows the proposal of the present admin, as long as replacements are clean.** In
every state of a run the proposal that could be accepted was made by the address that has been
the admin ever since, exactly when no `set_admin` to another address finds a live proposal; and
then every `accept_admin` of the run accepts such a proposal. -/
theorem handover_follows_proposal (l : List IssuerInput) :
    ((∀ l₁, l₁ <+: l → LiveStands (issuerMachine.history (IssuerWorld.deploy clock self admin) l₁)
        (issuerRun clock self admin l₁)) ↔
      ∀ e ∈ issuerMachine.history (IssuerWorld.deploy clock self admin) l, ReplacesCleanly e) ∧
    ((∀ e ∈ issuerMachine.history (IssuerWorld.deploy clock self admin) l, ReplacesCleanly e) →
      Guarded AcceptsStanding (issuerMachine.history (IssuerWorld.deploy clock self admin) l)) := by
  refine ⟨liveStands_iff clock self admin l, fun hclean => ?_⟩
  intro before e after hsplit
  obtain ⟨l₁, i, l₂, rfl, rfl, rfl⟩ := issuerMachine.history_eq_append hsplit
  have hstands := (liveStands_iff clock self admin _).mpr hclean l₁ (List.prefix_append ..)
  exact acceptsStanding_of_liveStands i hstands

end Runs

/-- The admin proposes a successor and then puts someone else in their place. -/
def sampleReplacement : List IssuerInput :=
  [.call sampleEnv (.proposeAdmin ⟨1⟩ ⟨3⟩ 0 100), .call sampleEnv (.setAdmin ⟨1⟩ ⟨2⟩ 1)]

/-- The former admin's proposal is accepted, and the admin of the day is displaced. -/
theorem stale_proposal_accepted :
    (issuerRun ⟨10, 100⟩ ⟨0⟩ ⟨1⟩ sampleReplacement).issuer.admin = some ⟨2⟩ ∧
      (issuerRun ⟨10, 100⟩ ⟨0⟩ ⟨1⟩
        (sampleReplacement ++ [.call sampleEnv (.acceptAdmin ⟨3⟩ 0)])).issuer.admin = some ⟨3⟩ ∧
      ¬ Guarded AcceptsStanding (issuerMachine.history (IssuerWorld.deploy ⟨10, 100⟩ ⟨0⟩ ⟨1⟩)
        (sampleReplacement ++ [.call sampleEnv (.acceptAdmin ⟨3⟩ 0)])) := by
  refine ⟨by decide, by decide, fun h => ?_⟩
  rw [history_snoc] at h
  obtain ⟨a, -, hstands⟩ := (guarded_snoc h).2 ⟨3⟩ (by decide)
  -- the only proposal of the run is the former admin's
  have hadmin := admin_of_proposalStands ⟨10, 100⟩ ⟨0⟩ ⟨1⟩ hstands
  have ha : a = ⟨2⟩ := by
    rw [show (issuerRun ⟨10, 100⟩ ⟨0⟩ ⟨1⟩ sampleReplacement).issuer.admin = some ⟨2⟩ by decide]
      at hadmin
    exact (Option.some.inj hadmin).symm
  subst ha
  obtain ⟨before, e, after, hsplit, hprop, -⟩ := hstands
  have hmem : e ∈ issuerMachine.history (IssuerWorld.deploy ⟨10, 100⟩ ⟨0⟩ ⟨1⟩) sampleReplacement := by
    rw [hsplit]
    exact List.mem_append_right _ List.mem_cons_self
  rcases List.mem_cons.mp hmem with rfl | hmem
  · exact absurd hprop (by decide)
  · rw [List.mem_singleton.mp hmem] at hprop
    exact absurd hprop (by decide)

end VerdantBond
