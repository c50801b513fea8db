import VerdantBond.Registry.Contract
import VerdantBond.Issuer.Supply

set_option autoImplicit false

/-! # ProjectRegistry: nonces

Each call checks and advances one of two counters of its caller: `set_admin` the one in instance
storage, every other call the one in persistent storage, which is also what `get_nonce` reads.
What `get_nonce` answers is the nonce to carry, in every entry point, exactly while the two agree;
no nonce is taken twice where an address that hands over the admin role makes no other call.
-/

namespace VerdantBond

open Function Machine ProjectRegistry List

namespace ProjectRegistry

open RegistryReply (ofUnit ofNumber)

variable {env : Env} {s s' : ProjectRegistry}

/-- The counter a call is checked against. -/
def counter (s : ProjectRegistry) (call : RegistryCall) : Nat :=
  if call.setsAdmin then s.instanceNonce call.caller else s.nonce call.caller

/-! ## What a call does to the counters -/

theorem asCaller_ok {caller : Address} {nonce : Nat} (h : s.asCaller env caller nonce = .ok s') :
    env.authorized caller = true ∧ nonce = s.nonce caller ∧
      s' = { s with nonce := update s.nonce caller (s.nonce caller + 1) } := by
  simp only [asCaller, bind_ok_iff, requireAuth_ok_iff, reject_ok_iff, orTrap_ok_iff, u64_eq_some,
    pure_ok_iff, exists_unit_iff, not_not] at h
  obtain ⟨hauth, hnonce, _, ⟨-, rfl⟩, rfl⟩ := h
  exact ⟨hauth, hnonce, rfl⟩

variable {call : RegistryCall}

/-- **A successful call is authenticated, carries its counter and advances it**, and leaves the
other. The host would not let the counter pass the largest `u64`. -/
theorem exec_counter {reply : RegistryReply} (h : s.exec env call = .ok (s', reply)) :
    env.authorized call.caller = true ∧ call.nonce = s.counter call ∧
      s'.nonce = (if call.setsAdmin then s.nonce
        else update s.nonce call.caller (s.nonce call.caller + 1)) ∧
      s'.instanceNonce = (if call.setsAdmin
        then update s.instanceNonce call.caller (s.instanceNonce call.caller + 1)
        else s.instanceNonce) ∧
      (call.setsAdmin = true → s.instanceNonce call.caller + 1 ≤ u64Max) := by
  simp only [exec, bind_ok_iff, hostRequire_ok_iff, exists_unit_iff] at h
  obtain ⟨-, h⟩ := h
  cases call with
  | registerProject =>
      simp only [dispatch, ofNumber, registerProject, bind_ok_iff, reject_ok_iff, orTrap_ok_iff,
        pure_ok_iff, exists_unit_iff, Prod.exists, Prod.mk.injEq] at h
      obtain ⟨_, _, ⟨s₁, hopen, -, _, -, rfl, -⟩, rfl, -⟩ := h
      obtain ⟨hauth, hnonce, rfl⟩ := asCaller_ok hopen
      exact ⟨hauth, hnonce, rfl, rfl, fun h => by cases h⟩
  | approveProject | rejectProject | deactivateProject =>
      simp only [dispatch, ofUnit, approveProject, rejectProject, deactivateProject, moveProject,
        bind_ok_iff, pure_ok_iff, exists_unit_iff, Prod.mk.injEq] at h
      obtain ⟨_, ⟨s₁, hopen, -, _, -, -, rfl⟩, rfl, -⟩ := h
      obtain ⟨hauth, hnonce, rfl⟩ := asCaller_ok hopen
      exact ⟨hauth, hnonce, rfl, rfl, fun h => by cases h⟩
  | resubmitProject =>
      simp only [dispatch, ofUnit, resubmitProject, bind_ok_iff, pure_ok_iff, exists_unit_iff,
        Prod.mk.injEq] at h
      obtain ⟨_, ⟨s₁, hopen, _, -, -, -, rfl⟩, rfl, -⟩ := h
      obtain ⟨hauth, hnonce, rfl⟩ := asCaller_ok hopen
      exact ⟨hauth, hnonce, rfl, rfl, fun h => by cases h⟩
  | addProjectDocuments =>
      simp only [dispatch, ofUnit, addProjectDocuments, bind_ok_iff, pure_ok_iff, exists_unit_iff,
        Prod.mk.injEq] at h
      obtain ⟨_, ⟨s₁, hopen, -, _, -, -, rfl⟩, rfl, -⟩ := h
      obtain ⟨hauth, hnonce, rfl⟩ := asCaller_ok hopen
      exact ⟨hauth, hnonce, rfl, rfl, fun h => by cases h⟩
  | setAdmin =>
      simp only [dispatch, ofUnit, setAdmin, bind_ok_iff, requireAuth_ok_iff, reject_ok_iff,
        orTrap_ok_iff, u64_eq_some, pure_ok_iff, exists_unit_iff, not_not, Prod.mk.injEq] at h
      obtain ⟨_, ⟨hauth, hnonce, _, ⟨hfits, rfl⟩, -, rfl⟩, rfl, -⟩ := h
      exact ⟨hauth, hnonce, rfl, rfl, fun _ => hfits⟩

/-- The counters in persistent storage never go down. -/
theorem exec_nonce_le {reply : RegistryReply} (h : s.exec env call = .ok (s', reply)) (a : Address) :
    s.nonce a ≤ s'.nonce a := by
  obtain ⟨-, -, hnonce, -⟩ := exec_counter h
  rw [hnonce]
  split
  · exact le_refl _
  · by_cases ha : a = call.caller
    · rw [ha, update_self]
      omega
    · rw [update_of_ne ha]

/-- A missing authorization is not an error of the contract. -/
theorem requireAuth_ne_err {address : Address} {e : RegistryError} :
    requireAuth env address ≠ .error (.err e) := by
  unfold requireAuth hostRequire
  split
  · simp
  · simp

/-- **A call is turned away for its nonce exactly when it does not carry its counter.** -/
theorem exec_invalidNonce_iff (hauth : env.authorized call.caller = true) (htyped : call.WellTyped) :
    s.exec env call = .error (.err .invalidNonce) ↔ call.nonce ≠ s.counter call := by
  rw [exec, hostRequire_of htyped, ok_bind]
  -- behind the opening no check answers with this error
  cases call <;>
    simp_all [dispatch, ofUnit, ofNumber, registerProject, approveProject, rejectProject,
      deactivateProject, moveProject, resubmitProject, addProjectDocuments, setAdmin, asCaller,
      requireAdmin, bind_err_iff, reject_err_iff, okOr_err_iff, orTrap_ne_err, requireAuth_ne_err,
      counter, RegistryCall.caller, RegistryCall.nonce, RegistryCall.setsAdmin]

theorem step_cases (s : ProjectRegistry) (i : RegistryInput) :
    (∃ fault, s.exec i.env i.call = .error fault ∧ s.step i = (s, .error fault)) ∨
      ∃ s' reply, s.exec i.env i.call = .ok (s', reply) ∧ s.step i = (s', .ok reply) := by
  cases h : s.exec i.env i.call with
  | error fault => exact .inl ⟨fault, rfl, by simp only [step, h]⟩
  | ok r =>
      obtain ⟨s', reply⟩ := r
      exact .inr ⟨s', reply, rfl, by simp only [step, h]⟩

end ProjectRegistry

/-! ## Events -/

/-- The caller and the nonce of a call that was accepted. -/
def accepted (e : RegistryEvent) : Option (Address × Nat) :=
  match e.output with
  | .ok _ => some (e.input.call.caller, e.input.call.nonce)
  | .error _ => none

/-- What `get_nonce` answers in a state is the nonce an authenticated call has to carry: it is turned
away for its nonce exactly when it carries another. -/
def NonceExact (s : ProjectRegistry) (i : RegistryInput) : Prop :=
  i.env.authorized i.call.caller = true → i.call.WellTyped →
    ((s.step i).2 = .error (.err .invalidNonce) ↔ i.call.nonce ≠ s.getNonce i.call.caller)

/-- Where an address made a call that was accepted, and later makes another, neither of them is
`set_admin`. -/
def HandsOverAlone (e e' : RegistryEvent) : Prop :=
  (accepted e).isSome = true → e.input.call.caller = e'.input.call.caller →
    e'.input.env.authorized e'.input.call.caller = true →
      e.input.call.setsAdmin = false ∧ e'.input.call.setsAdmin = false

instance : DecidableRel HandsOverAlone := fun _ _ => inferInstanceAs (Decidable (_ → _ → _ → _ ∧ _))

/-! ## Runs -/

/-- What the counters say of the calls so far. -/
structure Counted (es : List RegistryEvent) (s : ProjectRegistry) : Prop where
  /-- The one in instance storage fits its type. -/
  bounded : ∀ a, s.instanceNonce a ≤ u64Max
  /-- The persistent one is beyond every nonce accepted by a call other than `set_admin`. -/
  used : ∀ e ∈ es, (accepted e).isSome = true → e.input.call.setsAdmin = false →
    e.input.call.nonce < s.nonce e.input.call.caller

variable {es : List RegistryEvent} {s : ProjectRegistry} {i : RegistryInput}

theorem Counted.step (h : Counted es s) (i : RegistryInput) :
    Counted (es ++ [registryMachine.event s i]) (s.step i).1 := by
  rcases s.step_cases i with ⟨fault, -, hstep⟩ | ⟨s', reply, hexec, hstep⟩
  · -- a failed call leaves the counters and is not accepted
    have hfailed : accepted (registryMachine.event s i) = none := by
      simp [accepted, Machine.event, registryMachine, hstep]
    rw [hstep]
    refine ⟨h.bounded, fun e he hok => ?_⟩
    rcases mem_append.mp he with he | he
    · exact h.used e he hok
    · rw [mem_singleton.mp he, hfailed] at hok
      cases hok
  · obtain ⟨-, hcarried, hnonce, hinstance, hfits⟩ := exec_counter hexec
    rw [hstep]
    constructor
    · intro a
      rw [hinstance]
      split
      · next hsets =>
          by_cases ha : a = i.call.caller
          · rw [ha, update_self]
            exact hfits hsets
          · rw [update_of_ne ha]
            exact h.bounded a
      · exact h.bounded a
    · intro e he heok hother
      rcases mem_append.mp he with he | he
      · exact lt_of_lt_of_le (h.used e he heok hother) (exec_nonce_le hexec _)
      · rw [mem_singleton.mp he] at hother ⊢
        have hlast : i.call.setsAdmin = false := hother
        show i.call.nonce < s'.nonce i.call.caller
        rw [hcarried, hnonce, counter, hlast]
        simp

theorem registry_counted (admin : Address) (l : List RegistryInput) :
    Counted (registryHistory admin l) (registryMachine.run (deploy admin) l) :=
  registryMachine.history_induct (P := Counted)
    ⟨fun _ => Nat.zero_le _, fun _ he => by cases he⟩ (fun _ i h => h.step i) l

/-- A call is turned away for its nonce exactly when it does not carry its counter. -/
theorem step_invalidNonce_iff (hauth : i.env.authorized i.call.caller = true)
    (htyped : i.call.WellTyped) :
    (s.step i).2 = .error (.err .invalidNonce) ↔ i.call.nonce ≠ s.counter i.call := by
  rw [← exec_invalidNonce_iff hauth htyped]
  rcases s.step_cases i with ⟨fault, hexec, hstep⟩ | ⟨s', reply, hexec, hstep⟩
  · rw [hstep, hexec]
    simp
  · rw [hstep, hexec]
    simp

/-- **What `get_nonce` answers is exact while the two counters agree**, and no longer: otherwise
`set_admin` takes the other. -/
theorem nonceExact_iff {a : Address} (hfits : s.instanceNonce a ≤ u64Max) :
    (∀ i : RegistryInput, i.call.caller = a → NonceExact s i) ↔ s.nonce a = s.instanceNonce a := by
  constructor
  · intro h
    -- `set_admin` with the nonce of its own counter is not turned away
    let i : RegistryInput := ⟨sampleEnv, .setAdmin a a (s.instanceNonce a)⟩
    have htyped : i.call.WellTyped := ⟨hfits, Nat.zero_le _⟩
    have hexact := (step_invalidNonce_iff rfl htyped).symm.trans (h i rfl rfl htyped)
    by_contra hne
    exact hexact.mpr (fun heq => hne heq.symm) rfl
  · rintro heq i rfl hauth htyped
    rw [step_invalidNonce_iff hauth htyped]
    unfold counter getNonce
    rw [heq, ite_self]

/-- One more call of a run that hands over the role alone carries a nonce not accepted before. -/
theorem Counted.not_mem (h : Counted es s)
    (halone : ∀ e ∈ es, HandsOverAlone e (registryMachine.event s i)) {pair : Address × Nat}
    (hpair : accepted (registryMachine.event s i) = some pair) : pair ∉ es.filterMap accepted := by
  rcases s.step_cases i with ⟨fault, -, hstep⟩ | ⟨s', reply, hexec, hstep⟩
  · simp [accepted, Machine.event, registryMachine, hstep] at hpair
  obtain ⟨hauth, hcarried, -⟩ := exec_counter hexec
  have hvalue : pair = (i.call.caller, i.call.nonce) := by
    simp only [accepted, Machine.event, registryMachine, hstep, Option.some.injEq] at hpair
    exact hpair.symm
  intro hmem
  obtain ⟨e, he, haccepted⟩ := mem_filterMap.mp hmem
  have hok : (accepted e).isSome = true := by
    rw [haccepted]
    rfl
  have hsame : (e.input.call.caller, e.input.call.nonce) = pair := by
    unfold accepted at haccepted
    split at haccepted
    · exact Option.some.inj haccepted
    · cases haccepted
  rw [hvalue, Prod.mk.injEq] at hsame
  obtain ⟨hbefore, hnow⟩ := halone e he hok hsame.1 hauth
  -- both calls are checked against the persistent counter, which has moved on since
  have hused := h.used e he hok hbefore
  have hcounter : i.call.nonce = s.nonce i.call.caller := by
    rw [hcarried, counter, show i.call.setsAdmin = false from hnow]
    rfl
  rw [hsame.1, hsame.2] at hused
  omega

theorem accepted_nodup (admin : Address) (l : List RegistryInput)
    (halone : (registryHistory admin l).Pairwise HandsOverAlone) :
    ((registryHistory admin l).filterMap accepted).Nodup := by
  induction l using reverseRecOn with
  | nil => exact nodup_nil
  | append_singleton l i ih =>
      have hcounted := registry_counted admin l
      unfold registryHistory at halone ih ⊢
      rw [history_snoc] at halone ⊢
      obtain ⟨hbefore, -, hlast⟩ := pairwise_append.mp halone
      rw [filterMap_append, nodup_append]
      refine ⟨ih hbefore, ?_, ?_⟩
      · cases haccepted : accepted (registryMachine.event
            (registryMachine.run (deploy admin) l) i) <;>
          simp [haccepted]
      · intro pair hpair pair' hlastpair heq
        obtain ⟨e, he, haccepted⟩ := mem_filterMap.mp hlastpair
        rw [mem_singleton.mp he] at haccepted
        rw [heq] at hpair
        exact hcounted.not_mem (fun e he => hlast e he _ mem_cons_self) haccepted hpair

/-- **What `get_nonce` answers is the nonce to carry exactly while the two counters agree**: in every
state of every run, for every call an address may make in it. And where an address that calls
`set_admin` makes no other call that succeeds, no nonce of an address is accepted twice. -/
theorem registry_nonces_linear (admin : Address) (l : List RegistryInput) :
    let s := registryMachine.run (ProjectRegistry.deploy admin) l
    (∀ a, (∀ i : RegistryInput, i.call.caller = a → NonceExact s i) ↔
        s.nonce a = s.instanceNonce a) ∧
      ((registryHistory admin l).Pairwise HandsOverAlone →
        ((registryHistory admin l).filterMap accepted).Nodup) :=
  ⟨fun a => nonceExact_iff ((registry_counted admin l).bounded a), accepted_nodup admin l⟩

/-- An owner registers a project and the admin hands over the role; the new admin approves the
project and the owner hands in a document. -/
def sampleRegistry : List RegistryInput :=
  [⟨sampleEnv, .registerProject ⟨2⟩ ⟨9⟩ "verra_vcs" "BR" 0⟩, ⟨sampleEnv, .setAdmin ⟨1⟩ ⟨3⟩ 0⟩,
    ⟨sampleEnv, .approveProject ⟨3⟩ 1 0⟩, ⟨sampleEnv, .addProjectDocuments ⟨2⟩ 1 [⟨5⟩] 1⟩]

/-- Every nonce is taken once. The owner's two calls leave `get_nonce` ahead of `set_admin`'s counter;
an address without a successful call may rely on it. -/
theorem registry_nonces_linear_sample :
    ((registryHistory ⟨1⟩ sampleRegistry).filterMap accepted
        = [(⟨2⟩, 0), (⟨1⟩, 0), (⟨3⟩, 0), (⟨2⟩, 1)]) ∧
      ((registryHistory ⟨1⟩ sampleRegistry).filterMap accepted).Nodup ∧
      let s := registryMachine.run (ProjectRegistry.deploy ⟨1⟩) sampleRegistry
      (∀ i : RegistryInput, i.call.caller = ⟨4⟩ → NonceExact s i) ∧
        ¬ ∀ i : RegistryInput, i.call.caller = ⟨2⟩ → NonceExact s i :=
  have h := registry_nonces_linear ⟨1⟩ sampleRegistry
  ⟨by decide, h.2 (by decide), (h.1 ⟨4⟩).mpr (by decide), fun hexact =>
    absurd ((h.1 ⟨2⟩).mp hexact) (by decide)⟩

/-- The admin registers a project and hands over the role: both calls carry the nonce zero, though
`get_nonce` answers one in between. -/
def sampleReuse : List RegistryInput :=
  [⟨sampleEnv, .registerProject ⟨1⟩ ⟨9⟩ "verra_vcs" "BR" 0⟩, ⟨sampleEnv, .setAdmin ⟨1⟩ ⟨2⟩ 0⟩]

/-- The pair is accepted twice; and the nonce that `get_nonce` answers is refused by `set_admin`,
which takes the other. -/
theorem nonce_accepted_twice :
    (registryHistory ⟨1⟩ sampleReuse).filterMap accepted = [(⟨1⟩, 0), (⟨1⟩, 0)] ∧
      ((registryMachine.run (ProjectRegistry.deploy ⟨1⟩) (sampleReuse.take 1)).getNonce ⟨1⟩ = 1 ∧
        ((registryMachine.run (ProjectRegistry.deploy ⟨1⟩) (sampleReuse.take 1)).step
          ⟨sampleEnv, .setAdmin ⟨1⟩ ⟨2⟩ 1⟩).2 = .error (.err .invalidNonce)) ∧
      (¬ ((registryHistory ⟨1⟩ sampleReuse).filterMap accepted).Nodup) ∧
      ¬ NonceExact (registryMachine.run (ProjectRegistry.deploy ⟨1⟩) (sampleReuse.take 1))
        ⟨sampleEnv, .setAdmin ⟨1⟩ ⟨2⟩ 1⟩ :=
  ⟨by decide, ⟨by decide, by decide⟩, by decide, fun h =>
    absurd ((h rfl (by decide)).mp (by decide)) (by decide)⟩

end VerdantBond
