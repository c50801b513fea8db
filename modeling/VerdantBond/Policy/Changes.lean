import VerdantBond.Lib.Machine
import VerdantBond.Lib.Utf16

set_option autoImplicit false

/-! # Changes of the policy configuration

`PolicyConfigChangeService`: changes of the policy settings and their rollback, each with evidence
in the audit trail before it takes effect. `apply` checks the configuration it leads to; `rollback`
puts the settings that a change has changed back to their values before it, on top of all later
changes, and checks nothing. So the minimum and the maximum of a subscription can cross
(`rollback_crosses`), and they stay in order exactly as long as no rollback makes them cross
(`subscription_bounds_kept_iff`).

Amounts are written as decimal strings into a snapshot and read back from it, so a snapshot is the
configuration it was made from. Whether the audit trail takes an entry, and whether it verifies, is part
of a request's circumstances; a fingerprint is any function of a request.
-/

namespace VerdantBond

inductive PolicyKey where
  | allowedTransitoryStates | earlyRedemptionMinDaysRemaining | maturityWarningDays
  | maxSubscriptionAmount | maxTotalHoldings | minSubscriptionAmount
  | redeemptionPenaltyPercentage | restrictedJurisdictions
deriving DecidableEq

/-- All settings, sorted by name. -/
def policyKeys : List PolicyKey :=
  [.allowedTransitoryStates, .earlyRedemptionMinDaysRemaining, .maturityWarningDays,
    .maxSubscriptionAmount, .maxTotalHoldings, .minSubscriptionAmount,
    .redeemptionPenaltyPercentage, .restrictedJurisdictions]

theorem mem_policyKeys (key : PolicyKey) : key ∈ policyKeys := by
  cases key <;> decide

def PolicyKey.name : PolicyKey → JsString
  | .allowedTransitoryStates => js "allowedTransitoryStates"
  | .earlyRedemptionMinDaysRemaining => js "earlyRedemptionMinDaysRemaining"
  | .maturityWarningDays => js "maturityWarningDays"
  | .maxSubscriptionAmount => js "maxSubscriptionAmount"
  | .maxTotalHoldings => js "maxTotalHoldings"
  | .minSubscriptionAmount => js "minSubscriptionAmount"
  | .redeemptionPenaltyPercentage => js "redeemptionPenaltyPercentage"
  | .restrictedJurisdictions => js "restrictedJurisdictions"

/-- The value of a setting. Numbers are of any type. -/
inductive PolicyValue (ν : Type) where
  | amount (n : Int)
  | number (x : ν)
  | list (items : List JsString)
deriving DecidableEq

/-- `undefined` is `none`. -/
abbrev PolicyConfiguration (ν : Type) := PolicyKey → Option (PolicyValue ν)

/-- `Partial<PolicyConfiguration>`: the settings it names, with their values. -/
abbrev PolicyUpdates (ν : Type) := PolicyKey → Option (Option (PolicyValue ν))

/-- What is asked of a number in an update. -/
structure PolicyNumbers (ν : Type) where
  /-- Finite and not negative. -/
  valid : ν → Bool
  atMost100 : ν → Bool

/-- A submitted value. An item that is not a string is `none`. -/
inductive RawValue (ν : Type) where
  | string (s : JsString)
  | number (x : ν)
  | array (items : List (Option JsString))
  | other

inductive PolicyError where
  | changeIdRequired | reasonRequired
  /-- The change id was used for a different change. -/
  | conflict
  | updatesRequired
  | unknownSetting (name : JsString)
  | notAmount (key : PolicyKey)
  | notNumber (key : PolicyKey)
  | above100 (key : PolicyKey)
  | notStrings (key : PolicyKey)
  | notJurisdictions (key : PolicyKey)
  | minExceedsMax
  | chainInvalid
  | notFound (targetChangeId : JsString)
  | evidenceRefused

inductive PolicyAction where
  | updated | rejected | rolledBack
deriving DecidableEq

variable {ν φ : Type}

/-! ## Parsing -/

def integerString (s : JsString) : Bool := s ≠ [] && s.all (IsDigit ·)

def isLetter (u : CodeUnit) : Bool := (65 ≤ u.val && u.val ≤ 90) || (97 ≤ u.val && u.val ≤ 122)

def jurisdiction (s : JsString) : Bool := 2 ≤ s.length && s.length ≤ 16 && s.all isLetter

/-- `toUpperCase` of a letter. -/
def upper (u : CodeUnit) : CodeUnit := if 97 ≤ u.val then Fin.ofNat 65536 (u.val - 32) else u

/-- `[...new Set(items)].sort()` -/
def sortedSet (items : List JsString) : List JsString :=
  items.eraseDups.mergeSort fun a b => !decide (b < a)

def parseValue (numbers : PolicyNumbers ν) (key : PolicyKey) (value : RawValue ν) :
    Except PolicyError (PolicyValue ν) :=
  match key with
  | .minSubscriptionAmount | .maxSubscriptionAmount | .maxTotalHoldings =>
      match value with
      | .string s => if integerString s then .ok (.amount (ofDecimal s)) else .error (.notAmount key)
      | _ => .error (.notAmount key)
  | .redeemptionPenaltyPercentage | .earlyRedemptionMinDaysRemaining | .maturityWarningDays =>
      match value with
      | .number x =>
          if numbers.valid x = false then .error (.notNumber key)
          else if key = .redeemptionPenaltyPercentage ∧ numbers.atMost100 x = false then
            .error (.above100 key)
          else .ok (.number x)
      | _ => .error (.notNumber key)
  | .allowedTransitoryStates =>
      match value with
      | .array items =>
          if items.any Option.isNone then .error (.notStrings key)
          else .ok (.list (sortedSet items.reduceOption))
      | _ => .error (.notStrings key)
  | .restrictedJurisdictions =>
      match value with
      | .array items =>
          if items.any Option.isNone then .error (.notStrings key)
          else if items.reduceOption.all jurisdiction = false then .error (.notJurisdictions key)
          else .ok (.list (sortedSet (items.reduceOption.map (List.map upper))))
      | _ => .error (.notStrings key)

/-- The loop over the submitted entries. -/
def parseEntries (numbers : PolicyNumbers ν) :
    List (JsString × RawValue ν) → PolicyUpdates ν → Except PolicyError (PolicyUpdates ν)
  | [], updates => .ok updates
  | (name, value) :: raw, updates =>
      match policyKeys.find? fun key => key.name = name with
      | none => .error (.unknownSetting name)
      | some key =>
          match parseValue numbers key value with
          | .error error => .error error
          | .ok v => parseEntries numbers raw (Function.update updates key (some (some v)))

/-- `{ ...config, ...updates }` -/
def merge (config : PolicyConfiguration ν) (updates : PolicyUpdates ν) : PolicyConfiguration ν :=
  fun key => (updates key).getD (config key)

def amountOf (config : PolicyConfiguration ν) (key : PolicyKey) : Option Int :=
  match config key with
  | some (.amount n) => some n
  | _ => none

/-- The minimum does not exceed the maximum, where both are set. -/
def boundsInOrder (config : PolicyConfiguration ν) : Bool :=
  match amountOf config .minSubscriptionAmount, amountOf config .maxSubscriptionAmount with
  | some lo, some hi => lo ≤ hi
  | _, _ => true

/-- `parseUpdates`; what is no object is `none`. -/
def parseUpdates (numbers : PolicyNumbers ν) (raw : Option (List (JsString × RawValue ν)))
    (current : PolicyConfiguration ν) : Except PolicyError (PolicyUpdates ν) :=
  match raw with
  | none | some [] => .error .updatesRequired
  | some raw =>
      match parseEntries numbers raw fun _ => none with
      | .error error => .error error
      | .ok updates => if boundsInOrder (merge current updates) then .ok updates else .error .minExceedsMax

/-! ## The service -/

/-- An entry of the audit trail of the configuration; a rejected change has no changed keys. -/
structure PolicyEntry (ν : Type) where
  action : PolicyAction
  changeId : JsString
  before : PolicyConfiguration ν
  changedKeys : List PolicyKey

structure PolicyOutcome (ν : Type) where
  changedKeys : List PolicyKey
  config : PolicyConfiguration ν

structure PolicyWorld (ν φ : Type) where
  config : PolicyConfiguration ν
  history : List (PolicyEntry ν)
  /-- By change id, with the fingerprint, oldest first. -/
  outcomes : List (JsString × φ × PolicyOutcome ν)

inductive PolicyBody (ν : Type) where
  | updates (raw : Option (List (JsString × RawValue ν)))
  | rollback (targetChangeId : JsString)

structure PolicyRequest (ν : Type) where
  changeId : JsString
  actor : JsString
  reason : JsString
  body : PolicyBody ν

/-- A request, and what the audit trail says to it. -/
structure PolicyCall (ν : Type) where
  request : PolicyRequest ν
  recorded : Bool
  verified : Bool

inductive PolicyReply (ν : Type) where
  | replayed (outcome : PolicyOutcome ν)
  | applied (outcome : PolicyOutcome ν)
  | unchanged (outcome : PolicyOutcome ν)
  | refused (error : PolicyError)

def maxChangeIdLength : Nat := 128
def maxReasonLength : Nat := 500
def maxRememberedChanges : Nat := 5000

namespace PolicyWorld

variable [DecidableEq ν] [DecidableEq φ] (numbers : PolicyNumbers ν) (fingerprintOf : PolicyRequest ν → φ)

/-- `replayed`: the reply if there is one already. -/
def replayed (w : PolicyWorld ν φ) (request : PolicyRequest ν) : Option (PolicyReply ν) :=
  if trim request.changeId = [] ∨ maxChangeIdLength < request.changeId.length then
    some (.refused .changeIdRequired)
  else if trim request.reason = [] ∨ maxReasonLength < request.reason.length then
    some (.refused .reasonRequired)
  else
    match w.outcomes.find? fun o => o.1 = request.changeId with
    | none => none
    | some (_, fingerprint, outcome) =>
        if fingerprint = fingerprintOf request then some (.replayed outcome)
        else some (.refused .conflict)

def changedKeys (before after : PolicyConfiguration ν) : List PolicyKey :=
  policyKeys.filter fun key => after key ≠ before key

/-- Remember an outcome, without the oldest if there are too many. -/
def remember (outcomes : List (JsString × φ × PolicyOutcome ν)) (o : JsString × φ × PolicyOutcome ν) :
    List (JsString × φ × PolicyOutcome ν) :=
  if maxRememberedChanges < outcomes.length + 1 then (outcomes ++ [o]).tail else outcomes ++ [o]

variable (w : PolicyWorld ν φ) (call : PolicyCall ν)

def commit (action : PolicyAction) (updates : PolicyUpdates ν) : PolicyWorld ν φ × PolicyReply ν :=
  let after := merge w.config updates
  let keys := changedKeys w.config after
  let outcome : PolicyOutcome ν := ⟨keys, after⟩
  let outcomes := remember w.outcomes (call.request.changeId, fingerprintOf call.request, outcome)
  if keys = [] then ({ w with outcomes := outcomes }, .unchanged outcome)
  else if call.recorded = false then (w, .refused .evidenceRefused)
  else
    (⟨after, w.history ++ [⟨action, call.request.changeId, w.config, keys⟩], outcomes⟩, .applied outcome)

def apply (raw : Option (List (JsString × RawValue ν))) : PolicyWorld ν φ × PolicyReply ν :=
  match parseUpdates numbers raw w.config with
  | .error error =>
      -- the rejection is recorded if the trail takes it
      let entry : PolicyEntry ν := ⟨.rejected, call.request.changeId, w.config, []⟩
      ({ w with history := if call.recorded then w.history ++ [entry] else w.history }, .refused error)
  | .ok updates => commit fingerprintOf w call .updated updates

/-- The change that a rollback undoes. -/
def target (targetChangeId : JsString) : Option (PolicyEntry ν) :=
  w.history.find? fun e => e.action ≠ .rejected ∧ e.changeId = targetChangeId

/-- What a rollback restores: the keys that the target has changed, as they were before it. -/
def restored (target : PolicyEntry ν) : PolicyUpdates ν :=
  fun key => if key ∈ target.changedKeys then some (target.before key) else none

def rollback (targetChangeId : JsString) : PolicyWorld ν φ × PolicyReply ν :=
  if call.verified = false then (w, .refused .chainInvalid)
  else
    match w.target targetChangeId with
    | none => (w, .refused (.notFound targetChangeId))
    | some target => commit fingerprintOf w call .rolledBack (restored target)

/-- One request; requests are served one after the other. -/
def serve : PolicyWorld ν φ × PolicyReply ν :=
  match w.replayed fingerprintOf call.request with
  | some reply => (w, reply)
  | none =>
      match call.request.body with
      | .updates raw => w.apply numbers fingerprintOf call raw
      | .rollback targetChangeId => w.rollback fingerprintOf call targetChangeId

def policyMachine : Machine (PolicyWorld ν φ) (PolicyCall ν) (PolicyReply ν) where
  step := serve numbers fingerprintOf

/-! ## What a request does to the configuration -/

variable {numbers}

omit [DecidableEq φ] in
/-- Nothing changed means the same configuration. -/
theorem eq_of_changedKeys_nil {before after : PolicyConfiguration ν}
    (h : changedKeys before after = []) : after = before := by
  funext key
  by_contra hne
  have hmem : key ∈ changedKeys before after :=
    List.mem_filter.mpr ⟨mem_policyKeys key, by simpa using hne⟩
  rw [h] at hmem
  cases hmem

omit [DecidableEq φ] in
/-- A commit takes effect, if only by finding nothing to change, or is refused for want of evidence. -/
theorem commit_cases (action : PolicyAction) (updates : PolicyUpdates ν) :
    (commit fingerprintOf w call action updates).1.config = merge w.config updates ∧
        (merge w.config updates = w.config ∨ call.recorded = true) ∨
      call.recorded = false ∧ (commit fingerprintOf w call action updates).1 = w := by
  unfold commit
  by_cases hkeys : changedKeys w.config (merge w.config updates) = []
  · have hsame := eq_of_changedKeys_nil hkeys
    rw [if_pos hkeys]
    exact .inl ⟨hsame.symm, .inl hsame⟩
  · rw [if_neg hkeys]
    split
    · next hrefused => exact .inr ⟨hrefused, rfl⟩
    · next hrecorded => exact .inl ⟨rfl, .inr (Bool.eq_true_of_not_eq_false hrecorded)⟩

omit [DecidableEq ν] in
theorem boundsInOrder_of_parse {raw : Option (List (JsString × RawValue ν))}
    {current : PolicyConfiguration ν} {updates : PolicyUpdates ν}
    (h : parseUpdates numbers raw current = .ok updates) :
    boundsInOrder (merge current updates) = true := by
  unfold parseUpdates at h
  split at h
  · cases h
  · cases h
  · split at h
    · cases h
    · split at h
      · cases h
        assumption
      · cases h

omit [DecidableEq φ] in
/-- **`apply` keeps the bounds in order.** -/
theorem boundsInOrder_apply {w : PolicyWorld ν φ} (h : boundsInOrder w.config = true)
    (call : PolicyCall ν) (raw : Option (List (JsString × RawValue ν))) :
    boundsInOrder (w.apply numbers fingerprintOf call raw).1.config = true := by
  unfold apply
  cases hparse : parseUpdates numbers raw w.config with
  | error error => exact h
  | ok updates =>
      show boundsInOrder (commit fingerprintOf w call .updated updates).1.config = true
      rcases commit_cases fingerprintOf w call .updated updates with ⟨hconfig, -⟩ | ⟨-, hrefused⟩
      · rw [hconfig]
        exact boundsInOrder_of_parse hparse
      · rw [hrefused]
        exact h

/-! ## Rollbacks -/

/-- The value a setting has once a change is undone: the stored one where the change has touched the
setting, and otherwise the one in force. -/
def undoneAmount (target : PolicyEntry ν) (config : PolicyConfiguration ν) (key : PolicyKey) :
    Option Int :=
  amountOf (if key ∈ target.changedKeys then target.before else config) key

/-- Undoing a change puts the minimum above the maximum. -/
def Crosses (target : PolicyEntry ν) (config : PolicyConfiguration ν) : Prop :=
  ∃ lo hi, undoneAmount target config .minSubscriptionAmount = some lo ∧
    undoneAmount target config .maxSubscriptionAmount = some hi ∧ hi < lo

/-- A rollback that nothing stops: it is new, the trail verifies and takes it, and the change it names
is there. -/
def Reverts (w : PolicyWorld ν φ) (call : PolicyCall ν) (target : PolicyEntry ν) : Prop :=
  ∃ targetChangeId, call.request.body = .rollback targetChangeId ∧
    w.replayed fingerprintOf call.request = none ∧ call.verified = true ∧ call.recorded = true ∧
    w.target targetChangeId = some target

omit [DecidableEq ν] in
theorem boundsInOrder_restored_iff (target : PolicyEntry ν) (config : PolicyConfiguration ν) :
    boundsInOrder (merge config (restored target)) = true ↔ ¬ Crosses target config := by
  have hamount : ∀ key,
      amountOf (merge config (restored target)) key = undoneAmount target config key := by
    intro key
    unfold undoneAmount amountOf merge restored
    by_cases hkey : key ∈ target.changedKeys <;> simp [hkey]
  unfold boundsInOrder Crosses
  rw [hamount, hamount]
  cases undoneAmount target config .minSubscriptionAmount <;>
    cases undoneAmount target config .maxSubscriptionAmount <;> simp

variable (numbers) {w : PolicyWorld ν φ} {call : PolicyCall ν} {target : PolicyEntry ν}

/-- A rollback that nothing stops merges what it restores, without the check of `parseUpdates`. -/
theorem serve_reverts (h : Reverts fingerprintOf w call target) :
    (serve numbers fingerprintOf w call).1.config = merge w.config (restored target) := by
  obtain ⟨targetChangeId, hbody, hnew, hverified, hrecorded, htarget⟩ := h
  simp only [serve, hnew, hbody, rollback, hverified, htarget]
  rcases commit_cases fingerprintOf w call .rolledBack (restored target) with ⟨h, -⟩ | ⟨hrefused, -⟩
  · exact h
  · rw [hrecorded] at hrefused
    cases hrefused

/-- Any other rollback does nothing, or finds nothing to restore. -/
theorem serve_not_reverts {targetChangeId : JsString}
    (hbody : call.request.body = .rollback targetChangeId)
    (h : ∀ target, ¬ Reverts fingerprintOf w call target) :
    (serve numbers fingerprintOf w call).1 = w ∨
      ∃ target, w.target targetChangeId = some target ∧ merge w.config (restored target) = w.config ∧
        (serve numbers fingerprintOf w call).1.config = w.config := by
  unfold serve
  cases hnew : w.replayed fingerprintOf call.request with
  | some reply => exact .inl rfl
  | none =>
      simp only [hbody, rollback]
      split
      · exact .inl rfl
      · next hverified =>
          cases htarget : w.target targetChangeId with
          | none => exact .inl rfl
          | some target =>
              rcases commit_cases fingerprintOf w call .rolledBack (restored target) with
                ⟨hconfig, hsame | hrecorded⟩ | ⟨-, hrefused⟩
              · exact .inr ⟨target, rfl, hsame, hconfig.trans hsame⟩
              · exact absurd ⟨targetChangeId, hbody, hnew, Bool.eq_true_of_not_eq_false hverified,
                  hrecorded, htarget⟩ (h target)
              · exact .inl hrefused

/-- A rollback that nothing stops does not make the bounds cross. -/
def RollbackInOrder (w : PolicyWorld ν φ) (call : PolicyCall ν) : Prop :=
  ∀ target, Reverts fingerprintOf w call target → ¬ Crosses target w.config

/-- **One request keeps the bounds in order exactly if it is not a rollback that makes them cross.** -/
theorem boundsInOrder_serve_iff (h : boundsInOrder w.config = true) (call : PolicyCall ν) :
    boundsInOrder (serve numbers fingerprintOf w call).1.config = true ↔
      RollbackInOrder fingerprintOf w call := by
  by_cases hreverts : ∃ target, Reverts fingerprintOf w call target
  · obtain ⟨target, htarget⟩ := hreverts
    rw [serve_reverts numbers fingerprintOf htarget, boundsInOrder_restored_iff]
    refine ⟨fun hnot other hother => ?_, fun hall => hall target htarget⟩
    -- the request names one change
    obtain ⟨_, hbody, -, -, -, hfirst⟩ := htarget
    obtain ⟨_, hbody', -, -, -, hsecond⟩ := hother
    cases hbody.symm.trans hbody'
    cases hfirst.symm.trans hsecond
    exact hnot
  · have hnone := not_exists.mp hreverts
    refine iff_of_true ?_ fun target htarget => absurd htarget (hnone target)
    cases hbody : call.request.body with
    | updates raw =>
        unfold serve
        cases w.replayed fingerprintOf call.request with
        | some reply => exact h
        | none =>
            simp only [hbody]
            exact boundsInOrder_apply fingerprintOf h call raw
    | rollback targetChangeId =>
        rcases serve_not_reverts numbers fingerprintOf hbody hnone with
          hsame | ⟨_, -, -, hconfig⟩
        · rw [hsame]
          exact h
        · rw [hconfig]
          exact h

end PolicyWorld

open PolicyWorld

/-- **When the bounds stay in order.** In every run of requests from a configuration with the bounds in
order: they stay in order, and a rollback that would make them cross has no effect, exactly if no
rollback that nothing stops undoes a change whose stored values, on top of the configuration in force,
make them cross. -/
theorem subscription_bounds_kept_iff [DecidableEq ν] [DecidableEq φ] (numbers : PolicyNumbers ν)
    (fingerprintOf : PolicyRequest ν → φ) (config : PolicyConfiguration ν)
    (h : boundsInOrder config = true) (calls : List (PolicyCall ν)) :
    let m := policyMachine numbers fingerprintOf
    let start : PolicyWorld ν φ := ⟨config, [], []⟩
    ((∀ calls', calls' <+: calls → boundsInOrder (m.run start calls').config = true) ∧
        ∀ e ∈ m.history start calls, ∀ targetChangeId target,
          e.input.request.body = .rollback targetChangeId →
            e.pre.target targetChangeId = some target →
              Crosses target e.pre.config → e.post = e.pre) ↔
      ∀ e ∈ m.history start calls, RollbackInOrder fingerprintOf e.pre e.input := by
  intro m start
  have hiff := m.always_iff (G := fun e => RollbackInOrder fingerprintOf e.pre e.input)
    (P := fun w => boundsInOrder w.config = true) (s := start) h
    (fun l call hbounds => boundsInOrder_serve_iff numbers fingerprintOf hbounds call) calls
  refine ⟨fun hkept => hiff.mp hkept.1, fun hG => ⟨hiff.mpr hG, ?_⟩⟩
  intro e he targetChangeId target hbody htarget hcross
  have hinOrder := hG e he
  obtain ⟨l₁, call, l₂, rfl, rfl⟩ := m.exists_of_mem_history he
  have hpre := hiff.mpr hG l₁ (List.prefix_append ..)
  have hnone : ∀ other, ¬ Reverts fingerprintOf (m.run start l₁) call other := by
    intro other hother
    refine hinOrder other hother ?_
    obtain ⟨_, hbody', -, -, -, hother⟩ := hother
    cases hbody.symm.trans hbody'
    cases htarget.symm.trans hother
    exact hcross
  rcases serve_not_reverts numbers fingerprintOf hbody hnone with
    hsame | ⟨other, hother, hsame, -⟩
  · exact hsame
  · -- nothing to restore cannot make the bounds cross
    cases htarget.symm.trans hother
    rw [← hsame] at hpre
    exact absurd hcross ((boundsInOrder_restored_iff target _).mp hpre)

namespace PolicySample

/-- Numbers that are all fine. -/
def numbers : PolicyNumbers Nat := ⟨fun _ => true, (· ≤ 100)⟩

/-- Subscriptions from 1 to 10. -/
def config : PolicyConfiguration Nat
  | .minSubscriptionAmount => some (.amount 1)
  | .maxSubscriptionAmount => some (.amount 10)
  | _ => none

def call (changeId : String) (body : PolicyBody Nat) : PolicyCall Nat :=
  ⟨⟨js changeId, js "admin", js "limits", body⟩, true, true⟩

/-- The fingerprint tells nothing, and the change ids differ. -/
def machine : Machine (PolicyWorld Nat Unit) (PolicyCall Nat) (PolicyReply Nat) :=
  policyMachine numbers fun _ => ()

def raise : PolicyCall Nat :=
  call "a" (.updates (some [(js "maxSubscriptionAmount", .string (js "100"))]))

def lift : PolicyCall Nat :=
  call "b" (.updates (some [(js "minSubscriptionAmount", .string (js "50"))]))

end PolicySample

open PolicySample in
/-- The maximum is raised to 100, the minimum to 50, and the first change is rolled back. -/
theorem rollback_crosses :
    boundsInOrder config = true ∧
      let w := machine.run ⟨config, [], []⟩ [raise, lift, call "c" (.rollback (js "a"))]
      amountOf w.config .minSubscriptionAmount = some 50 ∧
        amountOf w.config .maxSubscriptionAmount = some 10 ∧ boundsInOrder w.config = false := by
  refine ⟨by decide, ?_, ?_, ?_⟩
  · decide
  · decide
  · decide

open PolicySample in
/-- The maximum is raised and put back; then the minimum is not raised beyond it. -/
theorem subscription_bounds_kept_iff_sample :
    let calls := [raise, call "c" (.rollback (js "a")), lift]
    (amountOf (machine.run ⟨config, [], []⟩ (calls.take 1)).config .maxSubscriptionAmount = some 100 ∧
        amountOf (machine.run ⟨config, [], []⟩ (calls.take 2)).config .maxSubscriptionAmount = some 10) ∧
      boundsInOrder (machine.run ⟨config, [], []⟩ calls).config = true := by
  intro calls
  refine ⟨⟨by decide, by decide⟩, ((subscription_bounds_kept_iff numbers (fun _ => ()) config (by decide)
    calls).mpr fun e he => ?_).1 _ (List.prefix_refl _)⟩
  simp only [calls, Machine.history, List.mem_cons, List.not_mem_nil, or_false] at he
  rcases he with rfl | rfl | rfl
  · exact (boundsInOrder_serve_iff numbers _ (by decide) _).mp (by decide)
  · exact (boundsInOrder_serve_iff numbers _ (by decide) _).mp (by decide)
  · exact (boundsInOrder_serve_iff numbers _ (by decide) _).mp (by decide)

end VerdantBond
