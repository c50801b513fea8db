import VerdantBond.Lib.Machine
import VerdantBond.Lib.Utf8

set_option autoImplicit false

/-! # Signed admin intents

`IntentService.verify` accepts a request body if the UTF-8 bytes of its fields, printed one behind
the other with bars in between, are what the admin signed, and if its nonce is new. Signatures are
ideal: the service accepts a signature for some bytes exactly when the admin made it for these
bytes. The nonce is kept in Redis for a while, longer than the intent is valid.

A request body may hold anything in its fields; what matters of a field that is no string is the text it
prints as. Time does not go back.
-/

namespace VerdantBond

/-- A field of a request body that is there. -/
inductive IntentField where
  | text (s : JsString)
  /-- Another value, which prints as the text. -/
  | other (printed : JsString)
deriving DecidableEq

/-- `String(value)` -/
def IntentField.print : IntentField → JsString
  | .text s => s
  | .other printed => printed

/-- The numbers of request bodies: their text, and the milliseconds they lie between. -/
structure IntentNumbers (ν : Type) where
  print : ν → JsString
  floorMs : ν → Int
  ceilMs : ν → Int
  print_injective : Function.Injective print
  bar_not_mem : ∀ x, unit '|' ∉ print x
  wellFormed : ∀ x, IsWellFormed (print x)
  floor_le_ceil : ∀ x, floorMs x ≤ ceilMs x

/-- Whole milliseconds. -/
def millis : IntentNumbers Nat where
  print := decimal
  floorMs := Int.ofNat
  ceilMs := Int.ofNat
  print_injective := decimal_injective
  bar_not_mem := fun _ h => absurd (isDigit_of_mem_decimal h) (by decide)
  wellFormed := fun _ => isWellFormed_of_plain fun u hu => by
    have := isDigit_of_mem_decimal hu
    unfold IsDigit at this
    unfold IsLead IsTrail
    omega
  floor_le_ceil := fun _ => le_rfl

/-- What the admin signs. -/
structure SignedIntent (ν : Type) where
  action : JsString
  target : JsString
  chain : JsString
  expiry : ν
  nonce : JsString
deriving DecidableEq

/-- A body; `none` is a missing or falsy field, or an expiry that is no number. The signature is given
by the bytes it is made for. -/
structure IntentRequest (ν : Type) where
  action : Option IntentField
  target : Option IntentField
  chain : Option IntentField
  expiry : Option ν
  nonce : Option IntentField
  signature : Option (List UInt8)

/-- What `verify` returns. -/
structure AdminIntent (ν : Type) where
  action : JsString
  target : JsString
  chain : IntentField
  expiry : ν
  nonce : IntentField
  signature : List UInt8
deriving DecidableEq

inductive IntentError where
  | incomplete | actionMismatch | targetMismatch | expired | invalidSignature | replayed
deriving DecidableEq

/-- What the admin signed, the nonces with the time until which they are kept, and the time. -/
structure IntentWorld (ν : Type) where
  signed : List (SignedIntent ν)
  nonces : JsString → Option Int
  now : Int

variable {ν : Type}

/-- The text of the message: five texts with bars in between. -/
def intentMessage (action target chain expiry nonce : JsString) : JsString :=
  action ++ unit '|' :: (target ++ unit '|' :: (chain ++ unit '|' :: (expiry ++ unit '|' :: nonce)))

namespace IntentNumbers

variable (N : IntentNumbers ν)

def canonical (x : SignedIntent ν) : List UInt8 :=
  utf8Bytes (intentMessage x.action x.target x.chain (N.print x.expiry) x.nonce)

/-- The time until which a nonce is kept: its seconds are `Math.max(60, Math.ceil(..) + 300)`. -/
def keptUntil (now : Int) (expiry : ν) : Int :=
  now + 1000 * max 60 ((N.ceilMs expiry - now + 999) / 1000 + 300)

/-- `setNx`: a nonce that is still kept cannot be taken. -/
def reserve (w : IntentWorld ν) (nonce : JsString) (expiry : ν) : Option (IntentWorld ν) :=
  if (w.nonces nonce).any fun kept => w.now < kept then none
  else some { w with
    nonces := Function.update w.nonces nonce (some (N.keptUntil w.now expiry)) }

def verify (w : IntentWorld ν) (raw : IntentRequest ν) (expectedAction expectedTarget : JsString) :
    Except IntentError (AdminIntent ν × IntentWorld ν) :=
  match raw.action, raw.target, raw.chain, raw.nonce, raw.signature with
  | some action, some target, some chain, some nonce, some signature =>
      if action ≠ .text expectedAction then .error .actionMismatch
      else if target.print ≠ expectedTarget then .error .targetMismatch
      else
        match raw.expiry with
        | none => .error .expired
        | some expiry =>
            let message := utf8Bytes (intentMessage expectedAction target.print chain.print
              (N.print expiry) nonce.print)
            -- the message has the fields as they print, whatever they were in the body
            if N.floorMs expiry < w.now then .error .expired
            else if signature ≠ message ∨ signature ∉ w.signed.map N.canonical then
              .error .invalidSignature
            else
              match N.reserve w nonce.print expiry with
              | none => .error .replayed
              | some w' =>
                  .ok (⟨expectedAction, target.print, chain, expiry, nonce, signature⟩, w')
  | _, _, _, _, _ => .error .incomplete

/-- **What an accepted request has passed.** -/
theorem verify_ok {w w' : IntentWorld ν} {raw : IntentRequest ν} {action target : JsString}
    {a : AdminIntent ν} (h : N.verify w raw action target = .ok (a, w')) :
    a.signature = utf8Bytes
        (intentMessage a.action a.target a.chain.print (N.print a.expiry) a.nonce.print) ∧
      a.signature ∈ w.signed.map N.canonical ∧ w.now ≤ N.floorMs a.expiry ∧
      N.reserve w a.nonce.print a.expiry = some w' := by
  unfold verify at h
  split at h
  · split at h
    · cases h
    · split at h
      · cases h
      · split at h
        · cases h
        · dsimp only at h
          split at h
          · cases h
          · next hexpiry =>
              split at h
              · cases h
              · next hsignature =>
                  split at h
                  · cases h
                  · next hreserve =>
                      cases h
                      rw [not_or, not_not, not_not] at hsignature
                      exact ⟨hsignature.1, hsignature.2, not_lt.mp hexpiry, hreserve⟩
  · cases h

theorem reserve_some {w w' : IntentWorld ν} {nonce : JsString} {expiry : ν}
    (h : N.reserve w nonce expiry = some w') :
    (∀ kept, w.nonces nonce = some kept → kept ≤ w.now) ∧
      w' = { w with nonces := Function.update w.nonces nonce (some (N.keptUntil w.now expiry)) } := by
  unfold reserve at h
  split at h
  · cases h
  · next hfree =>
      cases h
      refine ⟨fun kept hkept => ?_, rfl⟩
      rw [hkept] at hfree
      simpa using hfree

/-- A nonce is kept longer than its intent is valid. -/
theorem expiry_lt_keptUntil (now : Int) (expiry : ν) :
    N.floorMs expiry < N.keptUntil now expiry := by
  have hle := N.floor_le_ceil expiry
  unfold keptUntil
  omega

end IntentNumbers

/-! ## Runs -/

inductive IntentInput (ν : Type) where
  | sign (x : SignedIntent ν)
  | verify (raw : IntentRequest ν) (expectedAction expectedTarget : JsString)
  | wait (ms : Nat)

def intentMachine (N : IntentNumbers ν) :
    Machine (IntentWorld ν) (IntentInput ν) (Option (AdminIntent ν)) where
  step w
    | .sign x => ({ w with signed := x :: w.signed }, none)
    | .verify raw action target =>
        match N.verify w raw action target with
        | .error _ => (w, none)
        | .ok (a, w') => (w', some a)
    | .wait ms => ({ w with now := w.now + ms }, none)

abbrev IntentEvent (ν : Type) := Event (IntentWorld ν) (IntentInput ν) (Option (AdminIntent ν))

/-- No nonce has been used. -/
def IntentWorld.initial (now : Int) : IntentWorld ν := ⟨[], fun _ => none, now⟩

/-- What a run accepts, oldest first. -/
def acceptedIntents (events : List (IntentEvent ν)) : List (AdminIntent ν) :=
  events.filterMap Event.output

end VerdantBond
