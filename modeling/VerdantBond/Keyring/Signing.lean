import VerdantBond.Lib.Utf16

set_option autoImplicit false

/-! # Oracle signing keys

An `OracleKeyring` holds signing keys with windows of validity. A payload is signed with a key that is
valid at a time, and the time travels beside the signature; the signature itself covers the payload
only. So the time that a verifier checks is whatever the sender claims: a signature verifies under
every time of the window of its key, and no others (`verify_signature`), whenever it was made. No
signature is bound to its time (`timestamp_never_bound`).

The windows are whole milliseconds, the times any JavaScript number. `mac` stands for `signEvidence`.
-/

namespace VerdantBond

structure OracleKey where
  keyId : JsString
  secret : JsString
  validFromMs : Nat
  validUntilMs : Option Nat
  /-- The window is not empty. -/
  window : ∀ untilMs ∈ validUntilMs, validFromMs < untilMs

structure OracleKeyring where
  keys : List OracleKey
  nodup : (keys.map OracleKey.keyId).Nodup

/-- A JavaScript number. A time that is missing compares like `NaN`. -/
inductive JsNumber where
  | nan
  | finite (q : ℚ)
  | infinity (negative : Bool)
deriving DecidableEq

namespace JsNumber

/-- `t < n` -/
def below : JsNumber → Nat → Bool
  | nan, _ => false
  | finite q, n => q < n
  | infinity negative, _ => negative

/-- `t >= n` -/
def reaches : JsNumber → Nat → Bool
  | nan, _ => false
  | finite q, n => n ≤ q
  | infinity negative, _ => !negative

variable {t : JsNumber} {m n : Nat}

theorem below_mono (h : t.below m = true) (hle : m ≤ n) : t.below n = true := by
  cases t with
  | nan | infinity => exact h
  | finite q => exact decide_eq_true ((of_decide_eq_true h).trans_le (Nat.cast_le.mpr hle))

theorem reaches_anti (h : t.reaches n = true) (hle : m ≤ n) : t.reaches m = true := by
  cases t with
  | nan | infinity => exact h
  | finite q => exact decide_eq_true ((Nat.cast_le.mpr hle).trans (of_decide_eq_true h))

theorem not_reaches (h : t.below n = true) : t.reaches n = false := by
  cases t with
  | nan => rfl
  | infinity negative => simpa [below, reaches] using h
  | finite q => exact decide_eq_false (not_le.mpr (of_decide_eq_true h))

/-- What reaches some number is not `NaN`, and compares with every other. -/
theorem below_eq_not_reaches (h : t.reaches m = true) (n : Nat) : t.below n = !t.reaches n := by
  cases t with
  | nan => cases h
  | infinity negative => simp [below, reaches]
  | finite q => simp [below, reaches, ← not_le]

end JsNumber

structure SignedOraclePayload (σ : Type) where
  keyId : JsString
  timestampMs : JsNumber
  signature : σ

inductive KeyringError where
  | unknownKey | notValidAt | signatureMismatch
deriving DecidableEq

def isKeyValidAt (key : OracleKey) (timestampMs : JsNumber) : Bool :=
  !timestampMs.below key.validFromMs && key.validUntilMs.all fun untilMs => !timestampMs.reaches untilMs

namespace OracleKeyring

variable {π σ : Type} [DecidableEq σ] (ring : OracleKeyring) (mac : π → JsString → σ)

variable (payload : π) (timestampMs : JsNumber)

def keysValidAt : List OracleKey :=
  ring.keys.filter fun key => isKeyValidAt key timestampMs

/-- The last of the valid keys. -/
def resolveKey : Option OracleKey := (ring.keysValidAt timestampMs).getLast?

def signingKey (keyId : Option JsString) : Option OracleKey :=
  match keyId with
  | some (u :: s) => (ring.keysValidAt timestampMs).find? fun key => key.keyId = u :: s
  | _ => ring.resolveKey timestampMs

def sign (keyId : Option JsString) : Option (SignedOraclePayload σ) :=
  (ring.signingKey timestampMs keyId).map fun key => ⟨key.keyId, timestampMs, mac payload key.secret⟩

def verify (signed : SignedOraclePayload σ) : Except KeyringError JsString :=
  match ring.keys.find? fun key => key.keyId = signed.keyId with
  | none => .error .unknownKey
  | some key =>
      if isKeyValidAt key signed.timestampMs = false then .error .notValidAt
      else if mac payload key.secret ≠ signed.signature then .error .signatureMismatch
      else .ok key.keyId

/-- `verify(..).valid` -/
def verifies (signed : SignedOraclePayload σ) : Bool :=
  (ring.verify mac payload signed).toBool

/-! ## What verification depends on -/

variable {ring mac}

variable {t : JsNumber} {key : OracleKey}

theorem mem_of_signingKey {keyId : Option JsString} (h : ring.signingKey t keyId = some key) :
    key ∈ ring.keys ∧ isKeyValidAt key t = true := by
  refine List.mem_filter.mp (?_ : key ∈ ring.keysValidAt t)
  unfold signingKey at h
  split at h
  · exact List.mem_of_find?_eq_some h
  · exact List.mem_of_getLast? h

theorem find_keyId (hkey : key ∈ ring.keys) :
    (ring.keys.find? fun k => k.keyId = key.keyId) = some key := by
  cases hfind : ring.keys.find? fun k => k.keyId = key.keyId with
  | none => simpa using List.find?_eq_none.mp hfind key hkey
  | some found =>
      have hid : found.keyId = key.keyId := by simpa using List.find?_some hfind
      rw [List.inj_on_of_nodup_map ring.nodup (List.mem_of_find?_eq_some hfind) hkey hid]

/-- **A signature made with the secret of a key verifies exactly under the times of its window.** -/
theorem verify_signature (hkey : key ∈ ring.keys) (payload : π) (t : JsNumber) :
    ring.verifies mac payload ⟨key.keyId, t, mac payload key.secret⟩ = isKeyValidAt key t := by
  simp only [verifies, verify, find_keyId hkey]
  cases isKeyValidAt key t <;> simp [Except.toBool]

theorem isKeyValidAt_iff (key : OracleKey) (t : JsNumber) : isKeyValidAt key t = true ↔
    t.below key.validFromMs = false ∧ ∀ untilMs ∈ key.validUntilMs, t.reaches untilMs = false := by
  simp [isKeyValidAt, Option.all_eq_true]

theorem isKeyValidAt_from (key : OracleKey) :
    isKeyValidAt key (.finite key.validFromMs) = true := by
  rw [isKeyValidAt_iff]
  refine ⟨by simp [JsNumber.below], fun untilMs huntil => JsNumber.not_reaches ?_⟩
  exact decide_eq_true (Nat.cast_lt.mpr (key.window untilMs huntil))

/-- Both comparisons with `NaN` fail. -/
theorem isKeyValidAt_nan (key : OracleKey) : isKeyValidAt key .nan = true :=
  (isKeyValidAt_iff key .nan).mpr ⟨rfl, fun _ _ => rfl⟩

end OracleKeyring

open OracleKeyring

/-- **No signature binds its time.** Whatever `sign` returns verifies, and it verifies under another
time too. And a signature made with the secret of a key, at whatever time, verifies under the first
time of the key's window. -/
theorem timestamp_never_bound {π σ : Type} [DecidableEq σ] (ring : OracleKeyring)
    (mac : π → JsString → σ) (payload : π) :
    (∀ t keyId signed, ring.sign mac payload t keyId = some signed →
      ring.verifies mac payload signed = true ∧
        ∃ t', t' ≠ t ∧ ring.verifies mac payload { signed with timestampMs := t' } = true) ∧
      ∀ key ∈ ring.keys, ring.verifies mac payload
        ⟨key.keyId, .finite key.validFromMs, mac payload key.secret⟩ = true := by
  constructor
  · intro t keyId signed hsign
    obtain ⟨key, hkey, rfl⟩ := Option.map_eq_some_iff.mp hsign
    obtain ⟨hmem, hvalid⟩ := mem_of_signingKey hkey
    simp only [verify_signature hmem]
    refine ⟨hvalid, ?_⟩
    by_cases hnan : t = .nan
    · exact ⟨.finite key.validFromMs, by simp [hnan], isKeyValidAt_from key⟩
    · exact ⟨.nan, fun heq => hnan heq.symm, isKeyValidAt_nan key⟩
  · intro key hmem
    rw [verify_signature hmem, isKeyValidAt_from]

namespace KeyringSample

/-- A key that is valid from 0 and retired at 10. -/
def retired : OracleKey := ⟨js "k", js "s", 0, some 10, by simp⟩

def ring : OracleKeyring := ⟨[retired], by decide⟩

/-- The pair of payload and secret is a perfect code. -/
def code (payload : Nat) (secret : JsString) : Nat × JsString := (payload, secret)

end KeyringSample

open KeyringSample in
/-- What the secret signs at 50 does not verify under 50, but under 3;
so does what `sign` makes at 5. -/
theorem backdated_signature_verifies :
    ring.sign code 7 (.finite 50) none = none ∧
      ring.verifies code 7 ⟨js "k", .finite 50, code 7 (js "s")⟩ = false ∧
      ring.verifies code 7 ⟨js "k", .finite 3, code 7 (js "s")⟩ = true ∧
      ring.sign code 7 (.finite 5) none = some ⟨js "k", .finite 5, code 7 (js "s")⟩ := by
  refine ⟨rfl, rfl, rfl, rfl⟩

open KeyringSample in
theorem timestamp_never_bound_sample :
    ring.sign code 7 (.finite 5) none = some ⟨js "k", .finite 5, code 7 (js "s")⟩ ∧
      ∃ t', t' ≠ .finite 5 ∧ ring.verifies code 7 ⟨js "k", t', code 7 (js "s")⟩ = true :=
  ⟨rfl, ((timestamp_never_bound ring code 7).1 (.finite 5) none _ rfl).2⟩

end VerdantBond
