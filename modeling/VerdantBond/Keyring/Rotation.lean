import VerdantBond.Keyring.Signing
import VerdantBond.Lib.Machine

set_option autoImplicit false

/-! # Rotation of the oracle keys

`rotateKey` appends a new key and closes every older key at the end of the overlap, unless it closes
earlier already. The module follows a keyring through any number of rotations, with payloads signed in
between (`rotation_keeps_history`):

- what was signed keeps verifying, since no window is closed before the new key begins;
- from the first key on some key is valid at every time, since a window reaches the next key;
- no older key outlives the overlap of a later rotation, since a window is never extended again.
-/

namespace VerdantBond

open OracleKeyring List

/-- The window of a key at a rotation; `none` where the schema refuses what comes out. -/
def rebound (newFromMs overlapUntil : Nat) (key : OracleKey) : Option OracleKey :=
  if newFromMs < key.validFromMs then some key
  else if key.validUntilMs.any (· ≤ overlapUntil) then some key
  else if h : key.validFromMs < overlapUntil then
    some { key with validUntilMs := some overlapUntil, window := by simpa using h }
  else none

/-- What a rotation does to one older key. -/
structure Rebound (newFromMs overlapUntil : Nat) (key key' : OracleKey) : Prop where
  keyId : key'.keyId = key.keyId
  secret : key'.secret = key.secret
  /-- A window that closes is not extended. -/
  closed : ∀ u ∈ key.validUntilMs, ∃ u' ∈ key'.validUntilMs, u' ≤ u
  /-- A key that has begun closes by the end of the overlap. -/
  begun : key.validFromMs ≤ newFromMs → ∃ u' ∈ key'.validUntilMs, u' ≤ overlapUntil
  /-- Times before the overlap ends stay in the window. -/
  before : ∀ t : JsNumber, t.below overlapUntil = true → isKeyValidAt key t = true →
    isKeyValidAt key' t = true

theorem rebound_spec {newFromMs overlapUntil : Nat} {key key' : OracleKey}
    (h : rebound newFromMs overlapUntil key = some key') : Rebound newFromMs overlapUntil key key' := by
  unfold rebound at h
  split at h
  next hlater =>
    cases h
    exact ⟨rfl, rfl, fun u hu => ⟨u, hu, le_rfl⟩, fun hbegun => absurd hbegun (by omega),
      fun t _ hvalid => hvalid⟩
  next =>
    split at h
    next hclosed =>
      -- it ends before the overlap does, and is left as it is
      cases h
      obtain ⟨u, hu, hle⟩ := (Option.any_eq_true ..).mp hclosed
      exact ⟨rfl, rfl, fun u hu => ⟨u, hu, le_rfl⟩, fun _ => ⟨u, hu, of_decide_eq_true hle⟩,
        fun t _ hvalid => hvalid⟩
    next hopen =>
      split at h
      next =>
        cases h
        refine ⟨rfl, rfl, fun u hu => ⟨overlapUntil, rfl, ?_⟩, fun _ => ⟨overlapUntil, rfl, le_rfl⟩,
          fun t ht hvalid => ?_⟩
        · by_contra hlt
          exact hopen ((Option.any_eq_true ..).mpr ⟨u, hu, by simp; omega⟩)
        · rw [isKeyValidAt_iff] at hvalid ⊢
          refine ⟨hvalid.1, fun u hu => ?_⟩
          cases hu
          exact JsNumber.not_reaches ht
      next => cases h

namespace OracleKeyring

/-- `rotateKey`: the new keyring; `none` where it throws. -/
def rotateKey (ring : OracleKeyring) (newKey : OracleKey) (overlapMs : Int) : Option OracleKeyring :=
  if overlapMs < 0 then none
  else
    match ring.keys.mapM (rebound newKey.validFromMs (newKey.validFromMs + overlapMs.toNat)) with
    | none => none
    | some rotated =>
        if h : ((rotated ++ [newKey]).map OracleKey.keyId).Nodup then some ⟨rotated ++ [newKey], h⟩
        else none

theorem exists_of_mem_mapM {f : OracleKey → Option OracleKey} {keys keys' : List OracleKey}
    {key : OracleKey} (h : keys.mapM f = some keys') (hkey : key ∈ keys) :
    ∃ key' ∈ keys', f key = some key' := by
  induction keys generalizing keys' with
  | nil => cases hkey
  | cons k keys ih =>
      simp only [mapM_cons, Option.bind_eq_bind, Option.bind_eq_some_iff, Option.pure_def,
        Option.some.injEq] at h
      obtain ⟨k', hk', rest, hrest, rfl⟩ := h
      rcases mem_cons.mp hkey with rfl | hkey
      · exact ⟨k', mem_cons_self, hk'⟩
      · obtain ⟨key', hmem, hkey'⟩ := ih hrest hkey
        exact ⟨key', mem_cons_of_mem _ hmem, hkey'⟩

/-- What a rotation makes of the keyring. -/
structure Rotated (ring ring' : OracleKeyring) (newKey : OracleKey) (overlapMs : Int) : Prop where
  nonneg : 0 ≤ overlapMs
  new : newKey ∈ ring'.keys
  old : ∀ key ∈ ring.keys, ∃ key' ∈ ring'.keys,
    Rebound newKey.validFromMs (newKey.validFromMs + overlapMs.toNat) key key'

theorem rotateKey_spec {ring ring' : OracleKeyring} {newKey : OracleKey} {overlapMs : Int}
    (h : ring.rotateKey newKey overlapMs = some ring') : Rotated ring ring' newKey overlapMs := by
  unfold rotateKey at h
  split at h
  · cases h
  · split at h
    · cases h
    · next hnonneg rotated hmap =>
        split at h
        · cases h
          refine ⟨by omega, by simp, fun key hkey => ?_⟩
          obtain ⟨key', hkey', hrebound⟩ := exists_of_mem_mapM hmap hkey
          exact ⟨key', mem_append_left _ hkey', rebound_spec hrebound⟩
        · cases h

end OracleKeyring

/-! ## Runs -/

inductive KeyringInput (π : Type) where
  | sign (payload : π) (timestampMs : JsNumber) (keyId : Option JsString)
  | rotateKey (newKey : OracleKey) (overlapMs : Int)

inductive KeyringOutput (σ : Type) where
  | signed (signed : SignedOraclePayload σ)
  | rotated
  | thrown

variable {π σ : Type} [DecidableEq σ] (mac : π → JsString → σ)

/-- The oracle process: it signs with its keyring and replaces it by the rotated one. -/
def keyringMachine : Machine OracleKeyring (KeyringInput π) (KeyringOutput σ) where
  step ring input :=
    match input with
    | .sign payload t keyId =>
        match ring.sign mac payload t keyId with
        | some signed => (ring, .signed signed)
        | none => (ring, .thrown)
    | .rotateKey newKey overlapMs =>
        match ring.rotateKey newKey overlapMs with
        | some ring' => (ring', .rotated)
        | none => (ring, .thrown)

omit [DecidableEq σ] in
/-- Only a rotation that succeeds changes the keyring. -/
theorem keyring_step (ring : OracleKeyring) (input : KeyringInput π) :
    (((keyringMachine mac).step ring input).1 = ring ∧
        (∀ payload t keyId signed, input = .sign payload t keyId →
          ((keyringMachine mac).step ring input).2 = .signed signed →
            ring.sign mac payload t keyId = some signed) ∧
        ((keyringMachine mac).step ring input).2 ≠ .rotated) ∨
      ∃ newKey overlapMs ring', input = .rotateKey newKey overlapMs ∧
        ring.rotateKey newKey overlapMs = some ring' ∧
        (keyringMachine mac).step ring input = (ring', .rotated) := by
  cases input with
  | sign payload t keyId =>
      refine .inl ?_
      simp only [keyringMachine]
      cases hsign : ring.sign mac payload t keyId with
      | none => exact ⟨rfl, fun _ _ _ _ _ hout => (by cases hout), by simp⟩
      | some signed =>
          refine ⟨rfl, fun _ _ _ _ hin hout => ?_, by simp⟩
          cases hin
          cases hout
          exact hsign
  | rotateKey newKey overlapMs =>
      simp only [keyringMachine]
      cases hrotate : ring.rotateKey newKey overlapMs with
      | none => exact .inl ⟨rfl, fun _ _ _ _ hin _ => (by cases hin), by simp⟩
      | some ring' => exact .inr ⟨newKey, overlapMs, ring', rfl, hrotate, rfl⟩

abbrev KeyringEvent (π σ : Type) := Event OracleKeyring (KeyringInput π) (KeyringOutput σ)

/-- A rotation that succeeds brings an open key that begins after all keys and after all times signed
so far. -/
def InOrder (events : List (KeyringEvent π σ)) (e : KeyringEvent π σ) : Prop :=
  ∀ newKey overlapMs, e.input = .rotateKey newKey overlapMs → e.output = .rotated →
    newKey.validUntilMs = none ∧ (∀ key ∈ e.pre.keys, key.validFromMs < newKey.validFromMs) ∧
      ∀ e' ∈ events, ∀ signed, e'.output = .signed signed →
        signed.timestampMs.below newKey.validFromMs = true

/-- What holds of the keyring after the events of a run. -/
structure Continuous (first : OracleKey) (events : List (KeyringEvent π σ)) (ring : OracleKeyring) :
    Prop where
  signed : ∀ e ∈ events, ∀ payload t keyId signed, e.input = .sign payload t keyId →
    e.output = .signed signed →
      ∃ key ∈ ring.keys, signed = ⟨key.keyId, signed.timestampMs, mac payload key.secret⟩ ∧
        isKeyValidAt key signed.timestampMs = true
  covered : ∀ t : JsNumber, t.reaches first.validFromMs = true →
    ∃ key ∈ ring.keys, isKeyValidAt key t = true
  retired : ∀ e ∈ events, ∀ newKey overlapMs, e.input = .rotateKey newKey overlapMs →
    e.output = .rotated → ∀ key ∈ e.pre.keys, ∃ key' ∈ ring.keys, key'.keyId = key.keyId ∧
      ∃ u ∈ key'.validUntilMs, (u : Int) ≤ newKey.validFromMs + overlapMs

variable {mac} {first : OracleKey} {events : List (KeyringEvent π σ)} {ring : OracleKeyring}

omit [DecidableEq σ] in
/-- An event that leaves the keyring alone adds what it signed. -/
theorem Continuous.snoc_kept (h : Continuous mac first events ring) {input : KeyringInput π}
    {output : KeyringOutput σ}
    (hsigned : ∀ payload t keyId signed, input = .sign payload t keyId → output = .signed signed →
      ring.sign mac payload t keyId = some signed) (hrotated : output ≠ .rotated) :
    Continuous mac first (events ++ [⟨ring, input, output, ring⟩]) ring := by
  refine ⟨fun e he payload t keyId signed hinput houtput => ?_, h.covered,
    fun e he newKey overlapMs hinput houtput => ?_⟩
  · rcases mem_append.mp he with he | he
    · exact h.signed e he payload t keyId signed hinput houtput
    · cases mem_singleton.mp he
      obtain ⟨key, hkey, rfl⟩ := Option.map_eq_some_iff.mp (hsigned _ _ _ _ hinput houtput)
      obtain ⟨hmem, hvalid⟩ := mem_of_signingKey hkey
      exact ⟨key, hmem, rfl, hvalid⟩
  · rcases mem_append.mp he with he | he
    · exact h.retired e he newKey overlapMs hinput houtput
    · cases mem_singleton.mp he
      exact absurd houtput hrotated

omit [DecidableEq σ] in
/-- **A rotation in order keeps what holds.** -/
theorem Continuous.snoc_rotated (h : Continuous mac first events ring) {ring' : OracleKeyring}
    {newKey : OracleKey} {overlapMs : Int} (hrotated : OracleKeyring.Rotated ring ring' newKey overlapMs)
    (horder : InOrder events ⟨ring, .rotateKey newKey overlapMs, .rotated, ring'⟩) :
    Continuous mac first (events ++ [⟨ring, .rotateKey newKey overlapMs, .rotated, ring'⟩]) ring' := by
  obtain ⟨hopen, hlater, hsigned⟩ := horder newKey overlapMs rfl rfl
  have hnonneg := hrotated.nonneg
  -- before the new key begins, every window is as it was
  have hkept : ∀ key ∈ ring.keys, ∀ t : JsNumber, t.below newKey.validFromMs = true →
      isKeyValidAt key t = true → ∃ key' ∈ ring'.keys, key'.keyId = key.keyId ∧
        key'.secret = key.secret ∧ isKeyValidAt key' t = true := by
    intro key hkey t ht hvalid
    obtain ⟨key', hkey', hrebound⟩ := hrotated.old key hkey
    exact ⟨key', hkey', hrebound.keyId, hrebound.secret,
      hrebound.before t (JsNumber.below_mono ht (Nat.le_add_right _ _)) hvalid⟩
  refine ⟨fun e he payload t keyId signed hinput houtput => ?_, fun t ht => ?_,
    fun e he k overlap hinput houtput key hkey => ?_⟩
  · rcases mem_append.mp he with he | he
    · obtain ⟨key, hkey, heq, hvalid⟩ := h.signed e he payload t keyId signed hinput houtput
      obtain ⟨key', hkey', hid, hsecret, hvalid'⟩ :=
        hkept key hkey signed.timestampMs (hsigned e he signed houtput) hvalid
      exact ⟨key', hkey', by rw [hid, hsecret]; exact heq, hvalid'⟩
    · cases mem_singleton.mp he
      cases hinput
  · have hbelow := JsNumber.below_eq_not_reaches ht newKey.validFromMs
    cases hnew : t.reaches newKey.validFromMs with
    | true =>
        refine ⟨newKey, hrotated.new, (isKeyValidAt_iff _ _).mpr ⟨?_, by simp [hopen]⟩⟩
        rw [hbelow, hnew, Bool.not_true]
    | false =>
        obtain ⟨key, hkey, hvalid⟩ := h.covered t ht
        obtain ⟨key', hkey', -, -, hvalid'⟩ := hkept key hkey t (by rw [hbelow, hnew, Bool.not_false]) hvalid
        exact ⟨key', hkey', hvalid'⟩
  · rcases mem_append.mp he with he | he
    · obtain ⟨old, hold, hid, u, hu, hle⟩ := h.retired e he k overlap hinput houtput key hkey
      obtain ⟨key', hkey', hrebound⟩ := hrotated.old old hold
      obtain ⟨u', hu', hle'⟩ := hrebound.closed u hu
      exact ⟨key', hkey', hrebound.keyId.trans hid, u', hu', by omega⟩
    · cases mem_singleton.mp he
      cases hinput
      obtain ⟨key', hkey', hrebound⟩ := hrotated.old key hkey
      obtain ⟨u', hu', hle'⟩ := hrebound.begun (hlater key hkey).le
      exact ⟨key', hkey', hrebound.keyId, u', hu', by omega⟩

omit [DecidableEq σ] in
theorem continuous_run {start : OracleKeyring} (hstart : start.keys = [first])
    (hopen : first.validUntilMs = none) (inputs : List (KeyringInput π))
    (horder : Machine.Guarded InOrder ((keyringMachine mac).history start inputs)) :
    Continuous mac first ((keyringMachine mac).history start inputs)
      ((keyringMachine mac).run start inputs) := by
  refine (keyringMachine mac).guarded_induct ?_ (fun l input h hevent => ?_) inputs horder
  · refine ⟨by simp, fun t ht => ⟨first, by simp [hstart], ?_⟩, by simp⟩
    rw [isKeyValidAt_iff, JsNumber.below_eq_not_reaches ht, ht]
    exact ⟨rfl, by simp [hopen]⟩
  · simp only [Machine.event] at hevent ⊢
    rcases keyring_step mac ((keyringMachine mac).run start l) input with
      ⟨hkept, hsigned, hrotated⟩ | ⟨newKey, overlapMs, ring', rfl, hrotate, hstep⟩
    · rw [hkept]
      exact h.snoc_kept hsigned hrotated
    · rw [hstep] at hevent ⊢
      exact h.snoc_rotated (rotateKey_spec hrotate) hevent

/-- **Rotation neither breaks history nor leaves gaps.** In every run that starts with one open key
and rotates in order, every signature made so far verifies under the keyring reached, `sign` without
a key id succeeds at every time from the first key on, and no key from before a rotation verifies
from the end of its overlap on. -/
theorem rotation_keeps_history (mac : π → JsString → σ) (start : OracleKeyring) (first : OracleKey)
    (hstart : start.keys = [first]) (hopen : first.validUntilMs = none) (inputs : List (KeyringInput π))
    (horder : Machine.Guarded InOrder ((keyringMachine mac).history start inputs)) :
    let ring := (keyringMachine mac).run start inputs
    (∀ e ∈ (keyringMachine mac).history start inputs, ∀ payload t keyId signed,
      e.input = .sign payload t keyId → e.output = .signed signed →
        ring.verifies mac payload signed = true) ∧
    (∀ t : JsNumber, t.reaches first.validFromMs = true →
      ring.keysValidAt t ≠ [] ∧ ∀ payload, (ring.sign mac payload t none).isSome) ∧
    (∀ e ∈ (keyringMachine mac).history start inputs, ∀ newKey overlapMs,
      e.input = .rotateKey newKey overlapMs → e.output = .rotated → ∀ key ∈ e.pre.keys,
        ∀ payload signed, signed.keyId = key.keyId →
          signed.timestampMs.reaches (newKey.validFromMs + overlapMs.toNat) = true →
            ring.verifies mac payload signed = false) := by
  intro ring
  have h := continuous_run hstart hopen inputs horder
  refine ⟨fun e he payload t keyId signed hinput houtput => ?_, fun t ht => ?_,
    fun e he newKey overlapMs hinput houtput key hkey payload signed hid ht => ?_⟩
  · obtain ⟨key, hkey, heq, hvalid⟩ := h.signed e he payload t keyId signed hinput houtput
    rw [heq, OracleKeyring.verify_signature hkey]
    exact hvalid
  · obtain ⟨key, hkey, hvalid⟩ := h.covered t ht
    have hne : ring.keysValidAt t ≠ [] := List.ne_nil_of_mem (List.mem_filter.mpr ⟨hkey, hvalid⟩)
    refine ⟨hne, fun payload => ?_⟩
    simpa [OracleKeyring.sign, OracleKeyring.signingKey, OracleKeyring.resolveKey] using hne
  · -- the key has been bounded by the end of the overlap, under the same id
    obtain ⟨key', hkey', hid', u, hu, hle⟩ := h.retired e he newKey overlapMs hinput houtput key hkey
    have hfind := OracleKeyring.find_keyId hkey'
    rw [hid', ← hid] at hfind
    have hclosed : isKeyValidAt key' signed.timestampMs = false := by
      rw [Bool.eq_false_iff, Ne, OracleKeyring.isKeyValidAt_iff]
      exact fun hvalid => Bool.false_ne_true
        ((hvalid.2 u hu).symm.trans (JsNumber.reaches_anti ht (by omega)))
    simp only [OracleKeyring.verifies, OracleKeyring.verify]
    rw [hfind]
    simp [hclosed, Except.toBool]

namespace KeyringSample

def firstKey : OracleKey := ⟨js "a", js "s", 0, none, by simp⟩
def secondKey : OracleKey := ⟨js "b", js "t", 20, none, by simp⟩

def oneKey : OracleKeyring := ⟨[firstKey], by decide⟩

/-- Sign at 5, then rotate to a key from 20 on with an overlap of 10. -/
def rotation : List (KeyringInput Nat) := [.sign 7 (.finite 5) none, .rotateKey secondKey 10]

theorem rotation_inOrder : Machine.Guarded InOrder ((keyringMachine code).history oneKey rotation) := by
  intro before e after h newKey overlapMs hinput _
  obtain ⟨l₁, input, l₂, hl, rfl, rfl⟩ := (keyringMachine code).history_eq_append h
  match l₁, hl with
  | [], hl =>
      cases hl
      cases hinput
  | [_], hl =>
      cases hl
      cases hinput
      refine ⟨rfl, fun key hkey => ?_, fun e he signed hsigned => ?_⟩
      · rw [mem_singleton.mp hkey]
        decide
      · rw [mem_singleton.mp he] at hsigned
        cases hsigned
        rfl
  | _ :: _ :: l, hl => simp [rotation] at hl

end KeyringSample

open KeyringSample in
/-- The signature made before the rotation still verifies, and what the first key signs after the
overlap does not. -/
theorem rotation_keeps_history_sample :
    let ring := (keyringMachine code).run oneKey rotation
    ring.verifies code 7 ⟨js "a", .finite 5, code 7 (js "s")⟩ = true ∧
      (ring.sign code 7 (.finite 25) none).isSome ∧
      ring.verifies code 7 ⟨js "a", .finite 30, code 7 (js "s")⟩ = false := by
  obtain ⟨hsigned, hcovered, hretired⟩ :=
    rotation_keeps_history code oneKey firstKey rfl rfl rotation rotation_inOrder
  refine ⟨?_, (hcovered (.finite 25) rfl).2 7, ?_⟩
  · exact hsigned _ (List.mem_cons_self) 7 (.finite 5) none _ rfl rfl
  · exact hretired _ (List.mem_cons_of_mem _ List.mem_cons_self) secondKey 10 rfl rfl firstKey
      List.mem_cons_self 7 _ rfl rfl

end VerdantBond
