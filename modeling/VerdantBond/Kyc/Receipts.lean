import Mathlib.Data.Fintype.Card
import VerdantBond.Lib.Json
import VerdantBond.Lib.Machine

set_option autoImplicit false

/-! # Signed KYC receipts

`KycCommitmentService` signs receipts for its commitments, over a JSON text of their fields, and anybody
may ask it to verify one. Signatures are ideal: a signature is made with a key for a text, others can
make any signature with their own keys, and with the key of the service only the service makes some.
The text tells the fields (`receiptData_inj`). But a receipt is verified with the key that stands in
it, so verification means that the service has issued the receipt only for the key of the service,
and for keys under which nothing verifies (`issued_if_verified`).

Both `crypto.sign` and `crypto.verify` are asked for `sha256`. They throw for a key that brings its own
hash, such as Ed25519, which the service generates where none is configured; `takesSha256` says of
which keys they do not (EC and RSA).
-/

namespace VerdantBond

/-- A JavaScript number. -/
inductive ReceiptNumber where
  | finite (n : Numeral)
  /-- `NaN` and the infinities, which JSON writes as `null`. -/
  | nonFinite (name : JsString)

structure KycCommitment where
  commitmentHash : JsString
  eligibilityTier : JsString
  issuedAt : ReceiptNumber
  expirationTimestamp : ReceiptNumber

structure ReceiptSignature (κ : Type) where
  key : κ
  message : JsString

structure SignedKycReceipt (κ : Type) where
  commitment : KycCommitment
  decisionReason : Option JsString
  signature : ReceiptSignature κ
  signerPublicKey : κ

variable {κ : Type}

def ReceiptNumber.json : ReceiptNumber → JsonScalar
  | .finite n => .number n
  | .nonFinite _ => .null

/-- `decisionReason || 'Standard KYC verification'` -/
def effectiveReason : Option JsString → JsString
  | some (u :: s) => u :: s
  | _ => js "Standard KYC verification"

def receiptProperties (c : KycCommitment) (decisionReason : Option JsString) :
    List (JsString × JsonScalar) :=
  [(js "commitmentHash", .string c.commitmentHash),
    (js "eligibilityTier", .string c.eligibilityTier),
    (js "issuedAt", c.issuedAt.json),
    (js "expirationTimestamp", c.expirationTimestamp.json),
    (js "decisionReason", .string (effectiveReason decisionReason))]

/-- The text that is signed. -/
def receiptData (c : KycCommitment) (decisionReason : Option JsString) : JsString :=
  objectText (receiptProperties c decisionReason)

def verifySignedReceipt [DecidableEq κ] (takesSha256 : κ → Bool) (r : SignedKycReceipt κ) : Bool :=
  takesSha256 r.signerPublicKey && r.signature.key = r.signerPublicKey &&
    r.signature.message = receiptData r.commitment r.decisionReason

/-! ## What a text tells -/

def KycCommitment.Finite (c : KycCommitment) : Prop :=
  (∃ n, c.issuedAt = .finite n) ∧ ∃ n, c.expirationTimestamp = .finite n

theorem ReceiptNumber.eq_of_json {x y : ReceiptNumber} (hx : ∃ n, x = .finite n) (h : x.json = y.json) :
    x = y := by
  obtain ⟨n, rfl⟩ := hx
  cases y with
  | finite m => cases h; rfl
  | nonFinite name => cases h

/-- **The text of finite times tells the fields of a receipt.** -/
theorem receiptData_inj {c c' : KycCommitment} {reason reason' : Option JsString} (hc : c.Finite)
    (h : receiptData c reason = receiptData c' reason') :
    c = c' ∧ effectiveReason reason = effectiveReason reason' := by
  have hproperties := objectText_inj h
  simp only [receiptProperties, List.cons.injEq, Prod.mk.injEq, true_and, and_true,
    JsonScalar.string.injEq] at hproperties
  obtain ⟨hhash, htier, hissued, hexpiry, hreason⟩ := hproperties
  refine ⟨?_, hreason⟩
  cases c
  cases c'
  simp only at hhash htier hissued hexpiry
  rw [KycCommitment.mk.injEq]
  exact ⟨hhash, htier, ReceiptNumber.eq_of_json hc.1 hissued, ReceiptNumber.eq_of_json hc.2 hexpiry⟩

/-! ## Runs of the service -/

inductive ReceiptInput where
  | generateOnChainCommitment (c : KycCommitment)
  | issueSignedReceipt (commitmentHash : JsString) (decisionReason : Option JsString)

variable (takesSha256 : κ → Bool) (key : κ) (issued : List (SignedKycReceipt κ))

/-- The commitments of the service; issuing answers with the receipt, or throws. -/
def receiptMachine :
    Machine (JsString → Option KycCommitment) ReceiptInput (Option (SignedKycReceipt κ)) where
  step store
    | .generateOnChainCommitment c => (Function.update store c.commitmentHash (some c), none)
    | .issueSignedReceipt hash reason =>
        (store, (store hash).bind fun c =>
          if takesSha256 key then some ⟨c, reason, ⟨key, receiptData c reason⟩, key⟩ else none)

/-- The receipts issued in a run. -/
def issuedReceipts (inputs : List ReceiptInput) : List (SignedKycReceipt κ) :=
  ((receiptMachine takesSha256 key).history (fun _ => none) inputs).filterMap Event.output

/-- A signature with the key of the service is one that the service made. -/
def Unforged (r : SignedKycReceipt κ) : Prop :=
  r.signature.key = key → ∃ r' ∈ issued, r'.signature = r.signature

/-- The service has signed exactly the fields of `r`. -/
def IssuedAs (r : SignedKycReceipt κ) : Prop :=
  ∃ r' ∈ issued, r'.commitment = r.commitment ∧
    effectiveReason r'.decisionReason = effectiveReason r.decisionReason

theorem issued_signature {takesSha256 : κ → Bool} {key : κ} {inputs : List ReceiptInput}
    {r : SignedKycReceipt κ} (h : r ∈ issuedReceipts takesSha256 key inputs) :
    r.signature = ⟨key, receiptData r.commitment r.decisionReason⟩ := by
  obtain ⟨e, he, hout⟩ := List.mem_filterMap.mp h
  obtain ⟨l₁, input, l₂, rfl, rfl⟩ := (receiptMachine takesSha256 key).exists_of_mem_history he
  cases input with
  | generateOnChainCommitment c => cases hout
  | issueSignedReceipt hash reason =>
      obtain ⟨c, -, hissue⟩ := Option.bind_eq_some_iff.mp hout
      split at hissue
      · cases hissue
        rfl
      · cases hissue

/-- There is always a commitment that has not been issued. -/
theorem exists_not_issued : ∃ c : KycCommitment, c.Finite ∧ ∀ r ∈ issued, r.commitment ≠ c := by
  obtain ⟨hash, hhash⟩ := Infinite.exists_notMem_finset
    (issued.map fun r => r.commitment.commitmentHash).toFinset
  let zero : Numeral := ⟨js "0", by decide⟩
  refine ⟨⟨hash, [], .finite zero, .finite zero⟩, ⟨⟨_, rfl⟩, _, rfl⟩, fun r hr heq => hhash ?_⟩
  rw [List.mem_toFinset]
  exact List.mem_map.mpr ⟨r, hr, by rw [heq]⟩

/-- **The key in a receipt decides**: whatever receipt with the key `k` and finite times verifies, the
service has signed its fields, if and only if `k` is the key of the service or one that verifies
nothing. -/
theorem issued_if_verified [DecidableEq κ] (takesSha256 : κ → Bool) (key : κ)
    (inputs : List ReceiptInput) (k : κ) :
    (∀ r : SignedKycReceipt κ, r.signerPublicKey = k → r.commitment.Finite →
      Unforged key (issuedReceipts takesSha256 key inputs) r →
        verifySignedReceipt takesSha256 r = true →
          IssuedAs (issuedReceipts takesSha256 key inputs) r) ↔ k = key ∨ takesSha256 k = false := by
  constructor
  · intro h
    by_contra hother
    obtain ⟨hne, htakes⟩ := not_or.mp hother
    -- the holder of `k` signs a commitment that was never issued
    obtain ⟨c, hfinite, hnew⟩ := exists_not_issued (issuedReceipts takesSha256 key inputs)
    obtain ⟨r', hr', hcommitment, -⟩ :=
      h ⟨c, none, ⟨k, receiptData c none⟩, k⟩ rfl hfinite (fun hkey => absurd hkey hne)
        (by simpa [verifySignedReceipt] using htakes)
    exact hnew r' hr' hcommitment
  · intro hk r hsigner hfinite hunforged hverify
    simp only [verifySignedReceipt, Bool.and_eq_true, decide_eq_true_eq, hsigner] at hverify
    obtain ⟨⟨htakes, hkey⟩, hmessage⟩ := hverify
    obtain rfl : k = key := hk.resolve_right (by simp [htakes])
    obtain ⟨r', hr', hsignature⟩ := hunforged hkey
    have hsame : receiptData r.commitment r.decisionReason =
        receiptData r'.commitment r'.decisionReason := by
      rw [← hmessage, ← hsignature, issued_signature hr']
    obtain ⟨hcommitment, hreason⟩ := receiptData_inj hfinite hsame
    exact ⟨r', hr', hcommitment.symm, hreason.symm⟩

/-- The service has the Ed25519 key 0, and somebody an EC key 1. -/
def sampleKeys : Nat → Bool := (· = 1)

/-- A receipt signed with the key 1. -/
def forgedReceipt : SignedKycReceipt Nat :=
  let zero : ReceiptNumber := .finite ⟨js "0", by decide⟩
  let c : KycCommitment := ⟨js "hash", js "TIER_3_INSTITUTIONAL", zero, zero⟩
  ⟨c, none, ⟨1, receiptData c none⟩, 1⟩

theorem forged_receipt_verifies :
    Unforged 0 (issuedReceipts sampleKeys 0 []) forgedReceipt ∧
      verifySignedReceipt sampleKeys forgedReceipt = true ∧
      ¬ IssuedAs (issuedReceipts sampleKeys 0 []) forgedReceipt := by
  refine ⟨fun hkey => ?_, by simp [verifySignedReceipt, forgedReceipt, sampleKeys], fun ⟨r, hr, _⟩ => ?_⟩
  · cases hkey
  · cases hr

end VerdantBond
