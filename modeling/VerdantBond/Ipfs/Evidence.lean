import VerdantBond.Ipfs.Base58

set_option autoImplicit false

/-! # Evidence CIDs

`src/ipfs/evidence.ts`: a payload's CIDv0 is the base58 text of its multihash, and `decodeCidV0` takes
the digest out of a CIDv0. `sha256` is a parameter, any function from bytes to digests. What the encoder
writes is accepted and has the digest it was made from, and what the decoder accepts is what the encoder
writes for its digest (`evidence_cids_canonical`).
-/

namespace VerdantBond

/-! ## The functions -/

structure InvalidEvidenceHashError where
  message : JsString
  deriving DecidableEq

def decodeBase58btc (input : JsString) : Except InvalidEvidenceHashError (List UInt8) :=
  match readBase58 (codePoints input) with
  | .error char => .error ⟨js "Invalid base58btc character: \"" ++ char ++ js "\""⟩
  | .ok bytes => .ok bytes

def encodeBase58btc (input : List UInt8) : JsString := base58Text input

def ipfsCidV0FromBytes (sha256 : List UInt8 → Digest) (payload : List UInt8) : JsString :=
  encodeBase58btc (multihashPrefix ++ (sha256 payload).bytes)

def decodeCidV0 (cid : JsString) : Except InvalidEvidenceHashError (List UInt8) :=
  if isCidV0 cid = false then
    .error ⟨js "Invalid evidence hash: \"" ++ cid ++ js "\" is not a well-formed CIDv0"⟩
  else
    match decodeBase58btc cid with
    | .error e => .error e
    | .ok decoded =>
        if decoded.length ≠ 34 ∨ decoded.take 2 ≠ multihashPrefix then
          .error ⟨js "Invalid evidence hash: \"" ++ cid ++
            js "\" does not decode to a 32-byte sha2-256 multihash"⟩
        else .ok (decoded.drop 2)

/-! ## CIDv0 texts -/

variable {cid : JsString}

/-- A CIDv0 is a text of the alphabet that starts with `Q`. -/
theorem isCidV0_cases (h : isCidV0 cid = true) :
    ∃ text, cid = unit 'Q' :: text ∧ ∀ u ∈ cid, u ∈ base58Alphabet := by
  match cid with
  | q :: m :: rest =>
      simp only [isCidV0, Bool.and_eq_true, decide_eq_true_eq, List.all_eq_true] at h
      obtain ⟨⟨⟨rfl, rfl⟩, -⟩, hrest⟩ := h
      refine ⟨_, rfl, fun u hu => ?_⟩
      simp only [List.mem_cons] at hu
      rcases hu with rfl | rfl | hu
      · decide
      · decide
      · exact (isBase58_iff_mem u).mp (hrest u hu)

/-- The alphabet has no surrogates, so a character is a unit. -/
theorem codePoints_base58 {text : JsString} (h : ∀ u ∈ text, u ∈ base58Alphabet) :
    codePoints text = text.map fun u => [u] := by
  induction text with
  | nil => rfl
  | cons u text ih =>
      have hplain : base58Alphabet.all fun u => ¬ IsLead u := by decide
      have hu := of_decide_eq_true (List.all_eq_true.mp hplain u (h u List.mem_cons_self))
      rw [codePoints_plain hu, ih fun v hv => h v (List.mem_cons_of_mem _ hv), List.map_cons]

/-- **Reading the text of a multihash.** -/
theorem readBase58_multihash (d : Digest) :
    (∀ u ∈ base58Text (multihashPrefix ++ d.bytes), u ∈ base58Alphabet) ∧
      readBase58 ((base58Text (multihashPrefix ++ d.bytes)).map fun u => [u]) =
        .ok (multihashPrefix ++ d.bytes) :=
  readBase58_base58Text (by decide) _

/-- **Writing what was read** from a CIDv0. -/
theorem base58Text_of_isCidV0 (h : isCidV0 cid = true) {bytes : List UInt8}
    (hread : readBase58 (cid.map fun u => [u]) = .ok bytes) : base58Text bytes = cid := by
  obtain ⟨text, rfl, hmem⟩ := isCidV0_cases h
  exact base58Text_of_readBase58 hmem (by decide) hread

/-! ## The results -/

theorem decodeCidV0_multihash (d : Digest) :
    decodeCidV0 (encodeBase58btc (multihashPrefix ++ d.bytes)) = .ok d.bytes := by
  obtain ⟨hmem, hread⟩ := readBase58_multihash d
  have hdecode : decodeBase58btc (base58Text (multihashPrefix ++ d.bytes)) =
      .ok (multihashPrefix ++ d.bytes) := by
    rw [decodeBase58btc, codePoints_base58 hmem, hread]
  have hlength : (multihashPrefix ++ d.bytes).length = 34 := by
    rw [List.length_append, d.length]
    rfl
  have hok : ¬ ((multihashPrefix ++ d.bytes).length ≠ 34 ∨
      (multihashPrefix ++ d.bytes).take 2 ≠ multihashPrefix) := by
    rw [hlength]
    simp [multihashPrefix]
  rw [encodeBase58btc, decodeCidV0, isCidV0_multihash, if_neg (by decide), hdecode]
  exact if_neg hok

theorem decodeCidV0_ok {digest : List UInt8} (h : decodeCidV0 cid = .ok digest) :
    encodeBase58btc (multihashPrefix ++ digest) = cid := by
  rw [decodeCidV0] at h
  split at h
  · cases h
  · rename_i hcid
    have hcid : isCidV0 cid = true := by simpa using hcid
    obtain ⟨-, -, hmem⟩ := isCidV0_cases hcid
    rw [decodeBase58btc, codePoints_base58 hmem] at h
    cases hread : readBase58 (cid.map fun u => [u]) with
    | error char =>
        rw [hread] at h
        cases h
    | ok decoded =>
        simp only [hread] at h
        split at h
        · cases h
        · rename_i hstart
          simp only [ne_eq, not_or, not_not] at hstart
          obtain rfl := Except.ok.inj h
          rw [encodeBase58btc, ← hstart.2, List.take_append_drop]
          exact base58Text_of_isCidV0 hcid hread

/-- **Evidence CIDs are well formed and canonical.** The CID of a payload is `Qm` and 44 base58
characters, and decodes to the payload's digest; a string that `decodeCidV0` accepts is the CID of the
digest it decodes to, so that no two accepted strings have one digest. -/
theorem evidence_cids_canonical (sha256 : List UInt8 → Digest) :
    (∀ payload, isCidV0 (ipfsCidV0FromBytes sha256 payload) = true ∧
      decodeCidV0 (ipfsCidV0FromBytes sha256 payload) = .ok (sha256 payload).bytes) ∧
    (∀ cid digest, decodeCidV0 cid = .ok digest → encodeBase58btc (multihashPrefix ++ digest) = cid) ∧
    ∀ cid cid' digest, decodeCidV0 cid = .ok digest → decodeCidV0 cid' = .ok digest → cid = cid' := by
  refine ⟨fun payload => ⟨isCidV0_multihash _, decodeCidV0_multihash _⟩, fun cid digest h =>
    decodeCidV0_ok h, fun cid cid' digest h h' => ?_⟩
  rw [← decodeCidV0_ok h, decodeCidV0_ok h']

end VerdantBond
