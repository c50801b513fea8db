import VerdantBond.Ipfs.Evidence

set_option autoImplicit false

/-! # On-chain evidence digests

`src/api/src/common/utils/cid.util.ts`: `encodeCid` takes the 32 bytes that are stored on chain out
of a CIDv0 or a hexadecimal digest, and `decodeCid` writes stored bytes as a CID. It asks for a
leading `0x01` before it asks for 32 bytes, so a digest that starts with that byte is taken for a
CIDv1 and written in base32, 52 characters that `encodeCid` refuses. Every other digest comes back,
and so does every CIDv0 of one (`digest_round_trip_iff`).
-/

namespace VerdantBond

open List

/-! ## The functions -/

structure InvalidEvidenceReferenceError where
  message : JsString
  deriving DecidableEq

/-- `Buffer.from(cid, 'hex')` of a string of hexadecimal digits. -/
def hexBytes : JsString → List UInt8
  | u :: v :: s => UInt8.ofNat ((hexValue u).getD 0 * 16 + (hexValue v).getD 0) :: hexBytes s
  | _ => []

variable (buffer : List UInt8) (cid : JsString)

/-- `/^[0-9a-fA-F]{64}$/`. -/
def isHexDigest : Bool := cid.length = 64 && cid.all fun u => (hexValue u).isSome

def base58Decode (str : JsString) : Except JsString (List UInt8) := readBase58 (str.map fun u => [u])

def base58Encode : JsString := base58Text buffer

def tryExtractDigest : Option (List UInt8) :=
  if cid.length = 0 then none
  else if isHexDigest cid then some (hexBytes cid)
  else if isCidV0 cid then
    match base58Decode cid with
    | .error _ => none
    | .ok decoded =>
        if decoded.length = 34 ∧ decoded[0]? = some 0x12 ∧ decoded[1]? = some 0x20 then
          some (decoded.drop 2)
        else none
  else none

def encodeCid : Except InvalidEvidenceReferenceError (List UInt8) :=
  if cid = [] then .error ⟨js "Invalid evidence reference: must be a non-empty string"⟩
  else
    match tryExtractDigest cid with
    | none => .error ⟨js "Invalid evidence reference: \"" ++ cid ++
        js "\" is not a supported CIDv0 or 64-character hex SHA-256 digest"⟩
    | some digest =>
        if digest.length ≠ 32 then
          .error ⟨js "Invalid evidence reference: \"" ++ cid ++
            js "\" is not a supported CIDv0 or 64-character hex SHA-256 digest"⟩
        else .ok digest

def isValidCid : Bool := (tryExtractDigest cid).isSome

def base32Alphabet : JsString := js "ABCDEFGHIJKLMNOPQRSTUVWXYZ234567"

structure Base32State where
  bits : Nat
  value : UInt32
  output : JsString

/-- `while (bits >= 5)`. -/
def base32Drain (value : UInt32) : Nat → JsString → Nat × JsString
  | bits + 5, output =>
      base32Drain value bits
        (output ++ [base32Alphabet.getD ((value >>> UInt32.ofNat bits) &&& 31).toNat 0])
  | bits, output => (bits, output)

def base32Step (s : Base32State) (byte : UInt8) : Base32State :=
  let value := (s.value <<< 8) ||| byte.toUInt32
  let drained := base32Drain value (s.bits + 8) s.output
  ⟨drained.1, value, drained.2⟩

def base32Encode : JsString :=
  let s := buffer.foldl base32Step ⟨0, 0, []⟩
  if 0 < s.bits then
    s.output ++ [base32Alphabet.getD ((s.value <<< UInt32.ofNat (5 - s.bits)) &&& 31).toNat 0]
  else s.output

def decodeCid (bytes : List UInt8) : JsString :=
  if bytes.length = 0 then []
  else if bytes.length = 34 ∧ bytes[0]? = some 0x12 ∧ bytes[1]? = some 0x20 then base58Encode bytes
  else if 2 < bytes.length ∧ bytes[0]? = some 0x01 then base32Encode bytes
  else if bytes.length = 32 then base58Encode (multihashPrefix ++ bytes)
  else base32Encode bytes

/-! ## Base32 -/

/-- The loop takes five bits for each character. -/
theorem base32Drain_count (value : UInt32) (bits : Nat) (output : JsString) :
    (base32Drain value bits output).1 < 5 ∧
      5 * (base32Drain value bits output).2.length + (base32Drain value bits output).1 =
        5 * output.length + bits := by
  induction bits using Nat.strong_induction_on generalizing output with
  | _ bits ih =>
      by_cases h : 5 ≤ bits
      · obtain ⟨rest, rfl⟩ := Nat.exists_eq_add_of_le' h
        rw [base32Drain]
        obtain ⟨hlt, hcount⟩ := ih rest (by omega)
          (output ++ [base32Alphabet.getD ((value >>> UInt32.ofNat rest) &&& 31).toNat 0])
        rw [length_append, length_singleton] at hcount
        exact ⟨hlt, by omega⟩
      · have hstop : base32Drain value bits output = (bits, output) := by
          rw [base32Drain]
          omega
        rw [hstop]
        exact ⟨by omega, rfl⟩

theorem base32Loop_count : (buffer.foldl base32Step ⟨0, 0, []⟩).bits < 5 ∧
      5 * (buffer.foldl base32Step ⟨0, 0, []⟩).output.length +
        (buffer.foldl base32Step ⟨0, 0, []⟩).bits = 8 * buffer.length := by
  induction buffer using reverseRecOn with
  | nil => exact ⟨by decide, rfl⟩
  | append_singleton buffer byte ih =>
      rw [foldl_append, foldl_cons, foldl_nil, length_append]
      generalize buffer.foldl base32Step ⟨0, 0, []⟩ = s at ih
      obtain ⟨hlt, hcount⟩ :=
        base32Drain_count ((s.value <<< 8) ||| byte.toUInt32) (s.bits + 8) s.output
      refine ⟨hlt, hcount.trans ?_⟩
      rw [length_singleton]
      omega

/-- 32 bytes take 52 characters of base32. -/
theorem base32Encode_length {buffer : List UInt8} (h : buffer.length = 32) :
    (base32Encode buffer).length = 52 := by
  obtain ⟨hlt, hcount⟩ := base32Loop_count buffer
  rw [h] at hcount
  rw [base32Encode, if_pos (by omega), length_append, length_singleton]
  omega

/-! ## The round trips -/

variable {cid : JsString} {digest : List UInt8}

theorem length_of_isCidV0 (h : isCidV0 cid = true) : cid.length = 46 := by
  match cid with
  | q :: m :: rest =>
      simp only [isCidV0, Bool.and_eq_true, decide_eq_true_eq] at h
      rw [length_cons, length_cons, h.1.2]

theorem isHexDigest_of_isCidV0 (h : isCidV0 cid = true) : isHexDigest cid = false := by
  rw [isHexDigest, length_of_isCidV0 h]
  rfl

/-- A string of another length than 46 and 64 is not a reference. -/
theorem tryExtractDigest_of_length (h46 : cid.length ≠ 46) (h64 : cid.length ≠ 64) :
    tryExtractDigest cid = none := by
  have hhex : isHexDigest cid = false := by simp [isHexDigest, h64]
  have hcid : isCidV0 cid = false := by
    by_contra hcid
    exact h46 (length_of_isCidV0 (by simpa using hcid))
  simp [tryExtractDigest, hhex, hcid]

theorem tryExtractDigest_multihash (d : Digest) :
    tryExtractDigest (base58Encode (multihashPrefix ++ d.bytes)) = some d.bytes := by
  have hcid := isCidV0_multihash d
  have hread := (readBase58_multihash d).2
  have hlength : (multihashPrefix ++ d.bytes).length = 34 := by
    rw [length_append, d.length]
    rfl
  rw [tryExtractDigest, base58Encode, length_of_isCidV0 hcid, if_neg (by decide),
    isHexDigest_of_isCidV0 hcid, hcid, base58Decode, hread]
  simp only [hlength]
  rfl

theorem encodeCid_multihash (d : Digest) :
    encodeCid (base58Encode (multihashPrefix ++ d.bytes)) = .ok d.bytes := by
  have hne : base58Encode (multihashPrefix ++ d.bytes) ≠ [] := by
    intro hnil
    have hlength := length_of_isCidV0 (isCidV0_multihash d)
    rw [base58Encode] at hnil
    rw [hnil] at hlength
    cases hlength
  rw [encodeCid, if_neg hne, tryExtractDigest_multihash]
  simp only [d.length]
  rfl

theorem tryExtractDigest_of_encodeCid (h : encodeCid cid = .ok digest) :
    tryExtractDigest cid = some digest := by
  rw [encodeCid] at h
  split at h
  · cases h
  · cases htry : tryExtractDigest cid with
    | none =>
        rw [htry] at h
        cases h
    | some found =>
        simp only [htry] at h
        split at h
        · cases h
        · rw [Except.ok.inj h]

/-- A CIDv0 that is accepted is the CIDv0 of its digest. -/
theorem base58Encode_of_encodeCid (hcid : isCidV0 cid = true) (h : encodeCid cid = .ok digest) :
    base58Encode (multihashPrefix ++ digest) = cid := by
  have hextract := tryExtractDigest_of_encodeCid h
  rw [tryExtractDigest, length_of_isCidV0 hcid, if_neg (by decide), isHexDigest_of_isCidV0 hcid,
    hcid] at hextract
  simp only [Bool.false_eq_true, if_false, if_true] at hextract
  cases hread : base58Decode cid with
  | error char =>
      rw [hread] at hextract
      cases hextract
  | ok decoded =>
      simp only [hread] at hextract
      split at hextract
      · rename_i hstart
        obtain rfl := Option.some.inj hextract
        have hsplit : multihashPrefix ++ decoded.drop 2 = decoded := by
          match decoded with
          | a :: b :: rest =>
              simp only [getElem?_cons_zero, getElem?_cons_succ, Option.some.injEq] at hstart
              rw [hstart.2.1, hstart.2.2]
              rfl
          | [a] => cases hstart.1
          | [] => cases hstart.1
        rw [base58Encode, hsplit]
        exact base58Text_of_isCidV0 hcid hread
      · cases hextract

/-- What a digest is written as. -/
theorem decodeCid_digest (d : Digest) :
    decodeCid d.bytes =
      if d.bytes[0]? = some 1 then base32Encode d.bytes
      else base58Encode (multihashPrefix ++ d.bytes) := by
  rw [decodeCid, d.length, if_neg (by decide), if_neg (fun h => absurd h.1 (by decide)), if_pos rfl]
  simp

/-- **A digest comes back exactly if it does not start with `0x01`**, and so does a CIDv0 of it. -/
theorem digest_round_trip_iff (d : Digest) :
    ((isValidCid (decodeCid d.bytes) = true ∧ encodeCid (decodeCid d.bytes) = .ok d.bytes) ↔
      d.bytes[0]? ≠ some 1) ∧
    ∀ cid, isCidV0 cid = true → encodeCid cid = .ok d.bytes →
      (decodeCid d.bytes = cid ↔ d.bytes[0]? ≠ some 1) := by
  by_cases hone : d.bytes[0]? = some 1
  · have hdecode : decodeCid d.bytes = base32Encode d.bytes := by rw [decodeCid_digest, if_pos hone]
    have hlength := base32Encode_length d.length
    refine ⟨⟨fun h => ?_, fun h => absurd hone h⟩,
      fun cid hcid _ => ⟨fun h => ?_, fun h => absurd hone h⟩⟩
    · have hnone : tryExtractDigest (base32Encode d.bytes) = none :=
        tryExtractDigest_of_length (by omega) (by omega)
      rw [hdecode, isValidCid, hnone] at h
      cases h.1
    · rw [hdecode] at h
      have hcidlength := length_of_isCidV0 hcid
      rw [← h, hlength] at hcidlength
      cases hcidlength
  · have hdecode : decodeCid d.bytes = base58Encode (multihashPrefix ++ d.bytes) := by
      rw [decodeCid_digest, if_neg hone]
    refine ⟨⟨fun _ => hone, fun _ => ?_⟩, fun cid hcid h => ⟨fun _ => hone, fun _ => ?_⟩⟩
    · rw [hdecode, isValidCid, tryExtractDigest_multihash]
      exact ⟨rfl, encodeCid_multihash d⟩
    · rw [hdecode]
      exact base58Encode_of_encodeCid hcid h

/-- The digest `0x01` followed by zeros. -/
def shadowedDigest : Digest := ⟨1 :: List.replicate 31 0, by decide⟩

/-- Its CID is refused. -/
theorem digest_refused :
    isValidCid (decodeCid shadowedDigest.bytes) = false ∧
      encodeCid (decodeCid shadowedDigest.bytes) =
        .error ⟨js "Invalid evidence reference: \"" ++
          js "AEAAAAAAAAAAAAAAAAAAAAAAAAAAAAAAAAAAAAAAAAAAAAAAAAAA" ++
          js "\" is not a supported CIDv0 or 64-character hex SHA-256 digest"⟩ := by
  decide +kernel

/-! ## The two implementations -/

/-- `isValidEvidenceHash` of `src/ipfs/evidence.ts`. -/
def isValidEvidenceHash (value : JsString) : Bool :=
  if isHexDigest value then true
  else
    match decodeCidV0 value with
    | .ok _ => true
    | .error _ => false

/-- The prefix is checked byte by byte here, and as a part of the buffer there. -/
theorem not_multihash_iff (decoded : List UInt8) :
    (decoded.length ≠ 34 ∨ decoded.take 2 ≠ multihashPrefix) ↔
      ¬ (decoded.length = 34 ∧ decoded[0]? = some 0x12 ∧ decoded[1]? = some 0x20) := by
  match decoded with
  | a :: b :: rest =>
      simp only [multihashPrefix, take_succ_cons, take_zero, cons.injEq,
        getElem?_cons_zero, getElem?_cons_succ, Option.some.injEq, ne_eq, and_true]
      tauto
  | [a] => simp
  | [] => simp

theorem tryExtractDigest_of_isCidV0 (h : isCidV0 cid = true) :
    tryExtractDigest cid = (decodeCidV0 cid).toOption := by
  obtain ⟨-, -, hmem⟩ := isCidV0_cases h
  rw [tryExtractDigest, length_of_isCidV0 h, if_neg (by decide), isHexDigest_of_isCidV0 h, h,
    decodeCidV0, h, decodeBase58btc, codePoints_base58 hmem, base58Decode]
  simp only [Bool.false_eq_true, if_false, if_true, Bool.true_eq_false]
  cases readBase58 (cid.map fun u => [u]) with
  | error char => rfl
  | ok decoded =>
      simp only [not_multihash_iff]
      by_cases hstart : decoded.length = 34 ∧ decoded[0]? = some 0x12 ∧ decoded[1]? = some 0x20
      · simp only [if_pos hstart, not_not.mpr hstart, if_false]
        rfl
      · simp only [hstart, not_false_eq_true, if_true]
        rfl

theorem hexBytes_length : ∀ s : JsString, (hexBytes s).length = s.length / 2
  | u :: v :: s => by
      simp only [hexBytes, length_cons, hexBytes_length s]
      omega
  | [u] => by simp [hexBytes]
  | [] => rfl

/-- The length test of `encodeCid` never fails. -/
theorem tryExtractDigest_length (h : tryExtractDigest cid = some digest) : digest.length = 32 := by
  rw [tryExtractDigest] at h
  split_ifs at h with hempty hhex hcid
  · obtain rfl := Option.some.inj h
    simp only [isHexDigest, Bool.and_eq_true, decide_eq_true_eq] at hhex
    rw [hexBytes_length, hhex.1]
  · cases hread : base58Decode cid with
    | error char => simp [hread] at h
    | ok decoded =>
        simp only [hread] at h
        split_ifs at h with hstart
        obtain rfl := Option.some.inj h
        rw [length_drop, hstart.1]

theorem encodeCid_iff : encodeCid cid = .ok digest ↔ tryExtractDigest cid = some digest := by
  refine ⟨tryExtractDigest_of_encodeCid, fun h => ?_⟩
  have hne : cid ≠ [] := by
    rintro rfl
    cases h
  rw [encodeCid, if_neg hne, h]
  exact if_neg (not_not.mpr (tryExtractDigest_length h))

/-- **The oracle's and the API's references agree.** The two validators accept the same strings, those
that `encodeCid` stores, and what `decodeCidV0` takes out of a CIDv0 is what is stored for it. -/
theorem evidence_references_agree (cid : JsString) :
    isValidEvidenceHash cid = isValidCid cid ∧
    (isValidCid cid = true ↔ ∃ digest, encodeCid cid = .ok digest) ∧
    ∀ digest, decodeCidV0 cid = .ok digest ↔ isCidV0 cid = true ∧ encodeCid cid = .ok digest := by
  simp only [encodeCid_iff, isValidCid, Option.isSome_iff_exists, true_and]
  by_cases hcid : isCidV0 cid = true
  · rw [isValidEvidenceHash, isHexDigest_of_isCidV0 hcid, tryExtractDigest_of_isCidV0 hcid, hcid]
    cases decodeCidV0 cid <;> simp [Except.toOption]
  · have herror : decodeCidV0 cid = .error ⟨js "Invalid evidence hash: \"" ++ cid ++
        js "\" is not a well-formed CIDv0"⟩ := if_pos (by simpa using hcid)
    rw [isValidEvidenceHash, herror, tryExtractDigest]
    by_cases hhex : isHexDigest cid = true
    · have hne : cid.length ≠ 0 := by
        intro hzero
        simp [isHexDigest, hzero] at hhex
      simp [hhex, hne, hcid]
    · simp [hhex, hcid]

end VerdantBond
