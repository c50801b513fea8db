import Mathlib.Data.List.GetD
import VerdantBond.Lib.Radix
import VerdantBond.Lib.Utf8

set_option autoImplicit false

/-! # Base58 and CIDv0

`src/ipfs/evidence.ts` and `src/api/src/common/utils/cid.util.ts` have the same base58 loops. A CIDv0 is
the base58 text of a multihash, `0x12 0x20` and a SHA-256 digest. Bytes whose first is not zero and
texts whose first character is not `1` correspond to each other (`readBase58_base58Text`,
`base58Text_of_readBase58`); and because the two bytes of the prefix fix the number up to a factor
`1 + 1 / 0x1220`, the text of a multihash has 46 characters and starts with `Qm`
(`isCidV0_multihash`).
-/

namespace VerdantBond

open List UInt8

/-! ## The functions -/

/-- `ALPHABET_BASE58` and `BASE58_ALPHABET`. -/
def base58Alphabet : JsString := js "123456789ABCDEFGHJKLMNPQRSTUVWXYZabcdefghijkmnopqrstuvwxyz"

/-- `indexOf` of a character; none for -1. A character of two units is in no alphabet of one-unit
characters. -/
def base58Value : JsString → Option Nat
  | [u] => if u ∈ base58Alphabet then some (base58Alphabet.idxOf u) else none
  | _ => none

/-- `encodeBase58btc` and `base58Encode`: a `1` for each leading zero, then the digits. -/
def base58Text (buffer : List UInt8) : JsString :=
  List.replicate (buffer.takeWhile (· = 0)).length (unit '1') ++
    (toRadix 256 58 (buffer.map UInt8.toNat)).reverse.map fun d => base58Alphabet.getD d 0

/-- The loop of the decoder, which stops at a character outside the alphabet. -/
def readBase58Digits : List JsString → List Nat → Except JsString (List Nat)
  | [], bytes => .ok bytes
  | char :: chars, bytes =>
      match base58Value char with
      | none => .error char
      | some value => readBase58Digits chars (mulAdd 256 58 bytes value)

/-- `decodeBase58btc` and `base58Decode`, on the characters of a text; the error is the character. -/
def readBase58 (chars : List JsString) : Except JsString (List UInt8) :=
  match readBase58Digits chars [0] with
  | .error char => .error char
  | .ok bytes =>
      .ok (List.replicate (chars.takeWhile (· = js "1")).length 0 ++ bytes.reverse.map UInt8.ofNat)

/-- The class `[1-9A-HJ-NP-Za-km-z]`. -/
def IsBase58 (u : CodeUnit) : Prop :=
  unit '1' ≤ u ∧ u ≤ unit '9' ∨ unit 'A' ≤ u ∧ u ≤ unit 'H' ∨ unit 'J' ≤ u ∧ u ≤ unit 'N' ∨
    unit 'P' ≤ u ∧ u ≤ unit 'Z' ∨ unit 'a' ≤ u ∧ u ≤ unit 'k' ∨ unit 'm' ≤ u ∧ u ≤ unit 'z'

instance (u : CodeUnit) : Decidable (IsBase58 u) := inferInstanceAs (Decidable (_ ∨ _))

/-- `/^Qm[1-9A-HJ-NP-Za-km-z]{44}$/`. -/
def isCidV0 : JsString → Bool
  | q :: m :: rest => q = unit 'Q' && m = unit 'm' && rest.length = 44 && rest.all IsBase58
  | _ => false

/-- A SHA-256 digest. -/
structure Digest where
  bytes : List UInt8
  length : bytes.length = 32
  deriving DecidableEq

/-- `MULTIHASH_SHA2_256` and `CIDV0_PREFIX`. -/
def multihashPrefix : List UInt8 := [0x12, 0x20]

/-! ## The alphabet -/

theorem base58Alphabet_nodup : base58Alphabet.Nodup := by decide

theorem base58Alphabet_length : base58Alphabet.length = 58 := rfl

theorem isBase58_iff_mem (u : CodeUnit) : IsBase58 u ↔ u ∈ base58Alphabet := by
  constructor
  · intro h
    have hsmall : u.val < 123 := by
      rcases h with h | h | h | h | h | h <;> exact (Fin.le_def.mp h.2).trans_lt (by decide)
    have hall : ∀ n : Fin 123, IsBase58 (Fin.ofNat 65536 n) →
        Fin.ofNat 65536 n.val ∈ base58Alphabet := by decide +kernel
    have hu := hall ⟨u.val, hsmall⟩
    rw [Fin.ofNat_val_eq_self] at hu
    exact hu h
  · intro h
    have hall : base58Alphabet.all fun u => IsBase58 u := by decide
    exact of_decide_eq_true (all_eq_true.mp hall u h)

variable {u : CodeUnit} {text : JsString} {x : UInt8}

theorem base58Value_of_mem (h : u ∈ base58Alphabet) :
    base58Value [u] = some (base58Alphabet.idxOf u) := if_pos h

theorem idxOf_base58 {d : Nat} (hd : d < 58) : base58Alphabet.idxOf (base58Alphabet.getD d 0) = d := by
  rw [← base58Alphabet_length] at hd
  rw [getD_eq_getElem _ _ hd]
  exact base58Alphabet_nodup.idxOf_getElem d hd

theorem getD_mem_base58 {d : Nat} (hd : d < 58) : base58Alphabet.getD d 0 ∈ base58Alphabet := by
  rw [← base58Alphabet_length] at hd
  rw [getD_eq_getElem _ _ hd]
  exact getElem_mem hd

theorem getD_idxOf_base58 (h : u ∈ base58Alphabet) :
    base58Alphabet.getD (base58Alphabet.idxOf u) 0 = u := by
  rw [getD_eq_getElem _ _ (idxOf_lt_length_of_mem h), getElem_idxOf]

theorem idxOf_lt_58 (h : u ∈ base58Alphabet) : base58Alphabet.idxOf u < 58 :=
  idxOf_lt_length_of_mem h

/-! ## Back and forth -/

/-- The decoder on characters of the alphabet. -/
theorem readBase58Digits_ok (h : ∀ u ∈ text, u ∈ base58Alphabet) (bytes : List Nat) :
    readBase58Digits (text.map fun u => [u]) bytes =
      .ok ((text.map base58Alphabet.idxOf).foldl (mulAdd 256 58) bytes) := by
  induction text generalizing bytes with
  | nil => rfl
  | cons u text ih =>
      simp only [map_cons, readBase58Digits, base58Value_of_mem (h u mem_cons_self)]
      exact ih (fun v hv => h v (mem_cons_of_mem _ hv)) _

/-- A text of the alphabet that does not start with `1` is read as the number it writes. -/
theorem readBase58_ok (h : ∀ v ∈ u :: text, v ∈ base58Alphabet) (hu : u ≠ unit '1') :
    readBase58 ((u :: text).map fun v => [v]) =
      .ok ((toRadix 58 256 ((u :: text).map base58Alphabet.idxOf)).reverse.map ofNat) := by
  have hone : ¬ [u] = js "1" := fun heq => hu (cons.inj heq).1
  rw [readBase58, readBase58Digits_ok h]
  simp only [map_cons, takeWhile_cons, decide_eq_false hone]
  rfl

theorem idxOf_ne_zero (h : u ∈ base58Alphabet) : base58Alphabet.idxOf u ≠ 0 ↔ u ≠ unit '1' := by
  rw [not_iff_not]
  constructor
  · intro hzero
    have hget := getD_idxOf_base58 h
    rw [hzero] at hget
    exact hget.symm
  · rintro rfl
    decide

/-- The text of bytes that do not start with zero. -/
theorem base58Text_eq (hx : x ≠ 0) (xs : List UInt8) :
    base58Text (x :: xs) =
      (toRadix 256 58 ((x :: xs).map toNat)).reverse.map fun d => base58Alphabet.getD d 0 := by
  rw [base58Text, takeWhile_cons, decide_eq_false hx]
  rfl

theorem toNat_lt_256 (xs : List UInt8) : ∀ y ∈ xs.map toNat, y < 256 := by
  intro y hy
  obtain ⟨x, -, rfl⟩ := mem_map.mp hy
  exact x.toNat_lt

theorem toNat_ne_zero (hx : x ≠ 0) : x.toNat ≠ 0 := fun h => hx (UInt8.toNat_inj.mp h)

theorem ofNat_toNat_bytes (xs : List UInt8) : (xs.map UInt8.toNat).map UInt8.ofNat = xs := by
  rw [map_map]
  exact (map_congr_left fun x _ => UInt8.ofNat_toNat).trans (map_id _)

theorem toNat_ofNat_bytes {ys : List Nat} (h : ∀ y ∈ ys, y < 256) :
    (ys.map UInt8.ofNat).map UInt8.toNat = ys := by
  rw [map_map]
  exact (map_congr_left fun y hy => toNat_ofNat_of_lt' (h y hy)).trans (map_id _)

/-- **Reading what was written.** -/
theorem readBase58_base58Text (hx : x ≠ 0) (xs : List UInt8) :
    (∀ u ∈ base58Text (x :: xs), u ∈ base58Alphabet) ∧
      readBase58 ((base58Text (x :: xs)).map fun u => [u]) = .ok (x :: xs) := by
  obtain ⟨z, zs, htext, hz, hlt, hback⟩ := toRadix_reverse (b := 58) (m := 256) (by decide) (by decide)
    (toNat_ne_zero hx) (toNat_lt_256 (x :: xs))
  rw [base58Text_eq hx, map_cons, htext]
  have hmem : ∀ u ∈ (z :: zs).map fun d => base58Alphabet.getD d 0, u ∈ base58Alphabet := by
    intro u hu
    obtain ⟨d, hd, rfl⟩ := mem_map.mp hu
    exact getD_mem_base58 (hlt d hd)
  have hvalues : ((z :: zs).map fun d => base58Alphabet.getD d 0).map base58Alphabet.idxOf =
      z :: zs := by
    rw [map_map]
    exact (map_congr_left fun d hd => idxOf_base58 (hlt d hd)).trans (map_id _)
  have hfirst : z < 58 := hlt z mem_cons_self
  have hone : base58Alphabet.getD z 0 ≠ unit '1' := by
    rw [← idxOf_ne_zero (getD_mem_base58 hfirst), idxOf_base58 hfirst]
    exact hz
  refine ⟨hmem, ?_⟩
  rw [map_cons] at hmem hvalues ⊢
  rw [readBase58_ok hmem hone, hvalues, hback, ← map_cons, ofNat_toNat_bytes]

/-- **Writing what was read.** -/
theorem base58Text_of_readBase58 (h : ∀ v ∈ u :: text, v ∈ base58Alphabet) (hu : u ≠ unit '1')
    {bytes : List UInt8} (hread : readBase58 ((u :: text).map fun v => [v]) = .ok bytes) :
    base58Text bytes = u :: text := by
  have hlt : ∀ y ∈ (u :: text).map base58Alphabet.idxOf, y < 58 := by
    intro y hy
    obtain ⟨v, hv, rfl⟩ := mem_map.mp hy
    exact idxOf_lt_58 (h v hv)
  obtain ⟨z, zs, hdigits, hz, hbytes, hback⟩ := toRadix_reverse (b := 256) (m := 58) (by decide)
    (by decide) ((idxOf_ne_zero (h u mem_cons_self)).mpr hu) hlt
  rw [readBase58_ok h hu, map_cons, hdigits, Except.ok.injEq] at hread
  have hfirst : ofNat z ≠ 0 := by
    intro hzero
    have hnat := congrArg toNat hzero
    rw [toNat_ofNat_of_lt' (hbytes z mem_cons_self)] at hnat
    exact hz hnat
  rw [← hread, map_cons, base58Text_eq hfirst, ← map_cons, toNat_ofNat_bytes hbytes, hback]
  show ((u :: text).map base58Alphabet.idxOf).map (fun d => base58Alphabet.getD d 0) = u :: text
  rw [map_map]
  exact (map_congr_left fun v hv => getD_idxOf_base58 (h v hv)).trans (map_id _)

/-! ## Multihashes -/

/-- The number of a multihash lies between `0x1220` and `0x1221` times `256 ^ 32`. -/
theorem multihash_value (d : Digest) :
    Nat.ofDigits 256 ((multihashPrefix ++ d.bytes).map toNat).reverse / 58 ^ 44 =
      23 * 58 + 44 := by
  have hlow : Nat.ofDigits 256 (d.bytes.map toNat).reverse < 256 ^ 32 := by
    have hbound := Nat.ofDigits_lt_base_pow_length (b := 256) (l := (d.bytes.map toNat).reverse)
      (by decide) fun y hy => toNat_lt_256 d.bytes y (mem_reverse.mp hy)
    rwa [length_reverse, length_map, d.length] at hbound
  have hvalue : Nat.ofDigits 256 ((multihashPrefix ++ d.bytes).map toNat).reverse =
      Nat.ofDigits 256 (d.bytes.map toNat).reverse + 256 ^ 32 * 0x1220 := by
    rw [map_append, reverse_append, Nat.ofDigits_append, length_reverse, length_map, d.length]
    rfl
  rw [hvalue]
  generalize Nat.ofDigits 256 (d.bytes.map toNat).reverse = v at hlow
  apply Nat.div_eq_of_lt_le
  · calc (23 * 58 + 44) * 58 ^ 44 ≤ 256 ^ 32 * 0x1220 := by norm_num
      _ ≤ v + 256 ^ 32 * 0x1220 := Nat.le_add_left _ _
  · calc v + 256 ^ 32 * 0x1220 < 256 ^ 32 + 256 ^ 32 * 0x1220 := by gcongr
      _ ≤ (23 * 58 + 44 + 1) * 58 ^ 44 := by norm_num

/-- **The text of a multihash** is `Qm` and 44 further characters. -/
theorem isCidV0_multihash (d : Digest) : isCidV0 (base58Text (multihashPrefix ++ d.bytes)) = true := by
  have hvalue := multihash_value d
  have hmem := (readBase58_base58Text (x := 0x12) (by decide) (0x20 :: d.bytes)).1
  obtain ⟨low, hlow, hdigits⟩ := digits_top (b := 58) (k := 44)
    (n := Nat.ofDigits 256 ((multihashPrefix ++ d.bytes).map toNat).reverse) (by decide)
    (by rw [hvalue]; decide)
  have htop : Nat.digits 58 (23 * 58 + 44) = [44, 23] := by norm_num
  have hne : Nat.ofDigits 256 ((multihashPrefix ++ d.bytes).map toNat).reverse ≠ 0 := by
    intro hzero
    rw [hzero, Nat.zero_div] at hvalue
    omega
  rw [hvalue, htop] at hdigits
  have htext : base58Text (multihashPrefix ++ d.bytes) =
      unit 'Q' :: unit 'm' :: (low.reverse.map fun i => base58Alphabet.getD i 0) := by
    rw [multihashPrefix, cons_append, base58Text_eq (by decide), ← cons_append,
      ← multihashPrefix, toRadix_eq (by decide) (by decide), numeral_of_ne_zero _ hne, hdigits,
      reverse_append, map_append]
    rfl
  have hall : ∀ u ∈ low.reverse.map fun i => base58Alphabet.getD i 0, IsBase58 u := by
    intro u hu
    rw [isBase58_iff_mem]
    apply hmem u
    rw [show (0x12 : UInt8) :: 0x20 :: d.bytes = multihashPrefix ++ d.bytes from rfl, htext]
    exact mem_cons_of_mem _ (mem_cons_of_mem _ hu)
  rw [htext]
  simp only [isCidV0, length_map, length_reverse, hlow, decide_true, Bool.true_and,
    all_eq_true, decide_eq_true_eq]
  exact hall

end VerdantBond
