import VerdantBond.Ipfs.Evidence
import VerdantBond.Lib.JsonOrder

set_option autoImplicit false

/-! # hashEvidence

`src/ipfs/evidence.ts`: a report is serialized with the keys of its objects sorted, and the evidence
hash is the CIDv0 of the UTF-8 bytes of that text. The serializer writes the sorted normal form of a
value (`canonicalJson_eq`), which can be read back; the text is well formed, so its bytes determine
it; and the CID determines the digest. So the hash identifies the report up to the order of keys, as
long as SHA-256 does not give two texts one digest (`evidence_hash_iff`).
-/

namespace VerdantBond

open Json

variable {ν : Type}

/-! ## The functions -/

mutual
/-- `canonicalJson`, of a JSON value: the filter for `undefined` has nothing to drop there. -/
def canonicalJson (F : NumberFormat ν) : Json ν → JsString
  | .array items => openBracket :: ([comma].intercalate (canonicalItems F items) ++ [closeBracket])
  | .object entries =>
      openBrace :: ([comma].intercalate
        ((sortByKey (canonicalEntries F entries)).map fun e => quoted e.1 ++ colon :: e.2) ++
          [closeBrace])
  | .null => text F .null
  | .bool b => text F (.bool b)
  | .number x => text F (.number x)
  | .string s => text F (.string s)
def canonicalItems (F : NumberFormat ν) : List (Json ν) → List JsString
  | [] => []
  | v :: vs => canonicalJson F v :: canonicalItems F vs
def canonicalEntries (F : NumberFormat ν) : List (JsString × Json ν) → List (JsString × JsString)
  | [] => []
  | (key, v) :: es => (key, canonicalJson F v) :: canonicalEntries F es
end

structure EvidenceResult where
  ipfsEvidenceHash : JsString
  canonicalJson : JsString

def hashEvidence (sha256 : List UInt8 → Digest) (F : NumberFormat ν) (payload : Json ν) :
    EvidenceResult :=
  let serialized := canonicalJson F payload
  ⟨ipfsCidV0FromBytes sha256 (utf8Bytes serialized), serialized⟩

/-- Finite numbers, zero and negative zero being one: the numeral of a number reads as the number. -/
structure FiniteNumbers (ν : Type) extends NumberFormat ν where
  read : ∀ x, ∃ t, numeral x = some t ∧ ofNumeral t = x

/-! ## The serializer -/

variable (F : NumberFormat ν)

theorem itemsText_eq (vs : List (Json ν)) :
    itemsText F vs = (vs.map fun v => comma :: text F v).flatten ++ [closeBracket] := by
  induction vs with
  | nil => rfl
  | cons v vs ih => simp [itemsText, ih]

theorem entriesText_eq (es : List (JsString × Json ν)) :
    Json.entriesText F es =
      (es.map fun e => comma :: (quoted e.1 ++ colon :: text F e.2)).flatten ++ [closeBrace] := by
  induction es with
  | nil => rfl
  | cons e es ih => simp [Json.entriesText, ih]

theorem intercalate_cons (s : JsString) (ss : List JsString) :
    [comma].intercalate (s :: ss) = s ++ (ss.map (comma :: ·)).flatten := by
  induction ss generalizing s with
  | nil => simp [List.intercalate]
  | cons t ss ih =>
      have hstep : [comma].intercalate (s :: t :: ss) =
          s ++ comma :: [comma].intercalate (t :: ss) := by
        simp [List.intercalate]
      rw [hstep, ih]
      simp

theorem text_array (items : List (Json ν)) :
    text F (.array items) =
      openBracket :: ([comma].intercalate (items.map (text F)) ++ [closeBracket]) := by
  cases items with
  | nil => rfl
  | cons v vs =>
      rw [text, itemsText_eq, List.map_cons, intercalate_cons]
      simp [Function.comp_def]

theorem text_object (entries : List (JsString × Json ν)) :
    text F (.object entries) =
      openBrace :: ([comma].intercalate (entries.map fun e => quoted e.1 ++ colon :: text F e.2) ++
        [closeBrace]) := by
  cases entries with
  | nil => rfl
  | cons e es =>
      rw [text, entriesText_eq, List.map_cons, intercalate_cons]
      simp [Function.comp_def]

theorem sortByKey_map {β γ : Type} (f : β → γ) (o : List (JsString × β)) :
    sortByKey (o.map fun e => (e.1, f e.2)) = (sortByKey o).map fun e => (e.1, f e.2) :=
  (List.map_insertionSort (fun d e : JsString × β => d.1 ≤ e.1) (fun d e : JsString × γ => d.1 ≤ e.1)
    _ o fun _ _ _ _ => Iff.rfl).symm

mutual
/-- **The serializer writes the sorted value.** -/
theorem canonicalJson_eq : ∀ v : Json ν, canonicalJson F v = text F (arrange byKey v)
  | .null => rfl
  | .bool _ => rfl
  | .number _ => rfl
  | .string _ => rfl
  | .array items => by rw [canonicalJson, arrange, text_array, canonicalItems_eq items]
  | .object entries => by
      rw [canonicalJson, arrange, text_object, canonicalEntries_eq entries, sortByKey_map, List.map_map]
      rfl
theorem canonicalItems_eq : ∀ vs : List (Json ν),
    canonicalItems F vs = (arrangeItems byKey vs).map (text F)
  | [] => rfl
  | v :: vs => by
      rw [canonicalItems, canonicalJson_eq v, canonicalItems_eq vs, arrangeItems, List.map_cons]
theorem canonicalEntries_eq : ∀ es : List (JsString × Json ν),
    canonicalEntries F es = (arrangeEntries byKey es).map fun e => (e.1, text F e.2)
  | [] => rfl
  | (key, v) :: es => by
      rw [canonicalEntries, canonicalJson_eq v, canonicalEntries_eq es, arrangeEntries, List.map_cons]
end

mutual
theorem every_of_forall {P : ν → Prop} (h : ∀ x, P x) : ∀ v : Json ν, v.Every P fun _ => True
  | .null => trivial
  | .bool _ => trivial
  | .number x => h x
  | .string _ => trivial
  | .array items => everyItem_of_forall h items
  | .object entries => ⟨trivial, everyEntry_of_forall h entries⟩
theorem everyItem_of_forall {P : ν → Prop} (h : ∀ x, P x) :
    ∀ vs : List (Json ν), EveryItem P (fun _ => True) vs
  | [] => trivial
  | v :: vs => ⟨every_of_forall h v, everyItem_of_forall h vs⟩
theorem everyEntry_of_forall {P : ν → Prop} (h : ∀ x, P x) :
    ∀ es : List (JsString × Json ν), EveryEntry P (fun _ => True) es
  | [] => trivial
  | (_, v) :: es => ⟨every_of_forall h v, everyEntry_of_forall h es⟩
end

/-- **The text identifies the value** up to the order of keys. -/
theorem canonicalJson_eq_iff (N : FiniteNumbers ν) {v w : Json ν} (hv : v.Distinct) (hw : w.Distinct) :
    canonicalJson N.toNumberFormat v = canonicalJson N.toNumberFormat w ↔ SameJson v w := by
  have hexact : ∀ x, N.reread x = .number x := by
    intro x
    obtain ⟨t, ht, hx⟩ := N.read x
    rw [NumberFormat.reread, ht]
    exact congrArg Json.number hx
  have hparse : ∀ u : Json ν, u.Distinct →
      parse N.toNumberFormat (canonicalJson N.toNumberFormat u) = some (arrange byKey u) := by
    intro u hu
    rw [canonicalJson_eq, parse_text _ (distinct_arrange byKey hu),
      mapNumbers_of_exact _ _ (every_of_forall hexact _)]
  rw [← arrange_eq_iff byKey hv, canonicalJson_eq, canonicalJson_eq]
  constructor
  · intro h
    have hread := hparse v hv
    rw [canonicalJson_eq, h, ← canonicalJson_eq, hparse w hw] at hread
    exact (Option.some.inj hread).symm
  · intro h
    rw [h]

/-! ## The text as bytes -/

theorem isWellFormed_numeral (n : Numeral) : IsWellFormed n.text := by
  refine isWellFormed_of_plain fun u hu => ?_
  rcases n.units u hu with h | rfl | rfl | rfl | rfl | rfl
  · simp only [IsDigit, IsLead, IsTrail] at h ⊢
    omega
  all_goals decide

theorem isWellFormed_word (s : JsString) (h : s.all fun u => ¬ (IsLead u ∨ IsTrail u)) :
    IsWellFormed s :=
  isWellFormed_of_plain fun u hu => of_decide_eq_true (List.all_eq_true.mp h u hu)

theorem IsWellFormed.cons {s : JsString} (hs : IsWellFormed s) (u : CodeUnit)
    (hu : ¬ (IsLead u ∨ IsTrail u)) : IsWellFormed (u :: s) :=
  (isWellFormed_unit hu).append hs

theorem isWellFormed_property {key value rest : JsString} (hvalue : IsWellFormed value)
    (hrest : IsWellFormed rest) : IsWellFormed (quoted key ++ colon :: (value ++ rest)) :=
  (isWellFormed_quoted key).append ((hvalue.append hrest).cons colon (by decide))

mutual
theorem isWellFormed_text : ∀ v : Json ν, IsWellFormed (text F v)
  | .null => isWellFormed_word (js "null") (by decide)
  | .bool true => isWellFormed_word (js "true") (by decide)
  | .bool false => isWellFormed_word (js "false") (by decide)
  | .number x => by
      rw [text]
      cases F.numeral x with
      | none => exact isWellFormed_word (js "null") (by decide)
      | some n => exact isWellFormed_numeral n
  | .string s => isWellFormed_quoted s
  | .array [] => isWellFormed_word [openBracket, closeBracket] (by decide)
  | .array (v :: vs) =>
      ((isWellFormed_text v).append (isWellFormed_itemsText vs)).cons openBracket (by decide)
  | .object [] => isWellFormed_word [openBrace, closeBrace] (by decide)
  | .object ((_, v) :: es) =>
      (isWellFormed_property (isWellFormed_text v) (isWellFormed_entriesText es)).cons openBrace
        (by decide)
theorem isWellFormed_itemsText : ∀ vs : List (Json ν), IsWellFormed (itemsText F vs)
  | [] => isWellFormed_word [closeBracket] (by decide)
  | v :: vs => ((isWellFormed_text v).append (isWellFormed_itemsText vs)).cons comma (by decide)
theorem isWellFormed_entriesText : ∀ es : List (JsString × Json ν), IsWellFormed (Json.entriesText F es)
  | [] => isWellFormed_word [closeBrace] (by decide)
  | (_, v) :: es =>
      (isWellFormed_property (isWellFormed_text v) (isWellFormed_entriesText es)).cons comma (by decide)
end

theorem isWellFormed_canonicalJson (v : Json ν) : IsWellFormed (canonicalJson F v) := by
  rw [canonicalJson_eq]
  exact isWellFormed_text F _

/-! ## The hash -/

theorem digest_of_multihash {d d' : Digest}
    (h : encodeBase58btc (multihashPrefix ++ d.bytes) = encodeBase58btc (multihashPrefix ++ d'.bytes)) :
    d = d' := by
  have hread := decodeCidV0_multihash d
  rw [h, decodeCidV0_multihash, Except.ok.injEq] at hread
  cases d
  cases d'
  simp_all

/-- The digests of two payloads tell them apart. -/
def NoCollision (sha256 : List UInt8 → Digest) (x y : List UInt8) : Prop := sha256 x = sha256 y → x = y

/-- **Evidence hashes identify report content.** Unless SHA-256 gives their texts one digest although
they differ, two JSON values have one evidence hash exactly if they are equal up to the order of the
keys at every depth. -/
theorem evidence_hash_iff (sha256 : List UInt8 → Digest) (N : FiniteNumbers ν) (v w : Json ν)
    (hv : v.Distinct) (hw : w.Distinct)
    (hcollision : NoCollision sha256 (utf8Bytes (canonicalJson N.toNumberFormat v))
      (utf8Bytes (canonicalJson N.toNumberFormat w))) :
    (hashEvidence sha256 N.toNumberFormat v).ipfsEvidenceHash =
        (hashEvidence sha256 N.toNumberFormat w).ipfsEvidenceHash ↔ SameJson v w := by
  rw [← canonicalJson_eq_iff N hv hw]
  constructor
  · intro h
    have hbytes := hcollision (digest_of_multihash h)
    exact utf8Bytes_inj (isWellFormed_canonicalJson _ v) (isWellFormed_canonicalJson _ w) hbytes
  · intro h
    simp only [hashEvidence, h]

/-- Numbers that are their numerals. -/
def numeralNumbers : FiniteNumbers Numeral where
  numeral := some
  ofNumeral := id
  read := fun t => ⟨t, rfl, rfl⟩

/-- The first bytes of a payload, in place of a digest. -/
def firstBytes (payload : List UInt8) : Digest :=
  ⟨(payload ++ List.replicate 32 0).take 32, by simp⟩

/-- Two listings of one report. -/
def listedReport : Json Numeral :=
  .object [(js "id", .string (js "r")), (js "ok", .array [.bool true, .null])]

def relistedReport : Json Numeral :=
  .object [(js "ok", .array [.bool true, .null]), (js "id", .string (js "r"))]

/-- The two have one hash, and a list has another. -/
theorem evidence_hash_sample :
    (hashEvidence firstBytes numeralNumbers.toNumberFormat listedReport).ipfsEvidenceHash =
        (hashEvidence firstBytes numeralNumbers.toNumberFormat relistedReport).ipfsEvidenceHash ∧
      (hashEvidence firstBytes numeralNumbers.toNumberFormat listedReport).ipfsEvidenceHash ≠
        (hashEvidence firstBytes numeralNumbers.toNumberFormat (.array [.null])).ipfsEvidenceHash := by
  have htext : canonicalJson numeralNumbers.toNumberFormat listedReport =
      canonicalJson numeralNumbers.toNumberFormat relistedReport := by decide +kernel
  have hdistinct : listedReport.Distinct := ⟨by decide, trivial, ⟨trivial, trivial, trivial⟩, trivial⟩
  have hdistinct' : relistedReport.Distinct :=
    ⟨by decide, ⟨trivial, trivial, trivial⟩, trivial, trivial⟩
  constructor
  · refine (evidence_hash_iff firstBytes numeralNumbers listedReport relistedReport hdistinct hdistinct'
      fun _ => congrArg utf8Bytes htext).mpr ?_
    refine .object (List.Perm.swap _ _ _) (.cons _ (.array ?_) (.cons _ (.string _) .nil))
    exact .cons (.bool true) (.cons .null .nil)
  · intro h
    cases (evidence_hash_iff firstBytes numeralNumbers listedReport (.array [.null]) hdistinct
      ⟨trivial, trivial⟩ fun h => absurd h (by decide +kernel)).mp h

end VerdantBond
