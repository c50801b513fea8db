import VerdantBond.Lib.JsonOrder
import VerdantBond.Lib.Utf8

set_option autoImplicit false

/-! # Ledger payloads

`assertLedgerPayload` (`src/api/src/ledger/ledger.chain.ts`) accepts a payload by walking it, and
`stableStringify` (`src/api/src/audit/audit.canonical.ts`) is what is stored of it. The walk and the
canonicalizer do not see the same things. `forEach` skips the holes of an array, which are written as
`null`; the walk enters a property `__proto__`, whose assignment to the fresh object creates none;
negative zero is finite and written as zero; and neither looks at a property that is not listed. An
accepted payload without these is read back as it was, and no other is (`readBack_iff_kept`); two such
payloads with one text are equal up to the order of keys.
-/

namespace VerdantBond

open Json

variable {ν : Type}

/-! ## Values of the language -/

/-- A value that can be passed for a payload. An array is given by its items, `none` for a hole, a plain
object by its own enumerable properties under string keys; `more` says that it has further own
properties. `other` is a function, a symbol, a big integer or an object that is not plain. -/
inductive JsValue (ν : Type) where
  | undefined
  | null
  | bool (b : Bool)
  | number (x : ν)
  | string (s : JsString)
  | array (items : List (Option (JsValue ν))) (more : Bool)
  | object (fields : List (JsString × JsValue ν)) (more : Bool)
  | other (typeName : JsString)

/-- The numbers of the language: a finite number is read from its numeral, except for negative zero,
which has the numeral of zero. -/
structure JsNumbers (ν : Type) extends NumberFormat ν where
  zero : ν
  negativeZero : ν
  zero_ne : zero ≠ negativeZero
  numeral_negativeZero : numeral negativeZero = numeral zero
  read : ∀ {x t}, numeral x = some t → x ≠ negativeZero → ofNumeral t = x

namespace JsValue

mutual
/-- Every object has each of its keys once. -/
def Distinct : JsValue ν → Prop
  | .array items _ => DistinctItems items
  | .object fields _ => (keysOf fields).Nodup ∧ DistinctFields fields
  | _ => True
def DistinctItems : List (Option (JsValue ν)) → Prop
  | [] => True
  | none :: items => DistinctItems items
  | some v :: items => Distinct v ∧ DistinctItems items
def DistinctFields : List (JsString × JsValue ν) → Prop
  | [] => True
  | (_, v) :: fields => Distinct v ∧ DistinctFields fields
end

end JsValue

/-- What may be passed for a payload. -/
structure Payload (ν : Type) where
  value : JsValue ν
  distinct : value.Distinct

/-! ## The check -/

/-- `SENSITIVE_KEYS`. -/
def sensitiveKeys : List JsString :=
  [js "password", js "passwd", js "secret", js "clientsecret", js "token", js "accesstoken",
    js "refreshtoken", js "jwt", js "privatekey", js "secretkey", js "seed", js "seedphrase",
    js "mnemonic", js "apikey", js "ssn"]

/-- `toLowerCase` where it gives an ASCII letter: capital letters, and the Kelvin sign. -/
def lowerCase (u : CodeUnit) : CodeUnit :=
  if 65 ≤ u.val ∧ u.val ≤ 90 then u + 32 else if u.val = 0x212A then unit 'k' else u

def isSensitiveKey (key : JsString) : Bool :=
  decide ((key.filter fun u => u ≠ unit '_' ∧ u ≠ unit '-').map lowerCase ∈ sensitiveKeys)

mutual
def walk (F : NumberFormat ν) : JsValue ν → JsString → Except JsString Unit
  | .null, _ => .ok ()
  | .string _, _ => .ok ()
  | .bool _, _ => .ok ()
  | .number x, path =>
      if (F.numeral x).isSome then .ok () else .error (path ++ js " must be a finite number")
  | .array items _, path => walkItems F items path 0
  | .object fields _, path => walkFields F fields path
  | .undefined, path => .error (path ++ js " is not JSON-safe (undefined)")
  | .other typeName, path => .error (path ++ js " is not JSON-safe (" ++ typeName ++ js ")")
/-- `forEach`, from the index `i` on. -/
def walkItems (F : NumberFormat ν) : List (Option (JsValue ν)) → JsString → Nat → Except JsString Unit
  | [], _, _ => .ok ()
  | none :: items, path, i => walkItems F items path (i + 1)
  | some v :: items, path, i =>
      match walk F v (path ++ js "[" ++ decimal i ++ js "]") with
      | .error e => .error e
      | .ok () => walkItems F items path (i + 1)
/-- The loop over `Object.entries`. -/
def walkFields (F : NumberFormat ν) : List (JsString × JsValue ν) → JsString → Except JsString Unit
  | [], _ => .ok ()
  | (key, v) :: fields, path =>
      if isSensitiveKey key = true then
        .error (path ++ js "." ++ key ++ js " looks like a secret and cannot be ledgered")
      else
        match walk F v (path ++ js "." ++ key) with
        | .error e => .error e
        | .ok () => walkFields F fields path
end

/-! ## What is stored -/

def protoKey : JsString := js "__proto__"

/-- The array index a key stands for: its decimal text, below `2 ^ 32 - 1`. -/
def arrayIndex (key : JsString) : Option Nat :=
  if key ≠ [] ∧ key.all IsDigit = true ∧ (key.head? ≠ some (unit '0') ∨ key.length = 1) ∧
      ofDecimal key < 4294967295 then
    some (ofDecimal key)
  else none

/-- Properties in the order in which the language lists them: array indices first. -/
def ownOrder {β : Type} (o : List (JsString × β)) : List (JsString × β) :=
  (o.filter fun e => (arrayIndex e.1).isSome).insertionSort
      (fun a b => (arrayIndex a.1).getD 0 ≤ (arrayIndex b.1).getD 0) ++
    o.filter fun e => ¬ (arrayIndex e.1).isSome

/-- The fresh object after the assignments in the order of the sorted keys, as it is listed. -/
def freshObject (fields : List (JsString × Json ν)) : List (JsString × Json ν) :=
  ownOrder (sortByKey (fields.filter fun e => e.1 ≠ protoKey))

mutual
/-- `canonicalize`, as `JSON.stringify` sees it: a hole is written as `null`. What is not JSON-safe the
check has refused before. -/
def canonicalize : JsValue ν → Json ν
  | .undefined => .null
  | .null => .null
  | .bool b => .bool b
  | .number x => .number x
  | .string s => .string s
  | .array items _ => .array (canonicalizeItems items)
  | .object fields _ => .object (freshObject (canonicalizeFields fields))
  | .other _ => .null
def canonicalizeItems : List (Option (JsValue ν)) → List (Json ν)
  | [] => []
  | none :: items => .null :: canonicalizeItems items
  | some v :: items => canonicalize v :: canonicalizeItems items
def canonicalizeFields : List (JsString × JsValue ν) → List (JsString × Json ν)
  | [] => []
  | (key, v) :: fields => (key, canonicalize v) :: canonicalizeFields fields
end

/-- What is stored of a payload. -/
def stableStringify (F : NumberFormat ν) (v : JsValue ν) : JsString := text F (canonicalize v)

/-- `MAX_PAYLOAD_BYTES`. -/
def maxLedgerPayloadBytes : Nat := 16 * 1024

def assertLedgerPayload (F : NumberFormat ν) (payload : JsValue ν) : Except JsString Unit :=
  match payload with
  | .object fields more =>
      match walk F (.object fields more) (js "payload") with
      | .error e => .error e
      | .ok () =>
          let bytes := (utf8Bytes (stableStringify F (.object fields more))).length
          if maxLedgerPayloadBytes < bytes then
            .error (js "payload is " ++ decimal bytes ++ js " bytes; limit is " ++
              decimal maxLedgerPayloadBytes)
          else .ok ()
  | _ => .error (js "payload must be a plain JSON object")

/-! ## Deep equality -/

mutual
/-- The JSON value with the same own keys, values and lengths, if there is one. -/
def toJson : JsValue ν → Option (Json ν)
  | .null => some .null
  | .bool b => some (.bool b)
  | .number x => some (.number x)
  | .string s => some (.string s)
  | .array items false => (toJsonItems items).map .array
  | .object fields false => (toJsonFields fields).map .object
  | _ => none
def toJsonItems : List (Option (JsValue ν)) → Option (List (Json ν))
  | [] => some []
  | none :: _ => none
  | some v :: items => (toJson v).bind fun w => (toJsonItems items).map (w :: ·)
def toJsonFields : List (JsString × JsValue ν) → Option (List (JsString × Json ν))
  | [] => some []
  | (key, v) :: fields => (toJson v).bind fun w => (toJsonFields fields).map ((key, w) :: ·)
end

/-- A value and a value that was read are deeply equal. -/
def DeepEqual (v : JsValue ν) (read : Json ν) : Prop := ∃ j, toJson v = some j ∧ SameJson j read

/-- What is read back of a payload is deeply equal to it. -/
def ReadBack (F : NumberFormat ν) (v : JsValue ν) : Prop :=
  ∃ read, parse F (stableStringify F v) = some read ∧ DeepEqual v read

mutual
/-- No hole, no negative zero, no own key `__proto__` and no property besides the listed ones. -/
def Kept (N : JsNumbers ν) : JsValue ν → Prop
  | .number x => x ≠ N.negativeZero
  | .array items more => more = false ∧ KeptItems N items
  | .object fields more => more = false ∧ protoKey ∉ keysOf fields ∧ KeptFields N fields
  | _ => True
def KeptItems (N : JsNumbers ν) : List (Option (JsValue ν)) → Prop
  | [] => True
  | none :: _ => False
  | some v :: items => Kept N v ∧ KeptItems N items
def KeptFields (N : JsNumbers ν) : List (JsString × JsValue ν) → Prop
  | [] => True
  | (_, v) :: fields => Kept N v ∧ KeptFields N fields
end

/-! ## The order of the fresh object -/

theorem perm_ownOrder {β : Type} (o : List (JsString × β)) : (ownOrder o).Perm o := by
  have hrest : o.filter (fun e => decide ¬ (arrayIndex e.1).isSome = true) =
      o.filter fun e => !(arrayIndex e.1).isSome := by
    refine List.filter_congr fun e _ => ?_
    cases (arrayIndex e.1).isSome <;> rfl
  unfold ownOrder
  rw [hrest]
  exact ((List.perm_insertionSort _ _).append_right _).trans (List.filter_append_perm _ o)

def ledgerOrder : Arrangement where
  order := fun o => ownOrder (sortByKey o)
  perm := fun o => (perm_ownOrder _).trans (List.perm_insertionSort _ o)
  canonical := fun hperm hnodup => congrArg ownOrder (sortByKey_canonical hperm hnodup)

theorem freshObject_perm (fields : List (JsString × Json ν)) :
    (freshObject fields).Perm (fields.filter fun e => e.1 ≠ protoKey) :=
  ledgerOrder.perm _

/-- Keys as the fresh object has them. -/
def StoredKeys (keys : List JsString) : Prop := keys.Nodup ∧ protoKey ∉ keys

theorem storedKeys_perm {l l' : List JsString} (h : l.Perm l') (hl : StoredKeys l) : StoredKeys l' :=
  ⟨h.nodup_iff.mp hl.1, fun hmem => hl.2 (h.mem_iff.mpr hmem)⟩

theorem keysOf_canonicalizeFields (fields : List (JsString × JsValue ν)) :
    keysOf (canonicalizeFields fields) = keysOf fields := by
  induction fields with
  | nil => rfl
  | cons e fields ih => exact congrArg (e.1 :: ·) ih

theorem storedKeys_freshObject {fields : List (JsString × Json ν)} (h : (keysOf fields).Nodup) :
    StoredKeys (keysOf (freshObject fields)) := by
  refine storedKeys_perm ((freshObject_perm fields).map _).symm ⟨?_, ?_⟩
  · exact h.sublist (List.filter_sublist.map Prod.fst)
  · intro hmem
    obtain ⟨e, he, hkey⟩ := List.mem_map.mp hmem
    exact absurd hkey (of_decide_eq_true (List.mem_filter.mp he).2)

mutual
/-- What is written has distinct keys, none of them `__proto__`. -/
theorem every_canonicalize : ∀ v : JsValue ν, v.Distinct →
    (canonicalize v).Every (fun _ => True) StoredKeys
  | .undefined, _ => trivial
  | .null, _ => trivial
  | .bool _, _ => trivial
  | .number _, _ => trivial
  | .string _, _ => trivial
  | .other _, _ => trivial
  | .array items _, h => everyItem_canonicalize items h
  | .object fields _, h => by
      refine ⟨storedKeys_freshObject (keysOf_canonicalizeFields fields ▸ h.1), ?_⟩
      refine everyEntry_iff.mpr fun e he => ?_
      have hmem := (List.mem_filter.mp ((freshObject_perm _).mem_iff.mp he)).1
      exact everyEntry_iff.mp (everyEntry_canonicalize fields h.2) e hmem
theorem everyItem_canonicalize : ∀ items : List (Option (JsValue ν)), JsValue.DistinctItems items →
    EveryItem (fun _ => True) StoredKeys (canonicalizeItems items)
  | [], _ => trivial
  | none :: items, h => ⟨trivial, everyItem_canonicalize items h⟩
  | some v :: items, h => ⟨every_canonicalize v h.1, everyItem_canonicalize items h.2⟩
theorem everyEntry_canonicalize : ∀ fields : List (JsString × JsValue ν),
    JsValue.DistinctFields fields → EveryEntry (fun _ => True) StoredKeys (canonicalizeFields fields)
  | [], _ => trivial
  | (_, v) :: fields, h => ⟨every_canonicalize v h.1, everyEntry_canonicalize fields h.2⟩
end

/-! ## Numbers -/

variable (N : JsNumbers ν)

/-- A number that is read back as it was. -/
def Exact (x : ν) : Prop := N.reread x = .number x

theorem exact_of_finite {x : ν} (hfinite : (N.numeral x).isSome = true) (hx : x ≠ N.negativeZero) :
    Exact N x := by
  obtain ⟨t, ht⟩ := Option.isSome_iff_exists.mp hfinite
  rw [Exact, NumberFormat.reread, ht]
  exact congrArg Json.number (N.read ht hx)

theorem reread_negativeZero {t : Numeral} (h : N.numeral N.negativeZero = some t) :
    N.ofNumeral t = N.zero :=
  N.read (N.numeral_negativeZero ▸ h) N.zero_ne

theorem ne_negativeZero_of_exact {x : ν} (h : Exact N x) : x ≠ N.negativeZero := by
  rintro rfl
  rw [Exact, NumberFormat.reread] at h
  cases ht : N.numeral N.negativeZero with
  | none =>
      rw [ht] at h
      cases h
  | some t =>
      simp only [ht, reread_negativeZero N ht, Json.number.injEq] at h
      exact N.zero_ne h

/-- What is read is exact. -/
theorem every_reread (K : List JsString → Prop) (x : ν) : (N.reread x).Every (Exact N) K := by
  cases ht : N.numeral x with
  | none =>
      rw [NumberFormat.reread, ht]
      trivial
  | some t =>
      have hnumeral : N.numeral (N.ofNumeral t) = some t ∧ N.ofNumeral t ≠ N.negativeZero := by
        by_cases hx : x = N.negativeZero
        · subst hx
          rw [reread_negativeZero N ht, ← N.numeral_negativeZero]
          exact ⟨ht, N.zero_ne⟩
        · rw [N.read ht hx]
          exact ⟨ht, hx⟩
      rw [NumberFormat.reread, ht]
      exact exact_of_finite N (Option.isSome_iff_exists.mpr ⟨t, hnumeral.1⟩) hnumeral.2

/-! ## Payloads as JSON values -/

mutual
/-- **An accepted payload that is kept is a JSON value**, and what is stored is its normal form. -/
theorem exists_json_of_kept : ∀ (v : JsValue ν) (path : JsString), v.Distinct →
    walk N.toNumberFormat v path = .ok () → Kept N v →
      ∃ j, toJson v = some j ∧ j.Every (Exact N) StoredKeys ∧ canonicalize v = arrange ledgerOrder j
  | .undefined, _, _, hwalk, _ => by cases hwalk
  | .null, _, _, _, _ => ⟨.null, rfl, trivial, rfl⟩
  | .bool b, _, _, _, _ => ⟨.bool b, rfl, trivial, rfl⟩
  | .number x, _, _, hwalk, hkept => by
      rw [walk] at hwalk
      split at hwalk
      · rename_i hfinite
        exact ⟨.number x, rfl, exact_of_finite N hfinite hkept, rfl⟩
      · cases hwalk
  | .string s, _, _, _, _ => ⟨.string s, rfl, trivial, rfl⟩
  | .other _, _, _, hwalk, _ => by cases hwalk
  | .array items more, path, hdistinct, hwalk, hkept => by
      obtain ⟨js, hjson, hevery, hstored⟩ := exists_items_of_kept items path 0 hdistinct hwalk hkept.2
      obtain rfl := hkept.1
      exact ⟨.array js, congrArg (Option.map Json.array) hjson, hevery, congrArg Json.array hstored⟩
  | .object fields more, path, hdistinct, hwalk, hkept => by
      obtain ⟨es, hjson, hkeys, hevery, hstored⟩ :=
        exists_fields_of_kept fields path hdistinct.2 hwalk hkept.2.2
      obtain rfl := hkept.1
      refine ⟨.object es, congrArg (Option.map Json.object) hjson, ⟨?_, hevery⟩, ?_⟩
      · rw [hkeys]
        exact ⟨hdistinct.1, hkept.2.1⟩
      · have hall : ∀ e ∈ arrangeEntries ledgerOrder es, decide (e.1 ≠ protoKey) = true := by
          intro e he
          refine decide_eq_true fun heq => hkept.2.1 ?_
          rw [← hkeys, ← keysOf_arrangeEntries ledgerOrder, ← heq]
          exact List.mem_map_of_mem he
        rw [canonicalize, freshObject, hstored, List.filter_eq_self.mpr hall]
        rfl
theorem exists_items_of_kept : ∀ (items : List (Option (JsValue ν))) (path : JsString) (i : Nat),
    JsValue.DistinctItems items → walkItems N.toNumberFormat items path i = .ok () → KeptItems N items →
      ∃ js, toJsonItems items = some js ∧ EveryItem (Exact N) StoredKeys js ∧
        canonicalizeItems items = arrangeItems ledgerOrder js
  | [], _, _, _, _, _ => ⟨[], rfl, trivial, rfl⟩
  | none :: _, _, _, _, _, hkept => hkept.elim
  | some v :: items, path, i, hdistinct, hwalk, hkept => by
      rw [walkItems] at hwalk
      split at hwalk
      · cases hwalk
      · rename_i hv
        obtain ⟨j, hj, hevery, hstored⟩ := exists_json_of_kept v _ hdistinct.1 hv hkept.1
        obtain ⟨js, hjs, heverys, hstoreds⟩ :=
          exists_items_of_kept items path (i + 1) hdistinct.2 hwalk hkept.2
        refine ⟨j :: js, ?_, ⟨hevery, heverys⟩, ?_⟩
        · simp [toJsonItems, hj, hjs]
        · rw [canonicalizeItems, hstored, hstoreds, arrangeItems]
theorem exists_fields_of_kept : ∀ (fields : List (JsString × JsValue ν)) (path : JsString),
    JsValue.DistinctFields fields → walkFields N.toNumberFormat fields path = .ok () →
      KeptFields N fields →
      ∃ es, toJsonFields fields = some es ∧ keysOf es = keysOf fields ∧
        EveryEntry (Exact N) StoredKeys es ∧ canonicalizeFields fields = arrangeEntries ledgerOrder es
  | [], _, _, _, _ => ⟨[], rfl, rfl, trivial, rfl⟩
  | (key, v) :: fields, path, hdistinct, hwalk, hkept => by
      rw [walkFields] at hwalk
      split at hwalk
      · cases hwalk
      · split at hwalk
        · cases hwalk
        · rename_i hv
          obtain ⟨j, hj, hevery, hstored⟩ := exists_json_of_kept v _ hdistinct.1 hv hkept.1
          obtain ⟨es, hes, hkeys, heverys, hstoreds⟩ :=
            exists_fields_of_kept fields path hdistinct.2 hwalk hkept.2
          refine ⟨(key, j) :: es, ?_, congrArg (key :: ·) hkeys, ⟨hevery, heverys⟩, ?_⟩
          · simp [toJsonFields, hj, hes]
          · rw [canonicalizeFields, hstored, hstoreds, arrangeEntries]
end

mutual
/-- A payload that is a JSON value has distinct keys there too, and is kept if its numbers are exact
and no key is `__proto__`. -/
theorem kept_of_json : ∀ (v : JsValue ν) {j : Json ν}, toJson v = some j → v.Distinct →
    j.Distinct ∧ (j.Every (Exact N) (protoKey ∉ ·) → Kept N v)
  | .null, _, rfl, _ => ⟨trivial, fun _ => trivial⟩
  | .bool _, _, rfl, _ => ⟨trivial, fun _ => trivial⟩
  | .number _, _, rfl, _ => ⟨trivial, fun h => ne_negativeZero_of_exact N h⟩
  | .string _, _, rfl, _ => ⟨trivial, fun _ => trivial⟩
  | .array items false, _, h, hdistinct => by
      obtain ⟨js, hjs, rfl⟩ := Option.map_eq_some_iff.mp h
      obtain ⟨hd, hkept⟩ := kept_of_items items hjs hdistinct
      exact ⟨hd, fun hevery => ⟨rfl, hkept hevery⟩⟩
  | .object fields false, _, h, hdistinct => by
      obtain ⟨es, hes, rfl⟩ := Option.map_eq_some_iff.mp h
      obtain ⟨hkeys, hd, hkept⟩ := kept_of_fields fields hes hdistinct.2
      refine ⟨⟨hkeys ▸ hdistinct.1, hd⟩, fun hevery => ⟨rfl, ?_, hkept hevery.2⟩⟩
      rw [← hkeys]
      exact hevery.1
  | .undefined, _, h, _ => by cases h
  | .other _, _, h, _ => by cases h
  | .array _ true, _, h, _ => by cases h
  | .object _ true, _, h, _ => by cases h
theorem kept_of_items : ∀ (items : List (Option (JsValue ν))) {js : List (Json ν)},
    toJsonItems items = some js → JsValue.DistinctItems items →
      EveryItem (fun _ => True) List.Nodup js ∧
        (EveryItem (Exact N) (protoKey ∉ ·) js → KeptItems N items)
  | [], _, rfl, _ => ⟨trivial, fun _ => trivial⟩
  | none :: _, _, h, _ => by cases h
  | some v :: items, _, h, hdistinct => by
      rw [toJsonItems, Option.bind_eq_some_iff] at h
      obtain ⟨j, hj, h⟩ := h
      obtain ⟨js, hjs, rfl⟩ := Option.map_eq_some_iff.mp h
      obtain ⟨hd, hkept⟩ := kept_of_json v hj hdistinct.1
      obtain ⟨hds, hkepts⟩ := kept_of_items items hjs hdistinct.2
      exact ⟨⟨hd, hds⟩, fun hevery => ⟨hkept hevery.1, hkepts hevery.2⟩⟩
theorem kept_of_fields : ∀ (fields : List (JsString × JsValue ν)) {es : List (JsString × Json ν)},
    toJsonFields fields = some es → JsValue.DistinctFields fields →
      keysOf es = keysOf fields ∧ EveryEntry (fun _ => True) List.Nodup es ∧
        (EveryEntry (Exact N) (protoKey ∉ ·) es → KeptFields N fields)
  | [], _, rfl, _ => ⟨rfl, trivial, fun _ => trivial⟩
  | (key, v) :: fields, _, h, hdistinct => by
      rw [toJsonFields, Option.bind_eq_some_iff] at h
      obtain ⟨j, hj, h⟩ := h
      obtain ⟨es, hes, rfl⟩ := Option.map_eq_some_iff.mp h
      obtain ⟨hd, hkept⟩ := kept_of_json v hj hdistinct.1
      obtain ⟨hkeys, hds, hkepts⟩ := kept_of_fields fields hes hdistinct.2
      exact ⟨congrArg (key :: ·) hkeys, ⟨hd, hds⟩, fun hevery => ⟨hkept hevery.1, hkepts hevery.2⟩⟩
end

/-! ## The result -/

theorem walk_of_accepted {F : NumberFormat ν} {v : JsValue ν} (h : assertLedgerPayload F v = .ok ()) :
    walk F v (js "payload") = .ok () := by
  cases v with
  | object fields more =>
      rw [assertLedgerPayload] at h
      split at h
      · cases h
      · assumption
  | _ => cases h

/-- What is read of a payload. -/
theorem parse_stableStringify (p : Payload ν) :
    parse N.toNumberFormat (stableStringify N.toNumberFormat p.value) =
      some ((canonicalize p.value).mapNumbers N.reread) :=
  parse_text _ (every_mono (fun _ => id) (fun _ h => h.1) _ (every_canonicalize p.value p.distinct))

/-- A kept payload is read back in its normal form. -/
theorem parse_of_kept (p : Payload ν)
    (haccepted : assertLedgerPayload N.toNumberFormat p.value = .ok ()) (hkept : Kept N p.value) :
    ∃ j, toJson p.value = some j ∧ j.Distinct ∧
      parse N.toNumberFormat (stableStringify N.toNumberFormat p.value) =
        some (arrange ledgerOrder j) := by
  obtain ⟨j, hjson, hevery, hstored⟩ :=
    exists_json_of_kept N p.value _ p.distinct (walk_of_accepted haccepted) hkept
  have harranged : (arrange ledgerOrder j).Every (Exact N) StoredKeys :=
    every_of_same storedKeys_perm (same_arrange ledgerOrder j) hevery
  refine ⟨j, hjson, (kept_of_json N p.value hjson p.distinct).1, ?_⟩
  rw [parse_stableStringify, hstored, mapNumbers_of_exact _ _ harranged]

/-- **An accepted payload is read back exactly if it is kept.** -/
theorem readBack_iff_kept (p : Payload ν)
    (haccepted : assertLedgerPayload N.toNumberFormat p.value = .ok ()) :
    ReadBack N.toNumberFormat p.value ↔ Kept N p.value := by
  constructor
  · rintro ⟨read, hparse, j, hjson, hsame⟩
    obtain ⟨hdistinct, hkept⟩ := kept_of_json N p.value hjson p.distinct
    rw [parse_stableStringify, Option.some.injEq] at hparse
    have hread : read.Every (Exact N) (protoKey ∉ ·) := by
      rw [← hparse]
      exact every_mapNumbers (every_reread N _) _
        (every_mono (fun _ => id) (fun _ h => h.2) _ (every_canonicalize p.value p.distinct))
    -- the relation is symmetric: both values have one normal form
    have hback : SameJson read j :=
      same_of_arrange_eq ledgerOrder read j (arrange_eq_of_same ledgerOrder hsame hdistinct).symm
    exact hkept (every_of_same (fun hperm h hmem => h (hperm.mem_iff.mpr hmem)) hback hread)
  · intro hkept
    obtain ⟨j, hjson, -, hparse⟩ := parse_of_kept N p haccepted hkept
    exact ⟨_, hparse, j, hjson, same_arrange ledgerOrder j⟩

/-- **Which accepted payloads are stored faithfully.** An accepted payload is deeply equal to what is
read back of it exactly if it is kept; and two accepted payloads that are kept have one text only if
they are equal up to the order of keys. -/
theorem ledger_payload_iff :
    (∀ p : Payload ν, assertLedgerPayload N.toNumberFormat p.value = .ok () →
      (ReadBack N.toNumberFormat p.value ↔ Kept N p.value)) ∧
    ∀ p q : Payload ν, assertLedgerPayload N.toNumberFormat p.value = .ok () →
      assertLedgerPayload N.toNumberFormat q.value = .ok () → Kept N p.value → Kept N q.value →
      stableStringify N.toNumberFormat p.value = stableStringify N.toNumberFormat q.value →
      ∃ j k, toJson p.value = some j ∧ toJson q.value = some k ∧ SameJson j k := by
  refine ⟨readBack_iff_kept N, fun p q hp hq hkeptp hkeptq htext => ?_⟩
  obtain ⟨j, hj, -, hparse⟩ := parse_of_kept N p hp hkeptp
  obtain ⟨k, hk, -, hparse'⟩ := parse_of_kept N q hq hkeptq
  rw [htext, hparse', Option.some.injEq] at hparse
  exact ⟨j, k, hj, hk, same_of_arrange_eq ledgerOrder j k hparse.symm⟩

/-! ## A payload that is kept and one that is lost -/

theorem isNumeral_zero : isNumeral (js "0") = true := by decide

/-- Zero, negative zero and a number that is not finite. -/
inductive SampleNumber where
  | zero
  | negativeZero
  | nan
  deriving DecidableEq

def sampleNumbers : JsNumbers SampleNumber where
  numeral := fun x =>
    match x with
    | .nan => none
    | _ => some ⟨js "0", isNumeral_zero⟩
  ofNumeral := fun _ => .zero
  zero := .zero
  negativeZero := .negativeZero
  zero_ne := by decide
  numeral_negativeZero := rfl
  read := by
    intro x t h hx
    cases x with
    | zero => rfl
    | negativeZero => exact absurd rfl hx
    | nan => cases h

def nestedPayload : Payload SampleNumber where
  value := .object [(js "b", .array [some (.number .zero), some .null] false), (js "a", .bool true)] false
  distinct := ⟨by decide, ⟨trivial, trivial, trivial⟩, trivial, trivial⟩

/-- An array in an object is read back. -/
theorem ledger_payload_iff_sample :
    stableStringify sampleNumbers.toNumberFormat nestedPayload.value
        = js "\x7b\"a\":true,\"b\":[0,null]\x7d" ∧
      ReadBack sampleNumbers.toNumberFormat nestedPayload.value :=
  ⟨by decide +kernel, ((ledger_payload_iff sampleNumbers).1 nestedPayload (by decide +kernel)).mpr
    ⟨rfl, by decide, ⟨rfl, sampleNumbers.zero_ne, trivial, trivial⟩, trivial, trivial⟩⟩

/-- What `JSON.parse` makes of an object with the one key `__proto__`. -/
def protoPayload : Payload SampleNumber where
  value := .object [(protoKey, .bool true)] false
  distinct := ⟨by decide, trivial, trivial⟩

/-- It is accepted, and the empty object is stored for it. -/
theorem payload_lost :
    assertLedgerPayload sampleNumbers.toNumberFormat protoPayload.value = .ok () ∧
      stableStringify sampleNumbers.toNumberFormat protoPayload.value = js "\x7b\x7d" ∧
      ¬ ReadBack sampleNumbers.toNumberFormat protoPayload.value := by
  have haccepted : assertLedgerPayload sampleNumbers.toNumberFormat protoPayload.value = .ok () := by
    decide +kernel
  refine ⟨haccepted, by decide +kernel, fun h => ?_⟩
  have hkept := (readBack_iff_kept sampleNumbers protoPayload haccepted).mp h
  exact hkept.2.1 List.mem_cons_self

end VerdantBond
