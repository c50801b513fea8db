import VerdantBond.Lib.Utf16

set_option autoImplicit false

/-! # JSON texts of flat objects

The text that `JSON.stringify` writes for an object whose values are strings, numbers and `null`
(`objectText`). Quoting is undone by reading (`readString_escape`), and a numeral ends where a unit
stands that no numeral has. So the text of an object tells its properties (`objectText_inj`).
-/

namespace VerdantBond

open List

/-! ## Units of the grammar -/

def quoteMark : CodeUnit := 34
def comma : CodeUnit := 44
def colon : CodeUnit := 58
def backslash : CodeUnit := 92
def openBrace : CodeUnit := 123
def closeBrace : CodeUnit := 125

variable (u : CodeUnit) (s : JsString)

/-- A unit a numeral may contain: a digit, a point, a sign or an exponent mark. -/
def IsNumberUnit : Prop :=
  IsDigit u ∨ u = unit '.' ∨ u = unit '+' ∨ u = unit '-' ∨ u = unit 'e' ∨ u = unit 'E'

instance (u : CodeUnit) : Decidable (IsNumberUnit u) := inferInstanceAs (Decidable (_ ∨ _))

/-! ## Numerals -/

/-- Digits, at least one. -/
def isDigits : Bool := decide (s ≠ []) && s.all IsDigit

/-- The end of a numeral: nothing, or an exponent. -/
def isExponent : JsString → Bool
  | [] => true
  | mark :: s =>
      decide (mark = unit 'e' ∨ mark = unit 'E') &&
        match s with
        | sign :: digits =>
            if sign = unit '+' ∨ sign = unit '-' then isDigits digits else isDigits (sign :: digits)
        | [] => false

/-- What may follow the integer part: a fraction or none, and an exponent or none. -/
def isFraction : Bool :=
  match s with
  | point :: rest =>
      if point = unit '.' then
        decide (rest.takeWhile IsDigit ≠ []) && isExponent (rest.dropWhile IsDigit)
      else isExponent s
  | [] => true

/-- A numeral after its sign: an integer part without leading zeros, and the rest. -/
def isUnsigned : Bool :=
  let integer := s.takeWhile IsDigit
  decide (integer ≠ [] ∧ (integer.head? ≠ some (unit '0') ∨ integer.length = 1)) &&
    isFraction (s.dropWhile IsDigit)

/-- The grammar of numbers. -/
def isNumeral : Bool :=
  decide (s ≠ []) && s.all IsNumberUnit &&
    match s with
    | sign :: rest => if sign = unit '-' then isUnsigned rest else isUnsigned s
    | [] => false

/-- The text of a number. -/
structure Numeral where
  text : JsString
  grammar : isNumeral text = true
  deriving DecidableEq

theorem Numeral.ne_nil (n : Numeral) : n.text ≠ [] := by
  have h := n.grammar
  simp only [isNumeral, Bool.and_eq_true, decide_eq_true_eq] at h
  exact h.1.1

theorem Numeral.units (n : Numeral) : ∀ u ∈ n.text, IsNumberUnit u := by
  have h := n.grammar
  simp only [isNumeral, Bool.and_eq_true, all_eq_true, decide_eq_true_eq] at h
  exact h.1.2

/-! ## Strings -/

def IsLead : Prop := 0xD800 ≤ u.val ∧ u.val ≤ 0xDBFF

def IsTrail : Prop := 0xDC00 ≤ u.val ∧ u.val ≤ 0xDFFF

instance (u : CodeUnit) : Decidable (IsLead u) := inferInstanceAs (Decidable (_ ∧ _))

instance (u : CodeUnit) : Decidable (IsTrail u) := inferInstanceAs (Decidable (_ ∧ _))

/-- A hexadecimal digit, in lower case. -/
def hexDigit (n : Nat) : CodeUnit := Fin.ofNat 65536 (if n < 10 then 48 + n else 87 + n)

def hexValue : Option Nat :=
  if 48 ≤ u.val ∧ u.val ≤ 57 then some (u.val - 48)
  else if 97 ≤ u.val ∧ u.val ≤ 102 then some (u.val - 87)
  else if 65 ≤ u.val ∧ u.val ≤ 70 then some (u.val - 55)
  else none

/-- `\uXXXX`. -/
def unicodeEscape : JsString :=
  [backslash, unit 'u', hexDigit (u.val / 4096), hexDigit (u.val / 256 % 16),
    hexDigit (u.val / 16 % 16), hexDigit (u.val % 16)]

/-- The escapes with a letter of their own, with the units they stand for. -/
def shortEscapes : List (CodeUnit × CodeUnit) :=
  [(quoteMark, quoteMark), (backslash, backslash), (unit 'b', 8), (unit 'f', 12), (unit 'n', 10),
    (unit 'r', 13), (unit 't', 9)]

/-- A unit inside quotes, on its own. -/
def escapeUnit : JsString :=
  match shortEscapes.find? fun e => e.2 = u with
  | some e => [backslash, e.1]
  | none => if u.val < 32 ∨ IsLead u ∨ IsTrail u then unicodeEscape u else [u]

/-- The units of a string inside quotes. A surrogate is written as it is only in a pair: `paired`
says that the unit before was the first of one. -/
def escape : Bool → JsString → JsString
  | _, [] => []
  | paired, u :: s =>
      if IsLead u ∧ s.head?.any IsTrail = true then u :: escape true s
      else if paired = true ∧ IsTrail u then u :: escape false s
      else escapeUnit u ++ escape false s

def quoted : JsString := quoteMark :: (escape false s ++ [quoteMark])

/-- The unit an escape of one letter stands for; a reader accepts `\/` too. -/
def shortEscape (letter : CodeUnit) : Option CodeUnit :=
  if letter = unit '/' then some (unit '/')
  else (shortEscapes.find? fun e => e.1 = letter).map Prod.snd

/-- Read the units of a string up to its closing quote. -/
def readString : JsString → Option (JsString × JsString)
  | [] => none
  | u :: s =>
      if u = quoteMark then some ([], s)
      else if u = backslash then
        match s with
        | letter :: s =>
            if letter = unit 'u' then
              match s with
              | a :: b :: c :: d :: s => do
                  let a ← hexValue a
                  let b ← hexValue b
                  let c ← hexValue c
                  let d ← hexValue d
                  let (units, rest) ← readString s
                  some (Fin.ofNat 65536 (4096 * a + 256 * b + 16 * c + d) :: units, rest)
              | _ => none
            else do
              let v ← shortEscape letter
              let (units, rest) ← readString s
              some (v :: units, rest)
        | [] => none
      else if u.val < 32 then none
      else do
        let (units, rest) ← readString s
        some (u :: units, rest)

theorem hexValue_hexDigit : ∀ n < 16, hexValue (hexDigit n) = some n := by decide

theorem shortEscape_of_mem {e : CodeUnit × CodeUnit} (h : e ∈ shortEscapes) :
    e.1 ≠ unit 'u' ∧ shortEscape e.1 = some e.2 := by
  have hall : (shortEscapes.all fun e => e.1 ≠ unit 'u' ∧ shortEscape e.1 = some e.2) = true := by
    decide
  exact of_decide_eq_true (all_eq_true.mp hall e h)

variable {u : CodeUnit}

/-- A unit written as it is. -/
theorem readString_plain (hquote : u ≠ quoteMark) (hslash : u ≠ backslash) (hcontrol : 32 ≤ u.val)
    (s : JsString) :
    readString (u :: s) = (readString s).map fun (units, rest) => (u :: units, rest) := by
  rw [readString.eq_def]
  simp only [if_neg hquote, if_neg hslash, if_neg (not_lt.mpr hcontrol)]
  cases readString s with
  | none => rfl
  | some p => rfl

theorem readString_unicodeEscape (u : CodeUnit) (s : JsString) :
    readString (unicodeEscape u ++ s)
      = (readString s).map fun (units, rest) => (u :: units, rest) := by
  have hlt : u.val < 65536 := u.isLt
  have hslash : backslash ≠ quoteMark := by decide
  have hunit : Fin.ofNat 65536 (4096 * (u.val / 4096) + 256 * (u.val / 256 % 16) +
      16 * (u.val / 16 % 16) + u.val % 16) = u := by
    apply Fin.ext
    show _ % 65536 = u.val
    omega
  rw [readString.eq_def]
  simp only [unicodeEscape, cons_append, nil_append, if_neg hslash, if_true,
    hexValue_hexDigit (u.val / 4096) (by omega), hexValue_hexDigit (u.val / 256 % 16) (by omega),
    hexValue_hexDigit (u.val / 16 % 16) (by omega), hexValue_hexDigit (u.val % 16) (by omega),
    Option.bind_eq_bind, Option.bind_some, hunit]
  cases readString s with
  | none => rfl
  | some p => rfl

theorem readString_escapeUnit (u : CodeUnit) (s : JsString) :
    readString (escapeUnit u ++ s)
      = (readString s).map fun (units, rest) => (u :: units, rest) := by
  unfold escapeUnit
  split
  · next e he =>
      obtain ⟨hletter, hshort⟩ := shortEscape_of_mem (mem_of_find?_eq_some he)
      have hunit : e.2 = u := by simpa using find?_some he
      have hslash : backslash ≠ quoteMark := by decide
      rw [readString.eq_def]
      simp only [cons_append, nil_append, if_neg hslash, if_true, if_neg hletter, hshort, hunit,
        Option.bind_eq_bind, Option.bind_some]
      cases readString s with
      | none => rfl
      | some p => rfl
  · next hnone =>
      split
      · exact readString_unicodeEscape u s
      · next hplain =>
          -- the quote and the backslash have escapes of their own
          have hother : ∀ e ∈ shortEscapes, e.2 ≠ u := by simpa using hnone
          refine readString_plain (Ne.symm (hother (quoteMark, quoteMark) (by decide)))
            (Ne.symm (hother (backslash, backslash) (by decide))) ?_ s
          by_contra hlt
          exact hplain (.inl (by omega))

/-- A surrogate written as it is. -/
theorem readString_surrogate (h : IsLead u ∨ IsTrail u) (s : JsString) :
    readString (u :: s) = (readString s).map fun (units, rest) => (u :: units, rest) := by
  have hlow : 0xD800 ≤ u.val := by
    rcases h with h | h
    · exact h.1
    · exact le_trans (by decide) h.1
  refine readString_plain ?_ ?_ (le_trans (by decide) hlow) s
  · rintro rfl
    exact absurd hlow (by decide)
  · rintro rfl
    exact absurd hlow (by decide)

/-- **Reading what was quoted gives the string back.** -/
theorem readString_escape (paired : Bool) (rest : JsString) :
    readString (escape paired s ++ quoteMark :: rest) = some (s, rest) := by
  induction s generalizing paired with
  | nil =>
      rw [escape, nil_append, readString.eq_def]
      exact if_pos rfl
  | cons u s ih =>
      rw [escape]
      split
      · next hlead =>
          rw [cons_append, readString_surrogate (.inl hlead.1), ih]
          rfl
      · split
        · next htrail =>
            rw [cons_append, readString_surrogate (.inr htrail.2), ih]
            rfl
        · rw [append_assoc, readString_escapeUnit, ih]
          rfl

theorem quoted_append_inj {s t rest rest' : JsString} (h : quoted s ++ rest = quoted t ++ rest') :
    s = t ∧ rest = rest' := by
  simp only [quoted, cons_append, append_assoc, nil_append, cons.injEq, true_and] at h
  have hread := congrArg readString h
  rw [readString_escape, readString_escape] at hread
  exact Prod.mk.inj (Option.some.inj hread)

/-! ## Values -/

/-- The text after a value does not continue a numeral. -/
def Delimited : Prop := ∀ u ∈ s.head?, ¬ IsNumberUnit u

theorem Numeral.takeWhile_append (n : Numeral) {rest : JsString} (h : Delimited rest) :
    (n.text ++ rest).takeWhile IsNumberUnit = n.text := by
  have hall : ∀ u ∈ n.text, decide (IsNumberUnit u) = true := by
    intro u hu
    exact decide_eq_true (n.units u hu)
  rw [takeWhile_append_of_pos hall]
  cases rest with
  | nil => simp
  | cons u rest =>
      have hu : ¬ IsNumberUnit u := h u rfl
      simp [hu]

/-- A value without parts. -/
inductive JsonScalar where
  | null
  | number (n : Numeral)
  | string (s : JsString)

namespace JsonScalar

def text : JsonScalar → JsString
  | .null => js "null"
  | .number n => n.text
  | .string s => quoted s

/-- The first unit of a text tells what kind of value it is. -/
def StartsLike (u : CodeUnit) : JsonScalar → Prop
  | .null => u = unit 'n'
  | .number _ => IsNumberUnit u
  | .string _ => u = quoteMark

theorem exists_startsLike (v : JsonScalar) (rest : JsString) :
    ∃ u, (v.text ++ rest).head? = some u ∧ v.StartsLike u := by
  cases v with
  | null => exact ⟨_, rfl, rfl⟩
  | string s => exact ⟨_, rfl, rfl⟩
  | number n =>
      obtain ⟨u, s, hs⟩ := exists_cons_of_ne_nil n.ne_nil
      refine ⟨u, ?_, n.units u (hs ▸ mem_cons_self)⟩
      show (n.text ++ rest).head? = some u
      rw [hs]
      rfl

theorem StartsLike.not_number {u : CodeUnit} (h : u = unit 'n' ∨ u = quoteMark) : ¬ IsNumberUnit u := by
  rcases h with rfl | rfl <;> decide

/-- **A text tells the value and where it ends.** -/
theorem text_append_inj {v w : JsonScalar} {rest rest' : JsString} (hrest : Delimited rest)
    (hrest' : Delimited rest') (h : v.text ++ rest = w.text ++ rest') : v = w ∧ rest = rest' := by
  obtain ⟨u, hu, hv⟩ := v.exists_startsLike rest
  obtain ⟨u', hu', hw⟩ := w.exists_startsLike rest'
  rw [h, hu'] at hu
  cases hu
  cases v <;> cases w
  case null.null => exact ⟨rfl, append_cancel_left h⟩
  case string.string s t =>
      obtain ⟨rfl, hrest⟩ := quoted_append_inj h
      exact ⟨rfl, hrest⟩
  case number.number n m =>
      have htext : n.text = m.text := by
        rw [← n.takeWhile_append hrest, ← m.takeWhile_append hrest']
        exact congrArg _ h
      obtain rfl : n = m := by
        cases n
        cases m
        cases htext
        rfl
      exact ⟨rfl, append_cancel_left h⟩
  -- texts of two kinds start differently
  case null.number n => exact absurd hw (StartsLike.not_number (.inl hv))
  case null.string s => exact absurd (hv.symm.trans hw) (by decide)
  case number.null n => exact absurd hv (StartsLike.not_number (.inl hw))
  case number.string n s => exact absurd hv (StartsLike.not_number (.inr hw))
  case string.null s => exact absurd (hv.symm.trans hw) (by decide)
  case string.number s n => exact absurd hw (StartsLike.not_number (.inr hv))

end JsonScalar

/-! ## Objects -/

/-- The rest of an object, after a property. -/
def entriesText : List (JsString × JsonScalar) → JsString
  | [] => [closeBrace]
  | (key, v) :: es => comma :: (quoted key ++ colon :: (v.text ++ entriesText es))

/-- The text of an object with these properties, listed in this order. -/
def objectText : List (JsString × JsonScalar) → JsString
  | [] => [openBrace, closeBrace]
  | (key, v) :: es => openBrace :: (quoted key ++ colon :: (v.text ++ entriesText es))

theorem delimited_entriesText (es : List (JsString × JsonScalar)) : Delimited (entriesText es) := by
  intro u hu
  cases es with
  | nil =>
      cases hu
      decide
  | cons e es =>
      cases hu
      decide

variable {es es' : List (JsString × JsonScalar)}

theorem property_inj {key key' : JsString} {v v' : JsonScalar}
    (h : quoted key ++ colon :: (v.text ++ entriesText es)
      = quoted key' ++ colon :: (v'.text ++ entriesText es')) :
    (key, v) = (key', v') ∧ entriesText es = entriesText es' := by
  obtain ⟨rfl, htail⟩ := quoted_append_inj h
  obtain ⟨rfl, hes⟩ := JsonScalar.text_append_inj (delimited_entriesText es) (delimited_entriesText es')
    (cons.inj htail).2
  exact ⟨rfl, hes⟩

theorem entriesText_inj (h : entriesText es = entriesText es') : es = es' := by
  induction es generalizing es' with
  | nil =>
      cases es' with
      | nil => rfl
      | cons e es' => exact absurd (cons.inj h).1 (by decide)
  | cons e es ih =>
      cases es' with
      | nil => exact absurd (cons.inj h).1 (by decide)
      | cons e' es' =>
          obtain ⟨he, hes⟩ := property_inj (cons.inj h).2
          exact cons_eq_cons.mpr ⟨he, ih hes⟩

/-- **The text of an object tells its properties.** -/
theorem objectText_inj (h : objectText es = objectText es') : es = es' := by
  have hquoted : ∀ s rest, quoted s ++ rest ≠ [closeBrace] :=
    fun s rest heq => absurd (cons.inj heq).1 (by decide)
  cases es with
  | nil =>
      cases es' with
      | nil => rfl
      | cons e es' => exact absurd (cons.inj h).2.symm (hquoted _ _)
  | cons e es =>
      cases es' with
      | nil => exact absurd (cons.inj h).2 (hquoted _ _)
      | cons e' es' =>
          obtain ⟨he, hes⟩ := property_inj (cons.inj h).2
          exact cons_eq_cons.mpr ⟨he, entriesText_inj hes⟩

end VerdantBond
