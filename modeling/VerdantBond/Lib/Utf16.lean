import Mathlib.Data.List.Sort
import Mathlib.Tactic

set_option autoImplicit false

/-! # Strings of UTF-16 code units

A JavaScript string is any sequence of 16-bit code units, unpaired surrogates included. Strings are
compared unit by unit (`<` on lists), their length counts units, and a literal of the source, which
is ASCII, is written `js "literal"`.
-/

namespace VerdantBond

abbrev CodeUnit := Fin 65536

abbrev JsString := List CodeUnit

instance neZero_units : NeZero 65536 := ⟨by decide⟩

instance lawfulBEq_jsString : LawfulBEq JsString := inferInstance

/-- The code unit of a character of the basic plane. -/
def unit (c : Char) : CodeUnit := Fin.ofNat 65536 c.toNat

/-- A literal. -/
def js (text : String) : JsString := text.toList.map unit

/-- The units `trim` removes: white space and line terminators. -/
def IsBlank (u : CodeUnit) : Prop :=
  9 ≤ u.val ∧ u.val ≤ 13 ∨ u.val = 32 ∨ u.val = 0xA0 ∨ u.val = 0x1680 ∨
    0x2000 ≤ u.val ∧ u.val ≤ 0x200A ∨ u.val = 0x2028 ∨ u.val = 0x2029 ∨ u.val = 0x202F ∨
    u.val = 0x205F ∨ u.val = 0x3000 ∨ u.val = 0xFEFF

instance (u : CodeUnit) : Decidable (IsBlank u) := inferInstanceAs (Decidable (_ ∨ _))

def trim (s : JsString) : JsString := ((s.dropWhile IsBlank).reverse.dropWhile IsBlank).reverse

/-! ## Decimal digits -/

/-- The decimal digits of a number. -/
def decimal (n : Nat) : JsString := (Nat.toDigits 10 n).map unit

/-- The digit of a unit. -/
def digitOf (u : CodeUnit) : Nat := u.val - 48

/-- The number a text of digits stands for. -/
def ofDecimal (digits : JsString) : Nat := digits.foldl (fun n u => 10 * n + digitOf u) 0

def IsDigit (u : CodeUnit) : Prop := 48 ≤ u.val ∧ u.val ≤ 57

instance (u : CodeUnit) : Decidable (IsDigit u) := inferInstanceAs (Decidable (_ ∧ _))

theorem unit_val {c : Char} (h : c.toNat < 65536) : (unit c).val = c.toNat := Nat.mod_eq_of_lt h

theorem isDigit_val {c : Char} (h : c.isDigit = true) : 48 ≤ c.toNat ∧ c.toNat ≤ 57 := by
  simp only [Char.isDigit, Bool.and_eq_true, decide_eq_true_eq, ge_iff_le,
    UInt32.le_iff_toNat_le] at h
  exact h

theorem isDigit_of_mem_decimal {n : Nat} {u : CodeUnit} (h : u ∈ decimal n) : IsDigit u := by
  obtain ⟨c, hc, rfl⟩ := List.mem_map.mp h
  have hdigit := isDigit_val (Nat.isDigit_of_mem_toDigits (b := 10) (by decide) (by decide) hc)
  have hval : (unit c).val = c.toNat := unit_val (by omega)
  unfold IsDigit
  omega

/-- **Reading the digits of a number gives the number.** -/
theorem ofDecimal_decimal (n : Nat) : ofDecimal (decimal n) = n := by
  have hchars : ∀ (cs : List Char) (acc : Nat), (∀ c ∈ cs, c.isDigit = true) →
      (cs.map unit).foldl (fun n u => 10 * n + digitOf u) acc = Nat.ofDigitChars 10 cs acc := by
    intro cs
    induction cs with
    | nil => intro acc _; rfl
    | cons c cs ih =>
        intro acc hcs
        have hdigit := isDigit_val (hcs c List.mem_cons_self)
        have hval : digitOf (unit c) = c.toNat - 48 := by
          unfold digitOf
          rw [unit_val (by omega)]
        rw [List.map_cons, List.foldl_cons, hval, ih _ fun c' hc' => hcs c' (List.mem_cons_of_mem _ hc')]
        rfl
  unfold ofDecimal decimal
  rw [hchars _ _ fun c hc => Nat.isDigit_of_mem_toDigits (by decide) (by decide) hc]
  exact Nat.ofDigitChars_toDigits (by decide) (by decide)

theorem decimal_injective : Function.Injective decimal :=
  Function.LeftInverse.injective ofDecimal_decimal

end VerdantBond
